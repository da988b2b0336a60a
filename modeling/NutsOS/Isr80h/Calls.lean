import NutsOS.Isr80h.Print
import NutsOS.Idt.Syscall
import NutsOS.Task.Creation

-- isr80h.c and misc.c on the kernel's objects: the table of the commands, and
-- what a program sees of a sequence of system calls.
namespace NutsOS.Isr80h
open Word32 Stdutil Terminal Tasks Processes Idt

abbrev Command := InterruptFrame → MachineProg Nat

abbrev Commands := Nat → Option Command

-- panic ends the kernel. A null pointer may be registered, and leaves the entry empty.
def isr80hRegisterCommand (commandId : Int) (command : Option Command) : Prog Fault Commands Unit := do
  if commandId < 0 ∨ commandId ≥ int80hCommandMax then Prog.fault .panic else
  if ((← Prog.get) commandId.toNat).isSome then Prog.fault .panic else
  Prog.modify (fun commands id => if id = commandId.toNat then command else commands id)

def isr80hCommandSum : Command := fun _ => return 10

def isr80hRegisterCommands : Prog Fault Commands Unit := do
  isr80hRegisterCommand 0 (some isr80hCommandSum)
  isr80hRegisterCommand 1 (some (fun _ => isr80hCommandPrint))

def isr80hHandleCommand (commands : Commands) (command : Int) (frame : InterruptFrame) : MachineProg Nat := do
  if command < 0 ∨ command ≥ int80hCommandMax then return 0
  match commands command.toNat with
  | none => return 0
  | some commandFunc => commandFunc frame

def taskSaveState (ptr : Nat) (frame : InterruptFrame) : KernelProg Unit :=
  updateTask ptr (fun task => {task with
    registers := {task.registers with
      ip := frame.ip.toNat
      cs := frame.cs.toNat
      flags := frame.flags.toNat
      esp := frame.esp.toNat
      ss := frame.ss.toNat
      eax := frame.eax.toNat
      ebp := frame.ebp.toNat
      ebx := frame.ebx.toNat
      ecx := frame.ecx.toNat
      edi := frame.edi.toNat
      edx := frame.edx.toNat
      esi := frame.esi.toNat}})

def taskCurrentSaveState (frame : InterruptFrame) : KernelProg Unit := do
  let current := (← Prog.get).currentTask
  if current = 0 then Prog.fault .panic else
  taskSaveState current frame

-- int 0x80 hands eax over as the command.
def isr80hHandler (commands : Commands) (frame : InterruptFrame) : MachineProg Nat := do
  onKernel (taskCurrentSaveState frame)
  isr80hHandleCommand commands frame.eax.toInt frame

def registerAll : List (Int × Option Command) → Prog Fault Commands Unit
  | [] => return
  | (commandId,command)::rest => do
    isr80hRegisterCommand commandId command
    registerAll rest

def firstGiven : List (Int × Option Command) → Nat → Option Command
  | [],_ => none
  | (commandId,command)::rest,id => if id = commandId.toNat ∧ command.isSome then command else firstGiven rest id

-- A registration that goes through.
structure Admissible (commands : Commands) (log : List (Int × Option Command)) : Prop where
  bounds : ∀ entry ∈ log, 0 ≤ entry.1 ∧ entry.1 < int80hCommandMax
  free : ∀ entry ∈ log, commands entry.1.toNat = none
  once : log.Pairwise (fun one two => one.2.isSome → one.1 ≠ two.1)

theorem register_run {commands : Commands} {commandId : Int} (bounds : 0 ≤ commandId ∧ commandId < int80hCommandMax)
    (free : commands commandId.toNat = none) (command : Option Command) :
    isr80hRegisterCommand commandId command commands =
      .ok ((),fun id => if id = commandId.toNat then command else commands id) := by
  unfold isr80hRegisterCommand
  rw [if_neg (by omega),Prog.get_bind,free]
  rfl

theorem register_ok {commands : Commands} (ran : isr80hRegisterCommand commandId command commands = .ok ((),after)) :
    (0 ≤ commandId ∧ commandId < int80hCommandMax) ∧ commands commandId.toNat = none ∧
      after = fun id => if id = commandId.toNat then command else commands id := by
  unfold isr80hRegisterCommand at ran
  by_cases outside : commandId < 0 ∨ commandId ≥ int80hCommandMax
  · rw [if_pos outside] at ran
    cases ran
  · rw [if_neg outside,Prog.get_bind] at ran
    cases taken : commands commandId.toNat with
    | some f =>
      rw [taken] at ran
      cases ran
    | none =>
      rw [taken] at ran
      cases ran
      exact ⟨by omega,rfl,rfl⟩

theorem Admissible.tail (admissible : Admissible commands ((commandId,command)::rest)) :
    Admissible (fun id => if id = commandId.toNat then command else commands id) rest := by
  obtain ⟨apart,once⟩ := List.pairwise_cons.mp admissible.once
  have low := (admissible.bounds _ List.mem_cons_self).1
  refine ⟨fun entry inside => admissible.bounds entry (List.mem_cons_of_mem _ inside),fun entry inside => ?_,once⟩
  have low' := (admissible.bounds entry (List.mem_cons_of_mem _ inside)).1
  by_cases same : entry.1.toNat = commandId.toNat
  · rw [if_pos same]
    cases given : command with
    | none => rfl
    | some f =>
      have differs : commandId ≠ entry.1 := apart entry inside (by rw [given]; rfl)
      dsimp only at low
      omega
  · rw [if_neg same]
    exact admissible.free entry (List.mem_cons_of_mem _ inside)

theorem Admissible.cons {commandId : Int} (bounds : 0 ≤ commandId ∧ commandId < int80hCommandMax) (free : commands commandId.toNat = none)
    (later : Admissible (fun id => if id = commandId.toNat then command else commands id) rest) :
    Admissible commands ((commandId,command)::rest) := by
  refine ⟨?_,?_,List.pairwise_cons.mpr ⟨?_,later.once⟩⟩
  · intro entry member
    rcases List.mem_cons.mp member with rfl | inside
    · exact bounds
    · exact later.bounds entry inside
  · intro entry member
    rcases List.mem_cons.mp member with rfl | inside
    · exact free
    · have empty := later.free entry inside
      by_cases same : entry.1.toNat = commandId.toNat
      · rw [same]
        exact free
      · rw [if_neg same] at empty
        exact empty
  · intro entry inside given same
    have empty := later.free entry inside
    dsimp only at same given
    rw [← same,if_pos rfl] at empty
    rw [empty] at given
    cases given

theorem firstGiven_none {log : List (Int × Option Command)} {id : Nat} (apart : ∀ entry ∈ log, id ≠ entry.1.toNat) : firstGiven log id = none := by
  induction log with
  | nil => rfl
  | cons entry rest ih =>
    rw [firstGiven,if_neg (fun both => apart entry List.mem_cons_self both.1)]
    exact ih (fun other inside => apart other (List.mem_cons_of_mem _ inside))

theorem firstGiven_settles (admissible : Admissible commands ((commandId,command)::rest)) (id : Nat) :
    (firstGiven rest id).or (if id = commandId.toNat then command else commands id) =
      (firstGiven ((commandId,command)::rest) id).or (commands id) := by
  have free := admissible.free _ List.mem_cons_self
  have low := (admissible.bounds _ List.mem_cons_self).1
  rw [firstGiven]
  by_cases here : id = commandId.toNat
  · rw [if_pos here,here,free]
    cases given : command with
    | none => rw [if_neg (by simp)]
    | some f =>
      have apart : ∀ entry ∈ rest, commandId.toNat ≠ entry.1.toNat := by
        intro entry inside same
        have differs : commandId ≠ entry.1 := (List.pairwise_cons.mp admissible.once).1 entry inside (by rw [given]; rfl)
        have low' := (admissible.bounds entry (List.mem_cons_of_mem _ inside)).1
        dsimp only at low
        omega
      rw [firstGiven_none apart,if_pos ⟨rfl,rfl⟩]
      rfl
  · rw [if_neg here,if_neg (fun both => here both.1)]

theorem registrations_exact (commands after : Commands) (log : List (Int × Option Command)) :
    registerAll log commands = .ok ((),after) ↔
      Admissible commands log ∧ after = fun id => (firstGiven log id).or (commands id) := by
  induction log generalizing commands with
  | nil =>
    constructor
    · intro ran
      cases ran
      exact ⟨⟨by simp,by simp,.nil⟩,rfl⟩
    · rintro ⟨_,rfl⟩
      rfl
  | cons entry rest ih =>
    obtain ⟨commandId,command⟩ := entry
    constructor
    · intro ran
      obtain ⟨⟨⟩,middle,first,later⟩ := Prog.bind_ok.mp ran
      obtain ⟨bounds,free,rfl⟩ := register_ok first
      obtain ⟨tail,rfl⟩ := (ih _).mp later
      have admissible := Admissible.cons bounds free tail
      exact ⟨admissible,funext (firstGiven_settles admissible)⟩
    · rintro ⟨admissible,same⟩
      have bounds := admissible.bounds _ List.mem_cons_self
      have free := admissible.free _ List.mem_cons_self
      rw [registerAll,Prog.bind_run (register_run bounds free command)]
      exact (ih _).mpr ⟨admissible.tail,same.trans (funext (firstGiven_settles admissible)).symm⟩

def supported : Commands := fun id => if id = 1 then some (fun _ => isr80hCommandPrint) else if id = 0 then some isr80hCommandSum else none

theorem registerCommands_run : isr80hRegisterCommands (fun _ => none) = .ok ((),supported) := by
  unfold isr80hRegisterCommands
  rw [Prog.bind_run (register_run (by decide) rfl _),register_run (by decide) rfl]
  rfl

-- A system call as the program makes it: the memory at that time and the frame.
structure Request where
  memory : Nat → UInt8
  frame : InterruptFrame

-- The program writes its memory, and the kernel serves its next call.
def serve (commands : Commands) : List Request → MachineProg (List Nat)
  | [] => return []
  | request::rest => do
    Prog.modify (fun s => {s with memory := request.memory})
    let result ← isr80hHandler commands request.frame
    let results ← serve commands rest
    return result::results

def message (request : Request) : Nat := argument request.memory request.frame.esp.toNat

def Printing (process : NutsOS.Process) (request : Request) : Prop :=
  request.frame.eax = 1#32 ∧ processValidatePointer process (message request) = true

instance : Decidable (Printing process request) := inferInstanceAs (Decidable (_ ∧ _))

def answer (process : NutsOS.Process) (request : Request) : Nat :=
  if request.frame.eax = 0#32 then 10
  else if request.frame.eax = 1#32 then (if processValidatePointer process (message request) then 0 else toUint32 (-1))
  else 0

-- The text of a call: nothing, or its string, which lies off the screen.
inductive Shows (process : NutsOS.Process) (request : Request) : List UInt8 → Prop where
  | nothing (silent : ¬ Printing process request) : Shows process request []
  | string (printing : Printing process request) (ends : Ends request.memory (message request) len)
      (off : ∀ i < len, ¬ OfScreen (charAddress (message request) i)) :
      Shows process request (charsAt request.memory (message request) 0 len)

def frameRegisters (frame : InterruptFrame) : Registers where
  edi := frame.edi.toNat
  esi := frame.esi.toNat
  ebp := frame.ebp.toNat
  ebx := frame.ebx.toNat
  edx := frame.edx.toNat
  ecx := frame.ecx.toNat
  eax := frame.eax.toNat
  ip := frame.ip.toNat
  cs := frame.cs.toNat
  flags := frame.flags.toNat
  esp := frame.esp.toNat
  ss := frame.ss.toNat

-- The frame becomes the task's registers.
def saved (k : Kernel) (task : NutsOS.Task) (frame : InterruptFrame) : Kernel :=
  k.place k.currentTask (.task {task with registers := frameRegisters frame})

theorem saveState_run {s : Machine} (caller : Caller s task process) (frame : InterruptFrame) :
    onKernel (taskCurrentSaveState frame) s = .ok ((),{s with kernel := saved s.kernel task frame}) := by
  have ran : taskCurrentSaveState frame s.kernel = .ok ((),saved s.kernel task frame) := by
    unfold taskCurrentSaveState
    rw [Prog.get_bind,if_neg caller.nonnull]
    exact updateTask_run caller.running _
  exact Prog.focus_run ran

theorem saved_caller {s : Machine} (caller : Caller s task process) (frame : InterruptFrame) :
    Caller {s with kernel := saved s.kernel task frame} {task with registers := frameRegisters frame} process := by
  refine ⟨caller.nonnull,Kernel.place_same _ _ _,?_⟩
  have other : task.process ≠ s.kernel.currentTask := by
    intro same
    have owner := caller.owner
    rw [same,caller.running] at owner
    cases owner
  exact (Kernel.place_other other).trans caller.owner

-- What a request does: its answer, its text on the screen, and the frame in the
-- task's registers. Nothing else of the kernel changes, and of the memory only
-- the screen.
structure Served (s : Machine) (task : NutsOS.Task) (memory : Nat → UInt8) (registers : Registers) (text : List UInt8) (t : Machine) : Prop where
  screen : t.screen = s.screen.writeAll text
  kernel : t.kernel = s.kernel.place s.kernel.currentTask (.task {task with registers := registers})
  video : t.videoMem = s.videoMem
  memory : ∀ a, ¬ OfScreen a → t.memory a = memory a

theorem toInt_command (eax : Ram.Word) (small : ¬ (eax.toInt < 0 ∨ eax.toInt ≥ int80hCommandMax)) : eax = 0#32 ∨ eax = 1#32 := by
  have unsigned : eax.toNat = 0 ∨ eax.toNat = 1 := by
    unfold int80hCommandMax at small
    rw [BitVec.toInt_eq_toNat_cond] at small
    split at small <;> omega
  exact unsigned.imp (fun zero => BitVec.eq_of_toNat_eq zero) (fun one => BitVec.eq_of_toNat_eq one)

theorem handle_sum (frame : InterruptFrame) (s : Machine) : isr80hHandleCommand supported 0 frame s = .ok (10,s) := rfl

theorem handle_print (frame : InterruptFrame) : isr80hHandleCommand supported 1 frame = isr80hCommandPrint := rfl

theorem handle_other {eax : Ram.Word} (zero : eax ≠ 0#32) (one : eax ≠ 1#32) (frame : InterruptFrame) (s : Machine) :
    isr80hHandleCommand supported eax.toInt frame s = .ok (0,s) := by
  unfold isr80hHandleCommand
  by_cases outside : eax.toInt < 0 ∨ eax.toInt ≥ int80hCommandMax
  · rw [if_pos outside]
    rfl
  · rcases toInt_command eax outside with rfl | rfl
    · exact absurd rfl zero
    · exact absurd rfl one

theorem handler_serves {s : Machine} (caller : Caller s task process) (video : s.videoMem = 0xB8000) (inside : Inside s.screen)
    (memory : s.memory = request.memory) (shows : Shows process request text) (fits : Fits s.terminalRow s.terminalCol text) :
    ∃ t, isr80hHandler supported request.frame s = .ok (answer process request,t) ∧
      Served s task request.memory (frameRegisters request.frame) text t := by
  have again := saved_caller caller request.frame
  unfold isr80hHandler
  rw [Prog.bind_run (saveState_run caller request.frame)]
  have still : Served s task request.memory (frameRegisters request.frame) []
      {s with kernel := saved s.kernel task request.frame} := ⟨rfl,rfl,rfl,fun a _ => by rw [← memory]⟩
  by_cases one : request.frame.eax = 1#32
  · have command : request.frame.eax.toInt = 1 := by rw [one]; rfl
    have place : message request = argument s.memory (frameRegisters request.frame).esp := by
      unfold message
      rw [memory]
      rfl
    rw [command,handle_print]
    unfold answer
    rw [if_neg (by rw [one]; decide),if_pos one]
    cases shows with
    | nothing silent =>
      have refused : processValidatePointer process (message request) = false :=
        Bool.eq_false_iff.mpr (fun valid => silent ⟨one,valid⟩)
      have refuses := command_refuses again (by rw [← place]; exact refused)
      rw [refused]
      exact ⟨_,refuses,⟨still.screen,still.kernel,still.video,still.memory⟩⟩
    | @string len printing ends off =>
      rw [← memory,place] at ends fits ⊢
      rw [place] at off
      obtain ⟨t,ran,written⟩ := print_command again video inside (by rw [← place]; exact printing.2) ends off fits
      refine ⟨t,?_,written.screen,written.kernel,written.video,written.memory⟩
      rw [← place,printing.2]
      exact ran
  · have silent : text = [] := by
      cases shows with
      | nothing => rfl
      | string printing => exact absurd printing.1 one
    rw [silent]
    unfold answer
    by_cases zero : request.frame.eax = 0#32
    · have command : request.frame.eax.toInt = 0 := by rw [zero]; rfl
      rw [command,if_pos zero]
      exact ⟨_,handle_sum _ _,still⟩
    · rw [if_neg zero,if_neg one]
      exact ⟨_,handle_other zero one _ _,still⟩

theorem fits_append (screen : Screen) (row : screen.row < 65536) (col : screen.col < vgaWidth) (one two : List UInt8) :
    Fits screen.row screen.col (one++two) ↔
      Fits screen.row screen.col one ∧ Fits (screen.writeAll one).row (screen.writeAll one).col two := by
  induction one generalizing screen with
  | nil => exact ⟨fun fits => ⟨fun i c found => (by cases found),fits⟩,fun fits => fits.2⟩
  | cons c one ih =>
    obtain ⟨row',col'⟩ := write_bounds screen row col c
    rw [List.cons_append,fits_cons screen row col,fits_cons screen row col,ih (screen.write c) row' col',and_assoc]
    rfl

def lastRegisters (registers : Registers) (requests : List Request) : Registers :=
  requests.foldl (fun _ request => frameRegisters request.frame) registers

def lastMemory (memory : Nat → UInt8) (requests : List Request) : Nat → UInt8 :=
  requests.foldl (fun _ request => request.memory) memory

theorem lastMemory_congr {one two : Nat → UInt8} (same : one a = two a) (requests : List Request) :
    lastMemory one requests a = lastMemory two requests a := by
  cases requests with
  | nil => exact same
  | cons request rest => rfl

theorem serve_transcript {s : Machine} (caller : Caller s task process) (video : s.videoMem = 0xB8000) (inside : Inside s.screen)
    (shows : List.Forall₂ (Shows process) requests texts) (fits : Fits s.terminalRow s.terminalCol texts.flatten) :
    ∃ t, serve supported requests s = .ok (requests.map (answer process),t) ∧
      Served s task (lastMemory s.memory requests) (lastRegisters task.registers requests) texts.flatten t ∧ Inside t.screen := by
  induction shows generalizing s task with
  | nil =>
    refine ⟨s,rfl,⟨rfl,?_,rfl,fun _ _ => rfl⟩,inside⟩
    exact (Paging.place_held caller.running).symm
  | @cons request text requests texts shown rest ih =>
    rw [List.flatten_cons] at fits ⊢
    obtain ⟨now,later⟩ := (fits_append s.screen inside.row inside.col _ _).mp fits
    have start : Caller {s with memory := request.memory} task process := ⟨caller.nonnull,caller.running,caller.owner⟩
    obtain ⟨one,handled,served⟩ := handler_serves start video inside rfl shown now
    have again : Caller one {task with registers := frameRegisters request.frame} process := by
      have kept := saved_caller start request.frame
      refine ⟨?_,?_,?_⟩
      · rw [served.kernel]
        exact kept.nonnull
      · rw [served.kernel]
        exact kept.running
      · rw [served.kernel]
        exact kept.owner
    have on : Inside one.screen := by
      rw [served.screen]
      exact (writeAll_inside s.screen inside text).1 now
    have behind : Fits one.terminalRow one.terminalCol texts.flatten := by
      have cursor : one.screen = s.screen.writeAll text := served.screen
      rw [← cursor] at later
      exact later
    obtain ⟨t,ran,rest,last⟩ := ih again (served.video.trans video) on behind
    refine ⟨t,?_,⟨?_,?_,rest.video.trans served.video,?_⟩,last⟩
    · rw [serve,Prog.modify_bind,Prog.bind_run handled,Prog.bind_run ran]
      rfl
    · rw [rest.screen,served.screen]
      exact (List.foldl_append).symm
    · rw [rest.kernel,served.kernel]
      exact Kernel.place_place _ _ _ _
    · intro a off
      rw [rest.memory a off]
      exact lastMemory_congr (served.memory a off) requests

def sampleFrame (command : Ram.Word) : InterruptFrame :=
  ⟨0#32,0#32,0#32,0#32,0#32,0#32,0#32,command,0x400000#32,0x1B#32,0x202#32,0x3FEFF0#32,0x23#32⟩

theorem three_calls : ∃ t, serve supported [⟨imageByte 65,sampleFrame 1#32⟩,⟨imageByte 65,sampleFrame 7#32⟩,⟨imageByte 65,sampleFrame 0#32⟩]
      (sampleMachine (imageByte 65)) = .ok ([0,0,10],t) ∧
    Served (sampleMachine (imageByte 65)) sampleTask (imageByte 65) (frameRegisters (sampleFrame 0#32)) [65] t ∧ Inside t.screen := by
  have inside : Inside (sampleMachine (imageByte 65)).screen := ⟨fun _ member => (by cases member),by decide,by decide⟩
  have place : message ⟨imageByte 65,sampleFrame 1#32⟩ = 0x400000 := by decide
  have letter : Shows sampleProcess ⟨imageByte 65,sampleFrame 1#32⟩ [65] := by
    have text : charsAt (imageByte 65) (message ⟨imageByte 65,sampleFrame 1#32⟩) 0 1 = [65] := by
      rw [place]
      decide
    have ends : Ends (imageByte 65) (message ⟨imageByte 65,sampleFrame 1#32⟩) 1 := by
      rw [place]
      exact ⟨by decide,by decide,fun i small => by rw [Nat.lt_one_iff.mp small]; decide⟩
    have off : ∀ i < 1, ¬ OfScreen (charAddress (message ⟨imageByte 65,sampleFrame 1#32⟩) i) := by
      intro i small
      rw [Nat.lt_one_iff.mp small,place]
      unfold OfScreen
      decide
    rw [← text]
    exact .string ⟨rfl,by rw [place]; decide⟩ ends off
  have shows : List.Forall₂ (Shows sampleProcess)
      [⟨imageByte 65,sampleFrame 1#32⟩,⟨imageByte 65,sampleFrame 7#32⟩,⟨imageByte 65,sampleFrame 0#32⟩] [[65],[],[]] := by
    refine .cons letter (.cons (.nothing ?_) (.cons (.nothing ?_) .nil))
    · exact fun printing => absurd printing.1 (by decide)
    · exact fun printing => absurd printing.1 (by decide)
  have fits : Fits 0 0 [[65],[],[]].flatten := by
    intro i c found other
    cases i with
    | zero => decide
    | succ i => cases found
  exact serve_transcript (sample_caller (imageByte 65)) rfl inside shows fits

end NutsOS.Isr80h
