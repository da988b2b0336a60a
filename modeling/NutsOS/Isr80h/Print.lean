import NutsOS.Kernel.Boot
import NutsOS.Process.Pointer
import NutsOS.Task.List
import NutsOS.Terminal.Written

-- io.c: the print system call, and what task.c gives it of the calling task.
namespace NutsOS.Isr80h
open Word32 Stdutil Terminal Tasks Processes

def onKernel (x : KernelProg α) : MachineProg α :=
  Prog.focus Machine.kernel (fun s kernel => {s with kernel := kernel}) x

def readWord (address : Nat) : MachineProg Nat := do
  let b0 ← readByte (charAddress address 0)
  let b1 ← readByte (charAddress address 1)
  let b2 ← readByte (charAddress address 2)
  let b3 ← readByte (charAddress address 3)
  return b0.toNat+256*b1.toNat+65536*b2.toNat+16777216*b3.toNat

def taskCurrentGetStackItem (index : Nat) : MachineProg Nat := do
  let current := (← Prog.get).kernel.currentTask
  if current = 0 then Prog.fault .panic else
  let task ← onKernel (loadAs asTask current)
  readWord (toUint32 ((task.registers.esp+4*index : Nat) : Int))

def taskCurrentValidatePointer (ptr : Nat) : KernelProg Bool := do
  let task ← loadAs asTask (← Prog.get).currentTask
  let process ← loadAs asProcess task.process
  return processValidatePointer process ptr

def isr80hCommandPrint : MachineProg Nat := do
  let msgPtr ← taskCurrentGetStackItem 0
  if ¬ (← onKernel (taskCurrentValidatePointer msgPtr)) then return toUint32 (-1)
  print msgPtr
  return 0

def argumentAddresses (esp : Nat) : List Nat := charAddresses (toUint32 ((esp : Nat) : Int)) 0 4

def wordAt (memory : Nat → UInt8) (address : Nat) : Nat :=
  (memory (charAddress address 0)).toNat+256*(memory (charAddress address 1)).toNat+
    65536*(memory (charAddress address 2)).toNat+16777216*(memory (charAddress address 3)).toNat

def argument (memory : Nat → UInt8) (esp : Nat) : Nat := wordAt memory (toUint32 ((esp : Nat) : Int))

structure Caller (s : Machine) (task : NutsOS.Task) (process : NutsOS.Process) : Prop where
  nonnull : s.kernel.currentTask ≠ 0
  running : s.kernel.objs s.kernel.currentTask = some (.task task)
  owner : s.kernel.objs task.process = some (.process process)

def Accepted (process : NutsOS.Process) (addresses : List Nat) : Prop :=
  ∀ a ∈ addresses, processValidatePointer process a = true

-- Every byte of the string lies in the process's ranges, its NUL included.
def AcceptedString (process : NutsOS.Process) (memory : Nat → UInt8) (msg : Nat) : Prop :=
  ∃ len, Ends memory msg len ∧ Accepted process (charAddresses msg 0 (len+1))

-- What the system call promises about its reads and its failures.
def PrintSafe (process : NutsOS.Process) (s : Machine) (esp : Nat) : Prop :=
  ∃ res after log, isr80hCommandPrint s = .ok (res,after) ∧ after.reads = s.reads++log ∧ Accepted process log ∧
    (¬ (Accepted process (argumentAddresses esp) ∧ AcceptedString process s.memory (argument s.memory esp)) →
      res = toUint32 (-1) ∧ after = s.seen log)

theorem ends_or_endless (memory : Nat → UInt8) (msg : Nat) :
    (∃ len, Ends memory msg len) ∨ ∀ i, i < 4294967296 → memory (charAddress msg i) ≠ asciiTerm := by
  by_cases found : ∃ i, i < 4294967296 ∧ memory (charAddress msg i) = asciiTerm
  · classical
    have least := Nat.find_spec found
    refine .inl ⟨Nat.find found,least.1,least.2,fun i earlier nul => ?_⟩
    exact Nat.find_min found earlier ⟨Nat.lt_trans earlier least.1,nul⟩
  · exact .inr (fun i inside nul => found ⟨i,inside,nul⟩)

theorem stackItem_run (caller : Caller s task process) :
    taskCurrentGetStackItem 0 s = .ok (argument s.memory task.registers.esp,s.seen (argumentAddresses task.registers.esp)) := by
  have loaded : onKernel (loadAs asTask s.kernel.currentTask) s = .ok (task,s) :=
    Prog.focus_run (loadAs_run _ caller.running rfl)
  unfold taskCurrentGetStackItem
  rw [Prog.get_bind,if_neg caller.nonnull,Prog.bind_run loaded,Nat.mul_zero,Nat.add_zero]
  unfold readWord
  rw [Prog.bind_run (readByte_run _ _),Prog.bind_run (readByte_run _ _),Prog.bind_run (readByte_run _ _),
    Prog.bind_run (readByte_run _ _),Machine.seen_seen,Machine.seen_seen,Machine.seen_seen]
  rfl

theorem validatePointer_run (caller : Caller s task process) (addresses : List Nat) (ptr : Nat) :
    onKernel (taskCurrentValidatePointer ptr) (s.seen addresses) =
      .ok (processValidatePointer process ptr,s.seen addresses) := by
  have checked : taskCurrentValidatePointer ptr s.kernel = .ok (processValidatePointer process ptr,s.kernel) := by
    unfold taskCurrentValidatePointer
    rw [Prog.get_bind,Prog.bind_run (loadAs_run asTask caller.running rfl),
      Prog.bind_run (loadAs_run asProcess caller.owner rfl)]
    rfl
  exact Prog.focus_run (t := s.seen addresses) checked

theorem command_refuses (caller : Caller s task process)
    (refused : processValidatePointer process (argument s.memory task.registers.esp) = false) :
    isr80hCommandPrint s = .ok (toUint32 (-1),s.seen (argumentAddresses task.registers.esp)) := by
  unfold isr80hCommandPrint
  rw [Prog.bind_run (stackItem_run caller),Prog.bind_run (validatePointer_run caller _ _),refused]
  rfl

theorem command_prints (caller : Caller s task process)
    (accepted : processValidatePointer process (argument s.memory task.registers.esp) = true)
    (ends : Ends s.memory (argument s.memory task.registers.esp) len) :
    ∃ after, isr80hCommandPrint s = .ok (0,after) ∧
      after.reads = s.reads++(argumentAddresses task.registers.esp++
        (charAddresses (argument s.memory task.registers.esp) 0 (len+1)++
          charAddresses (argument s.memory task.registers.esp) 0 len)) := by
  obtain ⟨after,ran,reads,_⟩ := print_run (s := s.seen (argumentAddresses task.registers.esp)) ends
  refine ⟨after,?_,?_⟩
  · unfold isr80hCommandPrint
    rw [Prog.bind_run (stackItem_run caller),Prog.bind_run (validatePointer_run caller _ _),accepted,
      if_neg (by simp),Prog.bind_run ran]
    rfl
  · rw [reads,Machine.seen_reads,List.append_assoc]

theorem print_command {s : Machine} (caller : Caller s task process) (video : s.videoMem = 0xB8000) (inside : Inside s.screen)
    (accepted : processValidatePointer process (argument s.memory task.registers.esp) = true)
    (ends : Ends s.memory (argument s.memory task.registers.esp) len)
    (off : ∀ i < len, ¬ OfScreen (charAddress (argument s.memory task.registers.esp) i))
    (fits : Fits s.terminalRow s.terminalCol (charsAt s.memory (argument s.memory task.registers.esp) 0 len)) :
    ∃ t, isr80hCommandPrint s = .ok (0,t) ∧ Written s (charsAt s.memory (argument s.memory task.registers.esp) 0 len) t := by
  obtain ⟨t,ran,written⟩ := print_written (s := s.seen (argumentAddresses task.registers.esp)) video inside ends off fits
  refine ⟨t,?_,written.unseen⟩
  unfold isr80hCommandPrint
  rw [Prog.bind_run (stackItem_run caller),Prog.bind_run (validatePointer_run caller _ _),accepted,if_neg (by simp),Prog.bind_run ran]
  rfl

theorem command_endless (caller : Caller s task process)
    (accepted : processValidatePointer process (argument s.memory task.registers.esp) = true)
    (endless : ∀ i, i < 4294967296 → s.memory (charAddress (argument s.memory task.registers.esp) i) ≠ asciiTerm) :
    isr80hCommandPrint s = .error .unbounded := by
  unfold isr80hCommandPrint
  rw [Prog.bind_run (stackItem_run caller),Prog.bind_run (validatePointer_run caller _ _),accepted,if_neg (by simp)]
  exact Prog.bind_fault (print_endless (s := s.seen (argumentAddresses task.registers.esp)) endless)

theorem accepted_left {one two : List Nat} (accepted : Accepted process (one++two)) : Accepted process one :=
  fun a member => accepted a (List.mem_append_left _ member)

theorem accepted_right {one two : List Nat} (accepted : Accepted process (one++two)) : Accepted process two :=
  fun a member => accepted a (List.mem_append_right _ member)

theorem charAddresses_front (str first m n : Nat) :
    charAddresses str first (m+n) = charAddresses str first m++charAddresses str (first+m) n := by
  unfold charAddresses
  rw [← List.map_append,List.range'_append_1]

-- What the call reads of the caller's memory before it can return.
theorem safe_accepts (caller : Caller s task process) (safe : PrintSafe process s task.registers.esp) :
    Accepted process (argumentAddresses task.registers.esp) ∧
      (processValidatePointer process (argument s.memory task.registers.esp) = true →
        AcceptedString process s.memory (argument s.memory task.registers.esp)) := by
  obtain ⟨res,after,log,ran,reads,accepted,_⟩ := safe
  cases pointer : processValidatePointer process (argument s.memory task.registers.esp) with
  | false =>
    rw [command_refuses caller pointer] at ran
    cases ran
    obtain rfl := List.append_cancel_left reads
    exact ⟨accepted,fun holds => by cases holds⟩
  | true =>
    rcases ends_or_endless s.memory (argument s.memory task.registers.esp) with ⟨len,ends⟩ | endless
    · obtain ⟨printed,command,logged⟩ := command_prints caller pointer ends
      rw [command] at ran
      cases ran
      rw [logged] at reads
      obtain rfl := List.append_cancel_left reads
      exact ⟨accepted_left accepted,fun _ => ⟨len,ends,accepted_left (accepted_right accepted)⟩⟩
    · rw [command_endless caller pointer endless] at ran
      cases ran

-- Everything written so far and the string at msg stay on the screen, and the
-- string is none of the screen's own bytes. Behind the screen lie print's own
-- variables on the kernel's stack, and the kernel.
structure StaysOnScreen (s : Machine) (msg : Nat) : Prop where
  video : s.videoMem = 0xB8000
  inside : Inside s.screen
  off : ∀ len, Ends s.memory msg len → ∀ i < len, ¬ OfScreen (charAddress msg i)
  fits : ∀ len, Ends s.memory msg len → Fits s.terminalRow s.terminalCol (charsAt s.memory msg 0 len)

-- The call writes to no other byte than the screen's.
def WritesScreen (s : Machine) : Prop :=
  ∀ res after, isr80hCommandPrint s = .ok (res,after) → ∀ a, ¬ OfScreen a → after.memory a = s.memory a

theorem command_screen (caller : Caller s task process)
    (stays : processValidatePointer process (argument s.memory task.registers.esp) = true →
      StaysOnScreen s (argument s.memory task.registers.esp)) : WritesScreen s := by
  intro res after ran a off
  cases pointer : processValidatePointer process (argument s.memory task.registers.esp) with
  | false =>
    rw [command_refuses caller pointer] at ran
    cases ran
    rfl
  | true =>
    rcases ends_or_endless s.memory (argument s.memory task.registers.esp) with ⟨len,ends⟩ | endless
    · have kept := stays pointer
      obtain ⟨t,printed,written⟩ := print_command caller kept.video kept.inside pointer ends (kept.off len ends) (kept.fits len ends)
      cases printed.symm.trans ran
      exact written.memory a off
    · rw [command_endless caller pointer endless] at ran
      cases ran

theorem accepts_safe (caller : Caller s task process) (fetched : Accepted process (argumentAddresses task.registers.esp))
    (string : processValidatePointer process (argument s.memory task.registers.esp) = true →
      AcceptedString process s.memory (argument s.memory task.registers.esp)) : PrintSafe process s task.registers.esp := by
  cases pointer : processValidatePointer process (argument s.memory task.registers.esp) with
  | false => exact ⟨_,_,_,command_refuses caller pointer,rfl,fetched,fun _ => ⟨rfl,rfl⟩⟩
  | true =>
    obtain ⟨len,ends,accepted⟩ := string pointer
    obtain ⟨after,ran,reads⟩ := command_prints caller pointer ends
    refine ⟨0,after,_,ran,reads,?_,fun missing => absurd ⟨fetched,len,ends,accepted⟩ missing⟩
    intro a member
    rcases List.mem_append.mp member with inArgument | inString
    · exact fetched a inArgument
    · rcases List.mem_append.mp inString with scanned | printed
      · exact accepted a scanned
      · rw [charAddresses_front] at accepted
        exact accepted_left accepted a printed

-- A text that stays on the screen leaves the call's own code and variables as
-- they are, and then what it reads is settled by the argument and the string.
theorem print_reads_accepted (caller : Caller s task process)
    (stays : processValidatePointer process (argument s.memory task.registers.esp) = true →
      StaysOnScreen s (argument s.memory task.registers.esp)) :
    WritesScreen s ∧ (PrintSafe process s task.registers.esp ↔
      Accepted process (argumentAddresses task.registers.esp) ∧
        (processValidatePointer process (argument s.memory task.registers.esp) = true →
          AcceptedString process s.memory (argument s.memory task.registers.esp))) :=
  ⟨command_screen caller stays,safe_accepts caller,fun accepted => accepts_safe caller accepted.1 accepted.2⟩

def sampleProcess : NutsOS.Process :=
  ⟨0,[],4096,16777216,0x400000,16781312,0x3FB000,0x4000,1⟩

def sampleTask : NutsOS.Task := {zeroTask with registers := {zeroRegisters with esp := 0x3FEFF0}, process := 8192}

def sampleMachine (memory : Nat → UInt8) : Machine where
  kernel := (({bootKernel bootEntries noDisk with currentTask := 4096}).place 4096 (.task sampleTask)).place 8192
    (.process sampleProcess)
  memory := memory
  videoMem := 0xB8000
  terminalRow := 0
  terminalCol := 0
  reads := []
  cells := []

theorem sample_caller (memory : Nat → UInt8) : Caller (sampleMachine memory) sampleTask sampleProcess :=
  ⟨Nat.succ_ne_zero 4095,rfl,rfl⟩

-- "Hi\n!" on the stack, and esp at a pointer to it.
def greetingByte (a : Nat) : UInt8 :=
  ([(0x3FEFF1,0xE0),(0x3FEFF2,0x3F),(0x3FE000,72),(0x3FE001,105),(0x3FE002,10),(0x3FE003,33)].lookup a).getD 0

theorem greeting_ends (ends : Ends greetingByte 0x3FE000 len) : len = 4 := by
  have short : ¬ 4 < len := fun more => ends.chars 4 more (by decide)
  have long : ¬ len < 4 := by
    intro less
    have nul := ends.nul
    rcases (by omega : len = 0 ∨ len = 1 ∨ len = 2 ∨ len = 3) with rfl | rfl | rfl | rfl <;> exact absurd nul (by decide)
  omega

theorem greeting_printed : WritesScreen (sampleMachine greetingByte) ∧ PrintSafe sampleProcess (sampleMachine greetingByte) 0x3FEFF0 := by
  have place : argument greetingByte 0x3FEFF0 = 0x3FE000 := by decide
  obtain ⟨screen,safe⟩ := print_reads_accepted (sample_caller greetingByte) (fun _ => by
    rw [show argument (sampleMachine greetingByte).memory sampleTask.registers.esp = 0x3FE000 from place]
    refine ⟨rfl,⟨fun _ bad => (List.not_mem_nil bad).elim,by decide,by decide⟩,?_,?_⟩
    · intro len ends i less
      rw [greeting_ends ends] at less
      unfold OfScreen vgaWidth vgaHeight
      rcases (by omega : i = 0 ∨ i = 1 ∨ i = 2 ∨ i = 3) with rfl | rfl | rfl | rfl <;> decide
    · intro len ends
      rw [greeting_ends ends]
      intro i c found other
      rcases i with _ | _ | _ | _ | i
      · decide
      · decide
      · decide
      · decide
      · cases found)
  refine ⟨screen,safe.mpr ⟨by unfold Accepted; decide,fun _ => ?_⟩⟩
  refine ⟨4,⟨by decide,by decide,?_⟩,by unfold Accepted; decide⟩
  intro i less
  rcases (by omega : i = 0 ∨ i = 1 ∨ i = 2 ∨ i = 3) with rfl | rfl | rfl | rfl <;> decide

-- esp points into the stack, at the pointer 0x400000.
def imageByte (last : UInt8) (a : Nat) : UInt8 := if a = 0x3FEFF2 then 0x40 else if a = 0x400000 then last else 0

theorem unterminated_string_read : ¬ PrintSafe sampleProcess (sampleMachine (imageByte 65)) 0x3FEFF0 := by
  intro safe
  obtain ⟨len,ends,accepted⟩ := (safe_accepts (sample_caller (imageByte 65)) safe).2 (by decide)
  have outside : processValidatePointer sampleProcess 0x400001 = false := by decide
  cases len with
  | zero => exact absurd ends.nul (by decide)
  | succ len =>
    have reached : 0x400001 ∈ charAddresses (argument (imageByte 65) 0x3FEFF0) 0 (len+1+1) := by
      refine List.mem_map.mpr ⟨1,?_,by decide⟩
      rw [List.mem_range'_1]
      omega
    rw [accepted 0x400001 reached] at outside
    cases outside

end NutsOS.Isr80h
