import NutsOS.Lib.Prog
import NutsOS.Task.SavedState
import NutsOS.Disk.Stream

-- The path of int 0x80: idt.asm, idt.c and isr80h.c.
namespace NutsOS.Idt
open Ram X86 Tasks

-- What the C code of a system call works on.
structure Statics where
  mem : Memory
  currentTask : Word

abbrev StaticsProg := Prog Fault Statics

def taskCurrentSaveState (frame : Word) : StaticsProg Unit := do
  let current := (← Prog.get).currentTask
  if current = 0#32 then Prog.fault .panic else
  Prog.modify (fun s => {s with mem := taskSaveState current frame s.mem})

def int80hCommandMax : Nat := 2

-- The table of the registered commands.
abbrev Isr80hCommands := Nat → Option (Word → StaticsProg Word)

def isr80hHandleCommand (commands : Isr80hCommands) (command frame : Word) : StaticsProg Word := do
  if command.toInt < 0 ∨ command.toInt ≥ int80hCommandMax then return 0#32
  match commands command.toNat with
  | none => return 0#32
  | some commandFunc => commandFunc frame

def isr80hHandler (commands : Isr80hCommands) (command frame : Word) : StaticsProg Word := do
  taskCurrentSaveState frame
  isr80hHandleCommand commands command frame

def isr80hCommandSum (_ : Word) : StaticsProg Word := pure 10#32

-- isr80h_wrapper up to the call of the handler, with the two arguments on top.
def wrapperEntry (c : Cpu) : Cpu :=
  let c := c.pushad
  let c := c.push c.esp
  c.push c.eax

-- From the return of the handler to iretd. tmp_res holds the result meanwhile.
def wrapperExit (c : Cpu) : Cpu :=
  let tmpRes := c.eax
  let c := c.discard 8#32
  let c := c.popad
  {c with eax := tmpRes}

def isr80hWrapper (call : Cpu → Cpu) (c : Cpu) : Cpu := (wrapperExit (call (wrapperEntry c))).iretd

-- A C function of two arguments called under cdecl. It may use the stack
-- below its arguments and the arguments themselves.
structure Cdecl (f : Word → Word → StaticsProg Word) (current : Word) (c after : Cpu) : Prop where
  returns : ∀ result s, f (read c.mem c.esp) (read c.mem (c.esp+4#32)) ⟨c.mem,current⟩ = .ok (result,s) →
    after.eax = result ∧ ∀ x, c.esp.toNat+8 ≤ x.toNat → after.mem x = s.mem x
  esp : after.esp = c.esp
  ebx : after.ebx = c.ebx
  esi : after.esi = c.esi
  edi : after.edi = c.edi
  ebp : after.ebp = c.ebp
  segments : after.cs = c.cs ∧ after.ss = c.ss ∧ after.dataSegments = c.dataSegments

-- The frame of a trap, with what pushad stores for esp.
def frameOf (user : Cpu) (reserved : Word) : InterruptFrame :=
  ⟨user.edi,user.esi,user.ebp,reserved,user.ebx,user.edx,user.ecx,user.eax,user.eip,user.cs.setWidth 32,user.eflags,user.esp,
    user.ss.setWidth 32⟩

-- tss.esp0, tss.ss0 and the kernel's code segment.
def kernelStack : Word := 0x00600000#32
def kernelData : Selector := 16#16
def kernelCode : Selector := 8#16

def trapped80 (handler : Word) (user : Cpu) : Cpu := user.trap handler kernelCode kernelData kernelStack

def frameAddress : Word := 0x005FFFCC#32

theorem wrapperEntry_stacked (stacked : Stacked c words) (bound : words.length < 1073741000) :
    Stacked (wrapperEntry c) (c.eax::(c.esp-32#32)::(general c++words)) := by
  have one := (stacked.pushad bound).push (by simp [general]; omega) c.pushad.esp
  have two : Stacked (wrapperEntry c) ((c.pushad.push c.pushad.esp).eax::c.pushad.esp::(general c++words)) :=
    one.push (by simp [general]; omega) (c.pushad.push c.pushad.esp).eax
  rw [Cpu.push_eax,pushad_eax,pushad_esp] at two
  exact two

theorem wrapperEntry_esp (c : Cpu) : (wrapperEntry c).esp = c.esp-40#32 := by
  show c.pushad.esp-4#32-4#32 = _
  rw [pushad_esp]
  bv_omega

theorem entry_stacked (handler : Word) (user : Cpu) :
    Stacked (wrapperEntry (trapped80 handler user)) (user.eax::frameAddress::(frameOf user 0x005FFFEC#32).words) ∧
      (wrapperEntry (trapped80 handler user)).esp = 0x005FFFC4#32 := by
  have trap : Stacked (trapped80 handler user) (trapped user) := Stacked.trap user handler kernelCode kernelData kernelStack
  have entry := wrapperEntry_stacked trap (by simp [trapped])
  have saved := trap_general user handler kernelCode kernelData kernelStack
  have esp := trap_esp user handler kernelCode kernelData kernelStack
  have eax := trap_eax user handler kernelCode kernelData kernelStack
  have depth := wrapperEntry_esp (trapped80 handler user)
  unfold trapped80 at *
  have stack : kernelStack-20#32 = 0x005FFFEC#32 := by decide
  have top : (0x005FFFEC#32 : Word)-32#32 = frameAddress := by decide
  have lower : (0x005FFFEC#32 : Word)-40#32 = 0x005FFFC4#32 := by decide
  rw [stack] at esp saved
  rw [eax,esp,saved,top] at entry
  rw [esp,lower] at depth
  exact ⟨entry,depth⟩

-- Commands return, and do not write the frame.
def KeepFrame (commands : Isr80hCommands) : Prop :=
  ∀ command f, commands command = some f → ∀ s, ∃ result after, f frameAddress s = .ok (result,after) ∧
    ∀ i, i < 52 → after.mem (frameAddress+BitVec.ofNat 32 i) = s.mem (frameAddress+BitVec.ofNat 32 i)

theorem handleCommand_run (keeps : KeepFrame commands) (command : Word) (s : Statics) :
    ∃ result after, isr80hHandleCommand commands command frameAddress s = .ok (result,after) ∧
      ∀ i, i < 52 → after.mem (frameAddress+BitVec.ofNat 32 i) = s.mem (frameAddress+BitVec.ofNat 32 i) := by
  unfold isr80hHandleCommand
  by_cases invalid : command.toInt < 0 ∨ command.toInt ≥ int80hCommandMax
  · rw [if_pos invalid]
    exact ⟨_,s,rfl,fun _ _ => rfl⟩
  · rw [if_neg invalid]
    cases registered : commands command.toNat with
    | none => exact ⟨_,s,rfl,fun _ _ => rfl⟩
    | some f => exact keeps _ f registered s

structure InPool (task : Word) : Prop where
  low : 0x01000000 ≤ task.toNat
  high : task.toNat+64 ≤ 0x21000000

theorem InPool.apart (pool : InPool task) : Apart (task+taskRegisters) 48 frameAddress 52 := by
  obtain ⟨low,high⟩ := pool
  unfold Apart taskRegisters frameAddress
  bv_omega

theorem InPool.nonnull (pool : InPool task) : task ≠ 0#32 := by
  have low := pool.low
  intro null
  rw [null] at low
  exact absurd low (by decide)

section
variable {user : Cpu}

theorem entry_frame (handler : Word) (user : Cpu) :
    Block (wrapperEntry (trapped80 handler user)).mem frameAddress (frameOf user 0x005FFFEC#32).words := by
  obtain ⟨stacked,depth⟩ := entry_stacked handler user
  have block := stacked.2.2
  have above : (0x005FFFC4#32 : Word)+4#32+4#32 = frameAddress := by decide
  rw [depth,above] at block
  exact block

theorem handler_run (keeps : KeepFrame commands) (pool : InPool task) (handler : Word) (user : Cpu) :
    ∃ saved result after,
      taskCurrentSaveState frameAddress ⟨(wrapperEntry (trapped80 handler user)).mem,task⟩ = .ok ((),saved) ∧
      Block saved.mem (task+taskRegisters) (frameOf user 0x005FFFEC#32).registers ∧
      isr80hHandleCommand commands user.eax frameAddress saved = .ok (result,after) ∧
      isr80hHandler commands user.eax frameAddress ⟨(wrapperEntry (trapped80 handler user)).mem,task⟩ = .ok (result,after) ∧
      Block after.mem frameAddress (frameOf user 0x005FFFEC#32).words := by
  have frame := entry_frame handler user
  generalize (wrapperEntry (trapped80 handler user)).mem = mem at frame ⊢
  have saves : taskCurrentSaveState frameAddress ⟨mem,task⟩ = .ok ((),⟨taskSaveState task frameAddress mem,task⟩) := by
    unfold taskCurrentSaveState
    rw [Prog.get_bind]
    exact congrFun (if_neg pool.nonnull) _
  obtain ⟨result,after,handled,kept⟩ := handleCommand_run keeps user.eax ⟨taskSaveState task frameAddress mem,task⟩
  refine ⟨_,result,after,saves,taskSaveState_registers frame pool.apart,handled,?_,
    (taskSaveState_frame frame pool.apart).congr kept⟩
  unfold isr80hHandler
  rw [Prog.bind_run saves]
  exact handled

theorem wrapperExit_run {c : Cpu} (depth : c.esp = 0x005FFFC4#32)
    (frame : Block c.mem frameAddress (frameOf user 0x005FFFEC#32).words) :
    wrapperExit c = {c with
      edi := user.edi, esi := user.esi, ebp := user.ebp, ebx := user.ebx, edx := user.edx, ecx := user.ecx,
      esp := 0x005FFFEC#32} ∧ Block c.mem 0x005FFFEC#32 (trapped user) := by
  have up : (0x005FFFC4#32 : Word)+8#32 = frameAddress := by decide
  have next : frameAddress+32#32 = 0x005FFFEC#32 := by decide
  have stacked : Stacked (c.discard 8#32) (general {user with esp := 0x005FFFEC#32}++trapped user) := by
    show Block c.mem (c.esp+8#32) _
    rw [depth,up]
    exact frame
  have rest := popad_rest stacked
  have popped := popad_stacked stacked
  have top : (c.discard 8#32).esp+32#32 = 0x005FFFEC#32 := by
    show c.esp+8#32+32#32 = _
    rw [depth,up,next]
  rw [top] at popped
  refine ⟨?_,?_⟩
  · unfold wrapperExit
    dsimp only
    rw [popped]
    rfl
  · rw [popped] at rest
    exact rest

theorem wrapperEntry_dataSegments (c : Cpu) : (wrapperEntry c).dataSegments = c.dataSegments := by
  unfold wrapperEntry
  dsimp only
  rw [Cpu.push_dataSegments,Cpu.push_dataSegments,pushad_dataSegments]

theorem entry_dataSegments (handler : Word) (user : Cpu) :
    (wrapperEntry (trapped80 handler user)).dataSegments = user.dataSegments := by
  unfold trapped80
  rw [wrapperEntry_dataSegments,trap_dataSegments]

theorem syscall_returns (ring : user.cs.setWidth 2 = 3#2) (pool : InPool task) (keeps : KeepFrame commands) (handler : Word)
    (call : Cpu → Cpu) (cdecl : Cdecl (isr80hHandler commands) task (wrapperEntry (trapped80 handler user))
      (call (wrapperEntry (trapped80 handler user)))) :
    ∃ saved result after,
      taskCurrentSaveState frameAddress ⟨(wrapperEntry (trapped80 handler user)).mem,task⟩ = .ok ((),saved) ∧
      Block saved.mem (task+taskRegisters) (frameOf user 0x005FFFEC#32).registers ∧
      isr80hHandleCommand commands user.eax frameAddress saved = .ok (result,after) ∧
      (wrapperExit (call (wrapperEntry (trapped80 handler user)))).esp = (trapped80 handler user).esp ∧
      ∃ mem, isr80hWrapper call (trapped80 handler user) = {user with eax := result, mem := mem} := by
  obtain ⟨saved,result,after,saves,registers,handled,ran,frame⟩ := handler_run keeps pool handler user
  obtain ⟨stacked,depth⟩ := entry_stacked handler user
  have command : read (wrapperEntry (trapped80 handler user)).mem (wrapperEntry (trapped80 handler user)).esp = user.eax := stacked.1
  have argument : read (wrapperEntry (trapped80 handler user)).mem ((wrapperEntry (trapped80 handler user)).esp+4#32) =
      frameAddress := stacked.2.1
  obtain ⟨eax,memory⟩ := cdecl.returns result after (by rw [command,argument]; exact ran)
  have segments := cdecl.segments.2.2
  rw [entry_dataSegments] at segments
  have back := cdecl.esp
  rw [depth] at back memory
  simp only [Cpu.dataSegments,List.cons.injEq,and_true] at segments
  obtain ⟨ds,es,fs,gs⟩ := segments
  unfold isr80hWrapper
  generalize call (wrapperEntry (trapped80 handler user)) = returned at *
  have kept : Block returned.mem frameAddress (frameOf user 0x005FFFEC#32).words := by
    apply frame.congr
    intro i inside
    have bound : i < 52 := inside
    have offset := offset_toNat (n := i) (by omega)
    apply memory
    unfold frameAddress
    bv_omega
  obtain ⟨exit,rest⟩ := wrapperExit_run back kept
  have stack := trap_esp user handler kernelCode kernelData kernelStack
  have level : kernelStack-20#32 = 0x005FFFEC#32 := by decide
  have outer : (user.cs.setWidth 32 : Word).setWidth 2 = 3#2 := by
    rw [BitVec.setWidth_setWidth_of_le _ (by decide)]
    exact ring
  refine ⟨saved,result,after,saves,registers,handled,?_,returned.mem,?_⟩
  · rw [exit]
    exact (stack.trans level).symm
  · rw [exit]
    have resumed := iretd_outer (c := {returned with
      edi := user.edi, esi := user.esi, ebp := user.ebp, ebx := user.ebx, edx := user.edx, ecx := user.ecx,
      esp := 0x005FFFEC#32}) rest outer
    rw [resumed]
    simp only [ds,es,fs,gs,eax]
    simp

end

def sampleUser (eflags : Word) : Cpu :=
  ⟨1#32,2#32,3#32,0x003FEFF0#32,4#32,5#32,6#32,0#32,0x00400010#32,eflags,27#16,35#16,35#16,35#16,35#16,35#16,fun _ => 0#8⟩

def sumCommands (command : Nat) : Option (Word → StaticsProg Word) := if command = 0 then some isr80hCommandSum else none

def callHandler (commands : Isr80hCommands) (task : Word) (c : Cpu) : Cpu :=
  match isr80hHandler commands (read c.mem c.esp) (read c.mem (c.esp+4#32)) ⟨c.mem,task⟩ with
  | .error _ => c
  | .ok (result,s) => {c with eax := result, mem := s.mem}

theorem callHandler_cdecl (commands : Isr80hCommands) (task : Word) (c : Cpu) :
    Cdecl (isr80hHandler commands) task c (callHandler commands task c) := by
  unfold callHandler
  cases ran : isr80hHandler commands (read c.mem c.esp) (read c.mem (c.esp+4#32)) ⟨c.mem,task⟩ with
  | error e =>
    refine ⟨fun value s same => ?_,rfl,rfl,rfl,rfl,rfl,rfl,rfl,rfl⟩
    rw [ran] at same
    cases same
  | ok result =>
    refine ⟨fun value s same => ?_,rfl,rfl,rfl,rfl,rfl,rfl,rfl,rfl⟩
    rw [ran] at same
    cases same
    exact ⟨rfl,fun _ _ => rfl⟩

theorem sumCommands_keep : KeepFrame sumCommands := by
  intro command f registered s
  unfold sumCommands at registered
  split at registered
  · cases registered
    exact ⟨10#32,s,rfl,fun _ _ => rfl⟩
  · cases registered

theorem sum_returns : ∃ mem,
    isr80hWrapper (callHandler sumCommands 0x01000000#32) (trapped80 0x00100000#32 (sampleUser 0x202#32)) =
      {sampleUser 0x202#32 with eax := 10#32, mem := mem} := by
  obtain ⟨saved,result,after,_,_,handled,_,mem,returned⟩ := syscall_returns
    (show (sampleUser 0x202#32).cs.setWidth 2 = 3#2 by decide)
    ⟨by decide,by decide⟩ sumCommands_keep 0x00100000#32 (callHandler sumCommands 0x01000000#32) (callHandler_cdecl _ _ _)
  cases handled
  exact ⟨mem,returned⟩

end NutsOS.Idt
