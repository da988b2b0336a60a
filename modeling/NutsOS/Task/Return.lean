import NutsOS.Idt.Syscall

-- task.asm: the return to ring 3 from the registers of a task.
namespace NutsOS.Tasks
open Ram X86

def restoreGeneralPurposeRegisters (c : Cpu) : Cpu :=
  let c := {c with ebx := read c.mem (c.esp+4#32)}
  let c := {c with edi := read c.mem c.ebx}
  let c := {c with esi := read c.mem (c.ebx+4#32)}
  let c := {c with ebp := read c.mem (c.ebx+8#32)}
  let c := {c with edx := read c.mem (c.ebx+16#32)}
  let c := {c with ecx := read c.mem (c.ebx+20#32)}
  let c := {c with eax := read c.mem (c.ebx+24#32)}
  let c := {c with ebx := read c.mem (c.ebx+12#32)}
  c.ret

-- pushf, pop eax, or eax and push eax. The flags that the arithmetic sets are
-- not looked at again.
def pushInterruptFlags (c : Cpu) : Cpu :=
  let c := c.pushf
  let c := {c with eax := c.top}
  let c := c.discard 4#32
  let c := {c with eax := c.eax ||| 0x200#32}
  c.push c.eax

def loadDataSegments (c : Cpu) (ax : Selector) : Cpu :=
  {c with eax := c.eax.extractLsb' 16 16 ++ ax, ds := ax, es := ax, fs := ax, gs := ax}

@[simp] theorem loadDataSegments_ebx (c : Cpu) (ax : Selector) : (loadDataSegments c ax).ebx = c.ebx := rfl

-- push dword [ebx+offset]
def pushField (c : Cpu) (offset : Word) : Cpu := c.push (read c.mem (c.ebx+offset))

-- mov ebp,esp and mov ebx,[ebp+4]
def loadArgument (c : Cpu) : Cpu :=
  let c := {c with ebp := c.esp}
  {c with ebx := read c.mem (c.ebp+4#32)}

def taskReturnFrame (c : Cpu) : Cpu :=
  let c := loadArgument c
  let c := pushField c 44#32
  let c := pushField c 40#32
  let c := pushInterruptFlags c
  let c := pushField c 32#32
  pushField c 28#32

def taskReturn (returnAddress : Word) (c : Cpu) : Cpu :=
  let c := taskReturnFrame c
  let c := loadDataSegments c ((read c.mem (c.ebx+44#32)).setWidth 16)
  let c := c.push c.ebx
  let c := restoreGeneralPurposeRegisters (c.callTo returnAddress)
  let c := c.discard 4#32
  c.iretd

-- Ring 3 with the context of the frame; interrupts are on.
structure Resumes (frame : InterruptFrame) (c : Cpu) : Prop where
  ip : c.eip = frame.ip
  cs : c.cs = frame.cs.setWidth 16
  flags : c.eflags = frame.flags ||| 0x200#32
  esp : c.esp = frame.esp
  ss : c.ss = frame.ss.setWidth 16
  edi : c.edi = frame.edi
  esi : c.esi = frame.esi
  ebp : c.ebp = frame.ebp
  ebx : c.ebx = frame.ebx
  edx : c.edx = frame.edx
  ecx : c.ecx = frame.ecx
  eax : c.eax = frame.eax

section
variable {frame : InterruptFrame} {registers base : Word}

-- The stack grows by the words below base, away from the registers that ebx points to.
structure Returning (frame : InterruptFrame) (registers base : Word) (c : Cpu) (words : List Word) : Prop where
  stacked : Stacked c words
  depth : c.esp = base-BitVec.ofNat 32 (4*words.length)
  held : Block c.mem registers frame.registers
  pointer : c.ebx = registers

theorem below_apart {z : Word} (small : z.toNat ≤ 24) (apart : Apart (base-28#32) 36 registers 48) :
    Apart (base-z-4#32) 4 registers 48 := by
  unfold Apart at *
  bv_omega

theorem Returning.push (returning : Returning frame registers base c words) (room : words.length ≤ 6)
    (apart : Apart (base-28#32) 36 registers 48) (value : Word) : Returning frame registers base (c.push value) (value::words) := by
  have depth : c.esp-4#32 = base-BitVec.ofNat 32 (4*(value::words).length) := by
    rw [returning.depth,List.length_cons,Nat.mul_succ,BitVec.ofNat_add]
    bv_omega
  have small : (BitVec.ofNat 32 (4*words.length)).toNat ≤ 24 := by
    rw [offset_toNat (by omega)]
    omega
  have clear : Apart (c.esp-4#32) 4 registers (4*frame.registers.length) := by
    rw [returning.depth]
    exact below_apart small apart
  exact ⟨returning.stacked.push (by omega) value,depth,returning.held.write (by simp [InterruptFrame.registers]) clear value,
    returning.pointer⟩

theorem Returning.discard (returning : Returning frame registers base c (word::words)) :
    Returning frame registers base (c.discard 4#32) words := by
  refine ⟨returning.stacked.2,?_,returning.held,returning.pointer⟩
  show c.esp+4#32 = _
  rw [returning.depth,List.length_cons,Nat.mul_succ,BitVec.ofNat_add]
  bv_omega

structure Fields (frame : InterruptFrame) (mem : Memory) (registers : Word) : Prop where
  edi : read mem registers = frame.edi
  esi : read mem (registers+4#32) = frame.esi
  ebp : read mem (registers+8#32) = frame.ebp
  ebx : read mem (registers+12#32) = frame.ebx
  edx : read mem (registers+16#32) = frame.edx
  ecx : read mem (registers+20#32) = frame.ecx
  eax : read mem (registers+24#32) = frame.eax
  ip : read mem (registers+28#32) = frame.ip
  cs : read mem (registers+32#32) = frame.cs
  esp : read mem (registers+40#32) = frame.esp
  ss : read mem (registers+44#32) = frame.ss

theorem fields_of_block (held : Block mem registers frame.registers) : Fields frame mem registers := by
  obtain ⟨edi,esi,ebp,ebx,edx,ecx,eax,ip,cs,_,esp,ss,_⟩ := held
  simp only [BitVec.add_assoc,BitVec.reduceAdd] at esi ebp ebx edx ecx eax ip cs esp ss
  exact ⟨edi,esi,ebp,ebx,edx,ecx,eax,ip,cs,esp,ss⟩

theorem pushField_returning (returning : Returning frame registers base c words) (room : words.length ≤ 6)
    (apart : Apart (base-28#32) 36 registers 48) (field : read c.mem (registers+offset) = value) :
    Returning frame registers base (pushField c offset) (value::words) := by
  unfold pushField
  rw [returning.pointer,field]
  exact returning.push room apart value

-- What the processor's own flags become on the way through the stack.
def returnFlags (flags : Word) : Word := (flags &&& 0x00FCFFFF#32) ||| 0x200#32

theorem pushInterruptFlags_returning (returning : Returning frame registers base c words) (room : words.length ≤ 6)
    (apart : Apart (base-28#32) 36 registers 48) :
    Returning frame registers base (pushInterruptFlags c) (returnFlags c.eflags::words) := by
  have pushed := returning.push room apart (c.eflags &&& 0x00FCFFFF#32)
  have top : c.pushf.top = c.eflags &&& 0x00FCFFFF#32 := pushed.stacked.1
  have popped := pushed.discard
  have again := (show Returning frame registers base {c.pushf.discard 4#32 with eax := returnFlags c.eflags} words from
    ⟨popped.stacked,popped.depth,popped.held,popped.pointer⟩).push room apart (returnFlags c.eflags)
  unfold pushInterruptFlags
  dsimp only
  rw [top]
  exact again

theorem taskReturnFrame_returning (held : Block c.mem registers frame.registers) (argument : read c.mem (c.esp+4#32) = registers)
    (apart : Apart (c.esp-28#32) 36 registers 48) :
    Returning frame registers c.esp (taskReturnFrame c) [frame.ip,frame.cs,returnFlags c.eflags,frame.esp,frame.ss] := by
  have start : Returning frame registers c.esp (loadArgument c) [] := ⟨.empty _,by simp [loadArgument],held,argument⟩
  have one := pushField_returning start (by simp) apart (fields_of_block start.held).ss
  have two := pushField_returning one (by simp) apart (fields_of_block one.held).esp
  have three := pushInterruptFlags_returning two (by simp) apart
  have four := pushField_returning three (by simp) apart (fields_of_block three.held).cs
  exact pushField_returning four (by simp) apart (fields_of_block four.held).ip

theorem restore_run (returning : Returning frame registers base c (returnAddress::registers::words)) :
    restoreGeneralPurposeRegisters c = {c with
      edi := frame.edi, esi := frame.esi, ebp := frame.ebp, edx := frame.edx, ecx := frame.ecx, eax := frame.eax,
      ebx := frame.ebx, eip := returnAddress, esp := c.esp+4#32} := by
  have argument : read c.mem (c.esp+4#32) = registers := returning.stacked.2.1
  have top : read c.mem c.esp = returnAddress := returning.stacked.1
  have fields := fields_of_block returning.held
  simp only [restoreGeneralPurposeRegisters,Cpu.ret,Cpu.top,argument,top,fields.edi,fields.esi,fields.ebp,fields.ebx,fields.edx,
    fields.ecx,fields.eax]

theorem taskReturn_run (held : Block c.mem registers frame.registers) (argument : read c.mem (c.esp+4#32) = registers)
    (apart : Apart (c.esp-28#32) 36 registers 48) (ring : frame.cs.setWidth 2 = 3#2) (returnAddress : Word) :
    ∃ stack, taskReturn returnAddress c = {c with
      edi := frame.edi, esi := frame.esi, ebp := frame.ebp, edx := frame.edx, ecx := frame.ecx, eax := frame.eax,
      ebx := frame.ebx, eip := frame.ip, cs := frame.cs.setWidth 16, eflags := returnFlags c.eflags, esp := frame.esp,
      ss := frame.ss.setWidth 16, ds := frame.ss.setWidth 16, es := frame.ss.setWidth 16, fs := frame.ss.setWidth 16,
      gs := frame.ss.setWidth 16, mem := stack} := by
  have one := taskReturnFrame_returning held argument apart
  have ss := (fields_of_block one.held).ss
  have pointer := one.pointer
  generalize same : taskReturnFrame c = framed at one ss pointer
  have two : Returning frame registers c.esp (loadDataSegments framed (frame.ss.setWidth 16)) _ :=
    ⟨one.stacked,one.depth,one.held,one.pointer⟩
  have three := two.push (by simp) apart registers
  have four := three.push (by simp) apart returnAddress
  have restored := restore_run four
  have last : Stacked ((restoreGeneralPurposeRegisters
      (((loadDataSegments framed (frame.ss.setWidth 16)).push registers).callTo returnAddress)).discard 4#32)
      [frame.ip,frame.cs,returnFlags c.eflags,frame.esp,frame.ss] := by
    rw [show Cpu.callTo _ returnAddress = Cpu.push _ returnAddress from rfl,restored]
    exact four.stacked.2.2
  have returned : taskReturn returnAddress c = ((restoreGeneralPurposeRegisters
      (((loadDataSegments framed (frame.ss.setWidth 16)).push registers).callTo returnAddress)).discard 4#32).iretd := by
    unfold taskReturn
    simp only [same,loadDataSegments_ebx,pointer,ss]
  rw [returned,iretd_outer last ring,show Cpu.callTo _ returnAddress = Cpu.push _ returnAddress from rfl,restored]
  exact ⟨_,rfl⟩

-- The task's registers, saved from a frame and not touched since.
structure SavedTask (c : Cpu) (task frameAddress : Word) (frame : InterruptFrame) : Prop where
  saved : ∃ mem, Block mem frameAddress frame.words ∧ Apart (task+taskRegisters) 48 frameAddress 52 ∧
    ∀ i, i < 48 → c.mem (task+taskRegisters+BitVec.ofNat 32 i) =
      taskSaveState task frameAddress mem (task+taskRegisters+BitVec.ofNat 32 i)
  argument : read c.mem (c.esp+4#32) = task+taskRegisters
  stack : Apart (c.esp-28#32) 36 (task+taskRegisters) 48

theorem SavedTask.block (task : SavedTask c t f frame) : Block c.mem (t+taskRegisters) frame.registers := by
  obtain ⟨mem,held,apart,kept⟩ := task.saved
  exact (taskSaveState_registers held apart).congr kept

theorem task_return_resumes (task : SavedTask c t f frame) (ring : frame.cs.setWidth 2 = 3#2) (returnAddress : Word) :
    Resumes frame (taskReturn returnAddress c) ↔ returnFlags c.eflags = frame.flags ||| 0x200#32 := by
  obtain ⟨stack,returned⟩ := taskReturn_run task.block task.argument task.stack ring returnAddress
  rw [returned]
  constructor
  · intro resumes
    exact resumes.flags
  · intro flags
    exact ⟨rfl,rfl,flags,rfl,rfl,rfl,rfl,rfl,rfl,rfl,rfl,rfl⟩

end

-- The kernel about to return to a task that it saved in a system call.
def savedMemory (user : Cpu) : Memory :=
  taskSaveState 0x01000000#32 Idt.frameAddress (Idt.wrapperEntry (Idt.trapped80 0#32 user)).mem

def returningKernel (user : Cpu) (eflags : Word) : Cpu :=
  ({user with esp := 0x005FF000#32, eflags := eflags, mem := savedMemory user}.push 0x01000004#32).callTo 0x00100000#32

theorem returningKernel_saved (user : Cpu) (eflags : Word) :
    SavedTask (returningKernel user eflags) 0x01000000#32 Idt.frameAddress (Idt.frameOf user 0x005FFFEC#32) := by
  have esp : (returningKernel user eflags).esp = 0x005FEFF8#32 := by
    show (0x005FF000#32 : Word)-4#32-4#32 = _
    decide
  refine ⟨⟨_,Idt.entry_frame 0#32 user,Idt.InPool.apart ⟨by decide,by decide⟩,?_⟩,?_,?_⟩
  · intro i inside
    have offset := offset_toNat (n := i) (by omega)
    have high : Apart (0x005FF000#32-4#32) 4 ((0x01000000#32 : Word)+taskRegisters+BitVec.ofNat 32 i) 1 := by
      unfold Apart taskRegisters
      bv_omega
    have low : Apart (0x005FF000#32-4#32-4#32) 4 ((0x01000000#32 : Word)+taskRegisters+BitVec.ofNat 32 i) 1 := by
      unfold Apart taskRegisters
      bv_omega
    exact (write_other low _ _).trans (write_other high _ _)
  · have pushed : Stacked (returningKernel user eflags) [0x00100000#32,0x01000004#32] :=
      (Stacked.push (Stacked.push (.empty _) (by simp) _) (by simp) _)
    exact pushed.2.1
  · rw [esp]
    unfold Apart taskRegisters
    decide

theorem equal_flags_resumed : Resumes (Idt.frameOf (Idt.sampleUser 0x202#32) 0x005FFFEC#32)
    (taskReturn 0#32 (returningKernel (Idt.sampleUser 0x202#32) 0x202#32)) :=
  (task_return_resumes (returningKernel_saved (Idt.sampleUser 0x202#32) 0x202#32) (by decide) 0#32).mpr (by decide)

theorem carry_flag_lost :
    SavedTask (returningKernel (Idt.sampleUser 0x203#32) 0x202#32) 0x01000000#32 Idt.frameAddress
      (Idt.frameOf (Idt.sampleUser 0x203#32) 0x005FFFEC#32) ∧
    ¬ Resumes (Idt.frameOf (Idt.sampleUser 0x203#32) 0x005FFFEC#32)
      (taskReturn 0#32 (returningKernel (Idt.sampleUser 0x203#32) 0x202#32)) := by
  have task := returningKernel_saved (Idt.sampleUser 0x203#32) 0x202#32
  refine ⟨task,fun resumes => ?_⟩
  obtain ⟨stack,returned⟩ := taskReturn_run task.block task.argument task.stack (by decide) 0#32
  have flags := resumes.flags
  rw [returned] at flags
  have wrong : returnFlags 0x202#32 ≠ 0x203#32 ||| 0x200#32 := by decide
  exact wrong flags

end NutsOS.Tasks
