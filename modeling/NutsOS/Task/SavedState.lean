import NutsOS.Lib.X86

-- struct interrupt_frame and struct registers as words of memory, and the copy
-- that task_save_state makes.
namespace NutsOS.Tasks
open Ram X86

structure InterruptFrame where
  edi : Word
  esi : Word
  ebp : Word
  reserved : Word
  ebx : Word
  edx : Word
  ecx : Word
  eax : Word
  ip : Word
  cs : Word
  flags : Word
  esp : Word
  ss : Word

-- In the order in which idt.h declares them.
def InterruptFrame.words (frame : InterruptFrame) : List Word :=
  [frame.edi,frame.esi,frame.ebp,frame.reserved,frame.ebx,frame.edx,frame.ecx,frame.eax,frame.ip,frame.cs,frame.flags,
    frame.esp,frame.ss]

-- In the order in which task.h declares the fields of the same names.
def InterruptFrame.registers (frame : InterruptFrame) : List Word :=
  [frame.edi,frame.esi,frame.ebp,frame.ebx,frame.edx,frame.ecx,frame.eax,frame.ip,frame.cs,frame.flags,frame.esp,frame.ss]

def taskRegisters : Word := 4#32

inductive Field where
  | edi | esi | ebp | ebx | edx | ecx | eax | ip | cs | flags | esp | ss
  deriving DecidableEq

def Field.inRegisters : Field → Word
  | .edi => 0#32
  | .esi => 4#32
  | .ebp => 8#32
  | .ebx => 12#32
  | .edx => 16#32
  | .ecx => 20#32
  | .eax => 24#32
  | .ip => 28#32
  | .cs => 32#32
  | .flags => 36#32
  | .esp => 40#32
  | .ss => 44#32

def Field.inFrame : Field → Word
  | .edi => 0#32
  | .esi => 4#32
  | .ebp => 8#32
  | .ebx => 16#32
  | .edx => 20#32
  | .ecx => 24#32
  | .eax => 28#32
  | .ip => 32#32
  | .cs => 36#32
  | .flags => 40#32
  | .esp => 44#32
  | .ss => 48#32

def savedFields : List Field := [.ip,.cs,.flags,.esp,.ss,.eax,.ebp,.ebx,.ecx,.edi,.edx,.esi]

def copyFields (registers frame : Word) (fields : List Field) (mem : Memory) : Memory :=
  fields.foldl (fun mem field => write mem (registers+field.inRegisters) (read mem (frame+field.inFrame))) mem

def taskSaveState (task frame : Word) (mem : Memory) : Memory := copyFields (task+taskRegisters) frame savedFields mem

theorem copyFields_other (clear : ∀ field ∈ fields, Apart (registers+field.inRegisters) 4 x 1) (mem : Memory) :
    copyFields registers frame fields mem x = mem x := by
  induction fields generalizing mem with
  | nil => rfl
  | cons field fields ih =>
    have rest := ih (fun other member => clear other (List.mem_cons_of_mem _ member))
      (write mem (registers+field.inRegisters) (read mem (frame+field.inFrame)))
    exact rest.trans (write_other (clear field List.mem_cons_self) _ _)

theorem copyFields_read_other (clear : ∀ field ∈ fields, Apart (registers+field.inRegisters) 4 a 4) (mem : Memory) :
    read (copyFields registers frame fields mem) a = read mem a := by
  induction fields generalizing mem with
  | nil => rfl
  | cons field fields ih =>
    have rest := ih (fun other member => clear other (List.mem_cons_of_mem _ member))
      (write mem (registers+field.inRegisters) (read mem (frame+field.inFrame)))
    exact rest.trans (read_write_other (clear field List.mem_cons_self) _ _)

theorem copyFields_read (once : fields.Pairwise (fun one two => Apart (registers+two.inRegisters) 4 (registers+one.inRegisters) 4))
    (clear : ∀ one ∈ fields, ∀ two ∈ fields, Apart (registers+one.inRegisters) 4 (frame+two.inFrame) 4) (member : field ∈ fields)
    (mem : Memory) : read (copyFields registers frame fields mem) (registers+field.inRegisters) = read mem (frame+field.inFrame) := by
  induction fields generalizing mem with
  | nil => cases member
  | cons first fields ih =>
    obtain ⟨apart,later⟩ := List.pairwise_cons.mp once
    rcases List.mem_cons.mp member with rfl | inside
    · exact (copyFields_read_other apart _).trans (read_write _ _ _)
    · have rest := ih later (fun one here two there => clear one (List.mem_cons_of_mem _ here) two (List.mem_cons_of_mem _ there))
        inside (write mem (registers+first.inRegisters) (read mem (frame+first.inFrame)))
      exact rest.trans (read_write_other (clear first List.mem_cons_self field member) _ _)

theorem savedFields_once (registers : Word) :
    savedFields.Pairwise (fun one two => Apart (registers+two.inRegisters) 4 (registers+one.inRegisters) 4) := by
  have fixed : savedFields.Pairwise (fun one two => 4 ≤ (one.inRegisters-two.inRegisters).toNat ∧
      4 ≤ (two.inRegisters-one.inRegisters).toNat) := by decide
  refine fixed.imp ?_
  intro one two apart
  unfold Apart
  bv_omega

theorem Field.inside (field : Field) : field.inRegisters.toNat ≤ 44 ∧ field.inFrame.toNat ≤ 48 := by
  cases field <;> decide

theorem Field.saved (field : Field) : field ∈ savedFields := by
  cases field <;> decide

section
variable {values : InterruptFrame}

theorem taskSaveState_registers (frameAt : Block mem frame values.words) (apart : Apart (task+taskRegisters) 48 frame 52) :
    Block (taskSaveState task frame mem) (task+taskRegisters) values.registers := by
  have clear : ∀ one ∈ savedFields, ∀ two ∈ savedFields,
      Apart (task+taskRegisters+one.inRegisters) 4 (frame+two.inFrame) 4 := by
    intro one _ two _
    have low := one.inside.1
    have high := two.inside.2
    unfold Apart at *
    bv_omega
  have arrives (field : Field) : read (taskSaveState task frame mem) (task+taskRegisters+field.inRegisters) =
      read mem (frame+field.inFrame) := copyFields_read (savedFields_once _) clear field.saved mem
  generalize taskSaveState task frame mem = after at arrives ⊢
  generalize task+taskRegisters = registers at arrives ⊢
  obtain ⟨edi,esi,ebp,_,ebx,edx,ecx,eax,ip,cs,flags,esp,ss,_⟩ := frameAt
  have first := arrives .edi
  simp only [Field.inRegisters,Field.inFrame,BitVec.add_zero] at first
  simp only [InterruptFrame.registers,Block,BitVec.add_assoc,BitVec.reduceAdd] at esi ebp ebx edx ecx eax ip cs flags esp ss ⊢
  exact ⟨first.trans edi,(arrives .esi).trans esi,(arrives .ebp).trans ebp,(arrives .ebx).trans ebx,(arrives .edx).trans edx,
    (arrives .ecx).trans ecx,(arrives .eax).trans eax,(arrives .ip).trans ip,(arrives .cs).trans cs,
    (arrives .flags).trans flags,(arrives .esp).trans esp,(arrives .ss).trans ss,trivial⟩

theorem taskSaveState_other (outside : Apart (task+taskRegisters) 48 x 1) (mem : Memory) :
    taskSaveState task frame mem x = mem x := by
  apply copyFields_other
  intro field _
  have low := field.inside.1
  unfold Apart at *
  bv_omega

theorem taskSaveState_frame (frameAt : Block mem frame values.words) (apart : Apart (task+taskRegisters) 48 frame 52) :
    Block (taskSaveState task frame mem) frame values.words := by
  apply frameAt.congr
  intro i inside
  have bound : i < 52 := inside
  apply taskSaveState_other
  have offset := offset_toNat (n := i) (by omega)
  unfold Apart at *
  bv_omega

end

end NutsOS.Tasks
