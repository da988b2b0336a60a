import NutsOS.Idt.Syscall
import NutsOS.Lib.WriteLog

-- idt.c: the table of the interrupt gates, and what the processor fetches from it.
namespace NutsOS.Idt
open X86 WriteLog
open Ram (Word Memory)

def nutsosTotalInterrupts : Nat := 512

structure IdtDesc where
  offsetLow : BitVec 16
  selector : BitVec 16
  unused : BitVec 8
  typeAttr : BitVec 8
  offsetHigh : BitVec 16

def zeroDesc : IdtDesc := ⟨0#16,0#16,0#8,0#8,0#16⟩

-- The packed structure in memory.
def IdtDesc.byte (desc : IdtDesc) : Nat → BitVec 8
  | 0 => desc.offsetLow.extractLsb' 0 8
  | 1 => desc.offsetLow.extractLsb' 8 8
  | 2 => desc.selector.extractLsb' 0 8
  | 3 => desc.selector.extractLsb' 8 8
  | 4 => desc.unused
  | 5 => desc.typeAttr
  | 6 => desc.offsetHigh.extractLsb' 0 8
  | _ => desc.offsetHigh.extractLsb' 8 8

structure IdtrDesc where
  limit : BitVec 16
  base : Word

-- The static table, the static descriptor of it and the processor's register.
structure Interrupts where
  idtDescriptors : Nat → IdtDesc
  idtrDescriptor : IdtrDesc
  idtr : IdtrDesc

abbrev IdtProg := Prog Fault Interrupts

def idtOffsetLow (v : Word) : Word := v &&& 0x0000FFFF#32
def idtOffsetHigh (v : Word) : Word := v >>> 16
def idtAttrRing (v : BitVec 8) : BitVec 8 := (v &&& 0b00000011#8) <<< 5
def idtAttrInt32 : BitVec 8 := 0b00001110#8
def idtAttrPresent : BitVec 8 := 0b10000000#8

def interruptDesc (address : Word) : IdtDesc where
  offsetLow := (idtOffsetLow address).setWidth 16
  selector := kernelCode
  unused := 0x00#8
  typeAttr := idtAttrPresent ||| idtAttrInt32 ||| idtAttrRing 3#8
  offsetHigh := (idtOffsetHigh address).setWidth 16

-- The number is not checked: another one names memory beside the table.
def idtSet (interruptNo : Int) (address : Word) : IdtProg Unit := do
  if interruptNo < 0 ∨ interruptNo ≥ nutsosTotalInterrupts then Prog.fault (.outOfBounds (8*interruptNo.toNat)) else
  Prog.modify (fun s => {s with idtDescriptors := fun i => if i = interruptNo.toNat then interruptDesc address else s.idtDescriptors i})

-- idt.asm and idt.c.
inductive Routine where
  | noInterrupt
  | idtZero
  | int21h
  | isr80hWrapper
  deriving DecidableEq

abbrev Linked := Routine → Word

def idtSetFrom (linked : Linked) : Nat → Nat → IdtProg Unit
  | 0,_ => return
  | count+1,i => do
    idtSet i (linked .noInterrupt)
    idtSetFrom linked count (i+1)

-- `table` is the address of idt_descriptors.
def idtInit (linked : Linked) (table : Word) : IdtProg Unit := do
  Prog.modify (fun s => {s with idtDescriptors := fun i => if i < nutsosTotalInterrupts then zeroDesc else s.idtDescriptors i})
  Prog.modify (fun s => {s with idtrDescriptor := ⟨BitVec.ofNat 16 (8*nutsosTotalInterrupts-1),table⟩})
  idtSetFrom linked nutsosTotalInterrupts 0
  idtSet 0x00 (linked .idtZero)
  idtSet 0x21 (linked .int21h)
  idtSet 0x80 (linked .isr80hWrapper)
  Prog.modify (fun s => {s with idtr := s.idtrDescriptor})

def setAll : List (Int × Word) → IdtProg Unit
  | [] => return
  | (interruptNo,address)::rest => do
    idtSet interruptNo address
    setAll rest

structure Gate where
  offset : Word
  selector : Selector
  present : Bool
  privilege : BitVec 2
  kind : BitVec 5
  deriving DecidableEq

def gateOf (byte : Nat → BitVec 8) : Gate where
  offset := byte 7 ++ byte 6 ++ byte 1 ++ byte 0
  selector := byte 3 ++ byte 2
  present := (byte 5).getLsbD 7
  privilege := (byte 5).extractLsb' 5 2
  kind := (byte 5).extractLsb' 0 5

def fetchGate (mem : Memory) (idtr : IdtrDesc) (vector : Nat) : Option Gate :=
  if 8*vector+7 ≤ idtr.limit.toNat then some (gateOf (fun i => mem (idtr.base+BitVec.ofNat 32 (8*vector+i)))) else none

-- The table lies in memory.
def Placed (mem : Memory) (s : Interrupts) (table : Word) : Prop :=
  ∀ i < nutsosTotalInterrupts, ∀ j < 8, mem (table+BitVec.ofNat 32 (8*i+j)) = (s.idtDescriptors i).byte j

def interruptGate (address : Word) : Gate := ⟨address,kernelCode,true,3#2,0b01110#5⟩

theorem low_half (v : Word) : (idtOffsetLow v).setWidth 16 = v.extractLsb' 0 16 := by
  have mask (n : Nat) : n &&& 65535 = n%65536 := Nat.and_two_pow_sub_one_eq_mod n 16
  apply BitVec.eq_of_toNat_eq
  simp [idtOffsetLow,mask]

theorem high_half (v : Word) : (idtOffsetHigh v).setWidth 16 = v.extractLsb' 16 16 := by
  apply BitVec.eq_of_toNat_eq
  simp [idtOffsetHigh]

theorem half_bytes (x : BitVec 16) : x.extractLsb' 8 8 ++ x.extractLsb' 0 8 = x := by
  rw [BitVec.extractLsb'_append_extractLsb'_eq_extractLsb' (by decide)]
  exact BitVec.extractLsb'_eq_self

theorem halves (v : Word) : v.extractLsb' 16 16 ++ v.extractLsb' 0 16 = v := by
  rw [BitVec.extractLsb'_append_extractLsb'_eq_extractLsb' (by decide)]
  exact BitVec.extractLsb'_eq_self

theorem gate_of_desc {byte : Nat → BitVec 8} {address : Word} (same : ∀ i < 8, byte i = (interruptDesc address).byte i) :
    gateOf byte = interruptGate address := by
  have low : byte 1 ++ byte 0 = address.extractLsb' 0 16 := by
    rw [same 0 (by decide),same 1 (by decide),← low_half]
    exact half_bytes _
  have high : byte 7 ++ byte 6 = address.extractLsb' 16 16 := by
    rw [same 6 (by decide),same 7 (by decide),← high_half]
    exact half_bytes _
  have offset : byte 7 ++ byte 6 ++ byte 1 ++ byte 0 = address := by
    have joined : byte 7 ++ byte 6 ++ byte 1 ++ byte 0 = (byte 7 ++ byte 6) ++ (byte 1 ++ byte 0) := BitVec.append_assoc
    rw [joined,low,high]
    exact halves address
  have selector : byte 3 ++ byte 2 = kernelCode := by
    rw [same 2 (by decide),same 3 (by decide)]
    exact half_bytes _
  have access : byte 5 = 0b11101110#8 := same 5 (by decide)
  unfold gateOf interruptGate
  rw [offset,selector,access]
  rfl

def InTable (interruptNo : Int) : Prop := 0 ≤ interruptNo ∧ interruptNo < nutsosTotalInterrupts

theorem idtSet_run {s : Interrupts} {interruptNo : Int} (inside : InTable interruptNo) (address : Word) :
    idtSet interruptNo address s =
      .ok ((),{s with idtDescriptors := write s.idtDescriptors (interruptNo.toNat,interruptDesc address)}) := by
  unfold idtSet
  rw [if_neg (by unfold InTable at inside; omega)]
  rfl

theorem idtSet_outside {s : Interrupts} {interruptNo : Int} (outside : ¬ InTable interruptNo) (address : Word) :
    idtSet interruptNo address s = .error (.outOfBounds (8*interruptNo.toNat)) := by
  unfold idtSet
  rw [if_pos (by unfold InTable at outside; omega)]
  rfl

def settings (log : List (Int × Word)) : List (Nat × Word) := log.map (fun entry => (entry.1.toNat,entry.2))

def descWrites (log : List (Int × Word)) : List (Nat × IdtDesc) := (settings log).map (fun entry => (entry.1,interruptDesc entry.2))

theorem setAll_ok {s t : Interrupts} {log : List (Int × Word)} : setAll log s = .ok ((),t) ↔
    (∀ entry ∈ log, InTable entry.1) ∧ t = {s with idtDescriptors := replay s.idtDescriptors (descWrites log)} := by
  induction log generalizing s with
  | nil =>
    constructor
    · intro ran
      cases ran
      exact ⟨by simp,rfl⟩
    · rintro ⟨_,rfl⟩
      rfl
  | cons entry rest ih =>
    obtain ⟨interruptNo,address⟩ := entry
    rw [List.forall_mem_cons]
    by_cases inside : InTable interruptNo
    · rw [setAll,Prog.bind_run (idtSet_run inside address),ih]
      constructor
      · rintro ⟨later,same⟩
        exact ⟨⟨inside,later⟩,same⟩
      · rintro ⟨⟨_,later⟩,same⟩
        exact ⟨later,same⟩
    · rw [setAll,Prog.bind_fault (idtSet_outside inside address)]
      constructor
      · intro ran
        cases ran
      · rintro ⟨⟨inside',_⟩,_⟩
        exact absurd inside' inside

theorem idtSetFrom_run (linked : Linked) {s : Interrupts} (room : i+count ≤ nutsosTotalInterrupts) : idtSetFrom linked count i s = .ok ((),
    {s with idtDescriptors := fun j => if i ≤ j ∧ j < i+count then interruptDesc (linked .noInterrupt) else s.idtDescriptors j}) := by
  induction count generalizing s i with
  | zero =>
    have none : (fun j => if i ≤ j ∧ j < i+0 then interruptDesc (linked .noInterrupt) else s.idtDescriptors j) = s.idtDescriptors := by
      funext j
      exact if_neg (by omega)
    rw [none]
    rfl
  | succ count ih =>
    have inside : InTable (i : Int) := by
      unfold InTable
      omega
    rw [idtSetFrom,Prog.bind_run (idtSet_run inside _),ih (by omega)]
    have same : (fun j => if i+1 ≤ j ∧ j < i+1+count then interruptDesc (linked .noInterrupt) else
        write s.idtDescriptors (Int.toNat i,interruptDesc (linked .noInterrupt)) j) =
        fun j => if i ≤ j ∧ j < i+(count+1) then interruptDesc (linked .noInterrupt) else s.idtDescriptors j := by
      funext j
      unfold write
      rw [Int.toNat_natCast]
      dsimp only
      split_ifs <;> first | rfl | omega
    dsimp only
    rw [same]

def initialRoutine (vector : Nat) : Routine :=
  if vector = 0x80 then .isr80hWrapper else if vector = 0x21 then .int21h else if vector = 0x00 then .idtZero else .noInterrupt

theorem idtInit_run (linked : Linked) (table : Word) (s : Interrupts) : idtInit linked table s = .ok ((),
    ⟨fun i => if i < nutsosTotalInterrupts then interruptDesc (linked (initialRoutine i)) else s.idtDescriptors i,⟨4095#16,table⟩,⟨4095#16,table⟩⟩) := by
  have first : InTable 0x00 := by unfold InTable; decide
  have keyboard : InTable 0x21 := by unfold InTable; decide
  have syscall : InTable 0x80 := by unfold InTable; decide
  let blank : Nat → IdtDesc := fun i => if i < nutsosTotalInterrupts then zeroDesc else s.idtDescriptors i
  -- the two states are written out, for the kernel would compare the rest of the run otherwise
  have cleared (f : Unit → IdtProg Unit) :
      (Prog.modify (fun s => {s with idtDescriptors := fun i => if i < nutsosTotalInterrupts then zeroDesc else s.idtDescriptors i}) >>= f) s =
        f () ⟨blank,s.idtrDescriptor,s.idtr⟩ := rfl
  have described (f : Unit → IdtProg Unit) :
      (Prog.modify (fun s => {s with idtrDescriptor := ⟨BitVec.ofNat 16 (8*nutsosTotalInterrupts-1),table⟩}) >>= f) ⟨blank,s.idtrDescriptor,s.idtr⟩ =
        f () ⟨blank,⟨4095#16,table⟩,s.idtr⟩ := rfl
  unfold idtInit
  rw [cleared,described,Prog.bind_run (idtSetFrom_run linked (Nat.le_of_eq (Nat.zero_add _))),
    Prog.bind_run (idtSet_run first _),Prog.bind_run (idtSet_run keyboard _),Prog.bind_run (idtSet_run syscall _)]
  have same : write (write (write (fun j => if 0 ≤ j ∧ j < 0+nutsosTotalInterrupts then interruptDesc (linked .noInterrupt) else
      if j < nutsosTotalInterrupts then zeroDesc else s.idtDescriptors j) (0x00,interruptDesc (linked .idtZero)))
      (0x21,interruptDesc (linked .int21h))) (0x80,interruptDesc (linked .isr80hWrapper)) =
      fun i => if i < nutsosTotalInterrupts then interruptDesc (linked (initialRoutine i)) else s.idtDescriptors i := by
    funext j
    unfold write initialRoutine nutsosTotalInterrupts
    dsimp only
    split_ifs <;> first | rfl | omega
  exact congrArg (fun table' => Except.ok ((),(⟨table',⟨4095#16,table⟩,⟨4095#16,table⟩⟩ : Interrupts))) same

theorem fetchGate_placed {mem : Memory} {t : Interrupts} (placed : Placed mem t table) (register : t.idtr = ⟨4095#16,table⟩)
    (inside : vector < nutsosTotalInterrupts) (desc : t.idtDescriptors vector = interruptDesc address) :
    fetchGate mem t.idtr vector = some (interruptGate address) := by
  have bound : 8*vector+7 ≤ t.idtr.limit.toNat := by
    rw [register]
    show 8*vector+7 ≤ 4095
    unfold nutsosTotalInterrupts at inside
    omega
  unfold fetchGate
  rw [if_pos bound]
  refine congrArg some (gate_of_desc (fun i small => ?_))
  rw [register,← desc]
  exact placed vector inside i small

theorem gates_exact (linked : Linked) (table : Word) (log : List (Int × Word)) (s : Interrupts) :
    ((∃ t, (idtInit linked table >>= fun _ => setAll log) s = .ok ((),t)) ↔ ∀ entry ∈ log, InTable entry.1) ∧
    ∀ t mem, (idtInit linked table >>= fun _ => setAll log) s = .ok ((),t) → Placed mem t table → ∀ vector < nutsosTotalInterrupts,
      fetchGate mem t.idtr vector =
        some (interruptGate ((lastWrite (settings log) vector).getD (linked (initialRoutine vector)))) := by
  rw [Prog.bind_run (idtInit_run linked table s)]
  refine ⟨?_,?_⟩
  · constructor
    · rintro ⟨t,ran⟩
      exact (setAll_ok.mp ran).1
    · intro inside
      exact ⟨_,setAll_ok.mpr ⟨inside,rfl⟩⟩
  · intro t mem ran placed vector inside
    obtain ⟨_,same⟩ := setAll_ok.mp ran
    refine fetchGate_placed placed (by rw [same]) inside ?_
    rw [same]
    dsimp only
    rw [replay_eq,descWrites,lastWrite_map,if_pos inside]
    cases lastWrite (settings log) vector with
    | none => rfl
    | some address => rfl

def tableImage (s : Interrupts) (table : Word) : Memory :=
  Ram.overlay (fun _ => 0#8) table 4096 (fun n => (s.idtDescriptors (n/8)).byte (n%8))

theorem tableImage_placed (s : Interrupts) (table : Word) : Placed (tableImage s table) s table := by
  intro i small j inside
  unfold nutsosTotalInterrupts at small
  unfold tableImage
  rw [Ram.overlay_byte _ _ _ (by omega) (by decide)]
  have row : (8*i+j)/8 = i := by omega
  have column : (8*i+j)%8 = j := by omega
  rw [row,column]

theorem keyboard_reset : ∃ t, (idtInit (fun _ => 0x00100000#32) 0x00110000#32 >>= fun _ => setAll [(0x21,0x00101000#32),(0x21,0x12345678#32)])
      ⟨fun _ => zeroDesc,⟨0#16,0#32⟩,⟨0#16,0#32⟩⟩ = .ok ((),t) ∧
    fetchGate (tableImage t 0x00110000#32) t.idtr 0x21 = some (interruptGate 0x12345678#32) ∧
    fetchGate (tableImage t 0x00110000#32) t.idtr 0x22 = some (interruptGate 0x00100000#32) := by
  obtain ⟨through,gates⟩ := gates_exact (fun _ => 0x00100000#32) 0x00110000#32 [(0x21,0x00101000#32),(0x21,0x12345678#32)]
    ⟨fun _ => zeroDesc,⟨0#16,0#32⟩,⟨0#16,0#32⟩⟩
  obtain ⟨t,ran⟩ := through.mpr (by simp [InTable,nutsosTotalInterrupts])
  exact ⟨t,ran,gates t _ ran (tableImage_placed t _) 0x21 (by decide),gates t _ ran (tableImage_placed t _) 0x22 (by decide)⟩

end NutsOS.Idt
