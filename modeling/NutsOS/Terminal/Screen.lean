import NutsOS.Kernel.State
import NutsOS.Stdutil.String

-- terminal.c: characters and strings on the VGA text screen.
namespace NutsOS.Terminal
open Word32 Stdutil

def vgaWidth : Nat := 80

-- The kernel with the memory it reads through bare pointers. `reads` lists the
-- addresses read so far and `cells` the cells of video memory written.
structure Machine where
  kernel : Kernel
  memory : Nat → UInt8
  videoMem : Nat
  terminalRow : Nat
  terminalCol : Nat
  reads : List Nat
  cells : List (Nat × Nat)

abbrev MachineProg := Prog Fault Machine

def Machine.seen (s : Machine) (addresses : List Nat) : Machine := {s with reads := s.reads++addresses}

@[simp] theorem Machine.seen_reads (s : Machine) (addresses : List Nat) :
    (s.seen addresses).reads = s.reads++addresses := rfl

theorem Machine.seen_seen (s : Machine) (one two : List Nat) : (s.seen one).seen two = s.seen (one++two) := by
  simp [Machine.seen]

def readByte (address : Nat) : MachineProg UInt8 := do
  Prog.modify (fun s => s.seen [address])
  return (← Prog.get).memory address

def uint16 (x : Nat) : Nat := x%65536

-- A char is signed, so the character's sign bits reach the colour.
def terminalMakeChar (c colour : UInt8) : Nat :=
  uint16 (toUint32 (colour.toInt8.toInt*256) ||| toUint32 c.toInt8.toInt)

def terminalPutchar (x y : Nat) (c colour : UInt8) : MachineProg Unit := do
  let cell := y*vgaWidth+x
  let value := terminalMakeChar c colour
  Prog.modify (fun s =>
    let address := toUint32 ((s.videoMem+2*cell : Nat) : Int)
    {s with
      memory := fun a => if a = address then UInt8.ofNat (value%256) else
        if a = toUint32 ((address+1 : Nat) : Int) then UInt8.ofNat (value/256) else s.memory a
      cells := s.cells++[(cell,value)]})

def setRow (row : Nat) : MachineProg Unit := Prog.modify (fun s => {s with terminalRow := uint16 row})
def setCol (col : Nat) : MachineProg Unit := Prog.modify (fun s => {s with terminalCol := uint16 col})

def terminalWritechar (c colour : UInt8) : MachineProg Unit := do
  if c = 10 then
    setRow ((← Prog.get).terminalRow+1)
    setCol 0
    return ()
  terminalPutchar (← Prog.get).terminalCol (← Prog.get).terminalRow c colour
  setCol ((← Prog.get).terminalCol+1)
  Prog.when ((← Prog.get).terminalCol ≥ vgaWidth) do
    setCol 0
    setRow ((← Prog.get).terminalRow+1)

def charAddress (str i : Nat) : Nat := toUint32 ((str+i : Nat) : Int)

def printLoop (str : Nat) : Nat → Nat → MachineProg Unit
  | 0,_ => pure ()
  | left+1,i => do
    let c ← readByte (charAddress str i)
    terminalWritechar c 15
    printLoop str left (i+1)

def print (str : Nat) : MachineProg Unit := do
  let len ← strlenAt (fun i => readByte (charAddress str i))
  printLoop str len 0

theorem readByte_run (s : Machine) (address : Nat) : readByte address s = .ok (s.memory address,s.seen [address]) := rfl

theorem terminalWritechar_run (s : Machine) (c colour : UInt8) :
    ∃ after, terminalWritechar c colour s = .ok ((),after) ∧ after.reads = s.reads ∧ after.kernel = s.kernel := by
  unfold terminalWritechar
  by_cases newline : c = 10
  · rw [if_pos newline]
    exact ⟨_,rfl,rfl,rfl⟩
  · rw [if_neg newline]
    obtain ⟨put,written,reads,kernel⟩ : ∃ put, terminalPutchar s.terminalCol s.terminalRow c colour s = .ok ((),put) ∧
        put.reads = s.reads ∧ put.kernel = s.kernel := ⟨_,rfl,rfl,rfl⟩
    rw [Prog.get_bind,Prog.get_bind,Prog.bind_run written,Prog.get_bind]
    let moved : Machine := {put with terminalCol := uint16 (put.terminalCol+1)}
    rw [Prog.bind_run (show setCol (put.terminalCol+1) put = .ok ((),moved) from rfl),Prog.get_bind]
    by_cases wraps : moved.terminalCol ≥ vgaWidth
    · rw [Prog.when_true wraps]
      exact ⟨_,rfl,reads,kernel⟩
    · rw [Prog.when_false wraps]
      exact ⟨_,rfl,reads,kernel⟩

def charAddresses (str first count : Nat) : List Nat := (List.range' first count).map (charAddress str)

theorem printLoop_run (s : Machine) (str count first : Nat) :
    ∃ after, printLoop str count first s = .ok ((),after) ∧ after.reads = s.reads++charAddresses str first count ∧
      after.kernel = s.kernel := by
  induction count generalizing s first with
  | zero => exact ⟨s,rfl,by simp [charAddresses],rfl⟩
  | succ count ih =>
    obtain ⟨written,ran,reads,kernel⟩ := terminalWritechar_run (s.seen [charAddress str first])
      (s.memory (charAddress str first)) 15
    obtain ⟨after,rest,reads',kernel'⟩ := ih written (first+1)
    refine ⟨after,?_,?_,kernel'.trans kernel⟩
    · rw [printLoop,Prog.bind_run (readByte_run s _),Prog.bind_run ran]
      exact rest
    · rw [reads',reads]
      simp [charAddresses,List.range'_succ]

-- The first NUL of a string, where there is one.
structure Ends (memory : Nat → UInt8) (str len : Nat) : Prop where
  bounded : len < 4294967296
  nul : memory (charAddress str len) = asciiTerm
  chars : ∀ i, i < len → memory (charAddress str i) ≠ asciiTerm

theorem strlenLoop_run (s : Machine) (str len fuel first : Nat) (enough : len < fuel)
    (nul : s.memory (charAddress str (first+len)) = asciiTerm)
    (chars : ∀ i, i < len → s.memory (charAddress str (first+i)) ≠ asciiTerm) :
    strlenLoop (fun i => readByte (charAddress str i)) fuel first s =
      .ok (first+len,s.seen (charAddresses str first (len+1))) := by
  induction fuel generalizing s len first with
  | zero => exact absurd enough (Nat.not_lt_zero _)
  | succ fuel ih =>
    rw [strlenLoop,Prog.bind_run (readByte_run s _)]
    cases len with
    | zero =>
      rw [if_pos (by simpa using nul)]
      rfl
    | succ len =>
      have here : s.memory (charAddress str first) ≠ asciiTerm := by simpa using chars 0 (Nat.succ_pos len)
      have shift : ∀ i, first+1+i = first+(i+1) := by omega
      have rest := ih (s.seen [charAddress str first]) len (first+1) (Nat.lt_of_succ_lt_succ enough)
        (by rw [shift]; exact nul) (by intro i inside; rw [shift]; exact chars (i+1) (Nat.succ_lt_succ inside))
      rw [if_neg here,rest,shift,Machine.seen_seen]
      simp [charAddresses,List.range'_succ]

theorem strlenLoop_endless (s : Machine) (str fuel first : Nat)
    (chars : ∀ i, i < fuel → s.memory (charAddress str (first+i)) ≠ asciiTerm) :
    strlenLoop (fun i => readByte (charAddress str i)) fuel first s = .error .unbounded := by
  induction fuel generalizing s first with
  | zero => rfl
  | succ fuel ih =>
    have here : s.memory (charAddress str first) ≠ asciiTerm := by simpa using chars 0 (Nat.succ_pos fuel)
    rw [strlenLoop,Prog.bind_run (readByte_run s _),if_neg here]
    refine ih (s.seen [charAddress str first]) (first+1) (fun i inside => ?_)
    rw [show first+1+i = first+(i+1) by omega]
    exact chars (i+1) (Nat.succ_lt_succ inside)

theorem print_run {s : Machine} (ends : Ends s.memory str len) :
    ∃ after, print str s = .ok ((),after) ∧
      after.reads = s.reads++(charAddresses str 0 (len+1)++charAddresses str 0 len) ∧ after.kernel = s.kernel := by
  have scanned := strlenLoop_run s str len 4294967296 0 ends.bounded (by simpa using ends.nul)
    (by simpa using ends.chars)
  rw [Nat.zero_add] at scanned
  obtain ⟨after,ran,reads,kernel⟩ := printLoop_run (s.seen (charAddresses str 0 (len+1))) str len 0
  refine ⟨after,?_,?_,kernel⟩
  · unfold print strlenAt
    rw [Prog.bind_run scanned]
    exact ran
  · rw [reads,Machine.seen_reads,List.append_assoc]

theorem print_endless {s : Machine} (chars : ∀ i, i < 4294967296 → s.memory (charAddress str i) ≠ asciiTerm) :
    print str s = .error .unbounded := by
  unfold print strlenAt
  exact Prog.bind_fault (strlenLoop_endless s str 4294967296 0 (by simpa using chars))

end NutsOS.Terminal
