import NutsOS.Isr80h.Calls

-- The terminal neither scrolls nor stops at its last row: what a program can
-- write with a print call.
namespace NutsOS.Isr80h
open Word32 Stdutil Terminal Tasks Processes Idt

-- The characters that take the cursor to a cell, and the one for the cell.
def reaching (rows cols : Nat) (c : UInt8) : List UInt8 := List.replicate rows 10++(List.replicate cols 32++[c])

theorem makeChar_low (c : UInt8) : UInt8.ofNat (terminalMakeChar c 15%256) = c := by
  have value : toUint32 c.toInt8.toInt%256 = c.toNat := by
    have byte := c.toNat_lt
    have signed : c.toInt8.toInt = if c.toNat < 128 then (c.toNat : Int) else (c.toNat : Int)-256 := by
      show c.toBitVec.toInt = _
      rw [BitVec.toInt_eq_toNat_cond]
      have same : c.toBitVec.toNat = c.toNat := rfl
      rw [same]
      split <;> split <;> omega
    unfold toUint32
    rw [signed]
    split <;> omega
  have colour : toUint32 ((15 : UInt8).toInt8.toInt*256) = 3840 := by decide
  unfold terminalMakeChar uint16
  have split := Nat.or_mod_two_pow (a := 3840) (b := toUint32 c.toInt8.toInt) (n := 8)
  have low : (3840 ||| toUint32 c.toInt8.toInt)%65536%256 = c.toNat := by
    rw [Nat.mod_mod_of_dvd _ (by decide : 256 ∣ 65536)]
    rw [show (2 : Nat)^8 = 256 from rfl,value] at split
    rw [split]
    exact Nat.zero_or _
  rw [colour,low]
  exact UInt8.ofNat_toNat

theorem writechar_cell {s : Machine} (video : s.videoMem = 0xB8000) (row : s.terminalRow < 65536) (col : s.terminalCol < vgaWidth)
    (other : c ≠ 10) :
    ∃ t, terminalWritechar c 15 s = .ok ((),t) ∧ t.videoMem = s.videoMem ∧ t.screen = s.screen.write c ∧
      t.memory (0xB8000+2*(s.terminalRow*vgaWidth+s.terminalCol)) = c ∧
      ∀ a, a < 0xB8000+2*(s.terminalRow*vgaWidth+s.terminalCol) ∨ 0xB8000+2*(s.terminalRow*vgaWidth+s.terminalCol)+1 < a →
        t.memory a = s.memory a := by
  obtain ⟨t,ran,screen⟩ := sendToTerminal_run s c
  suffices kept : t.videoMem = s.videoMem ∧ t.memory (0xB8000+2*(s.terminalRow*vgaWidth+s.terminalCol)) = c ∧
      ∀ a, a < 0xB8000+2*(s.terminalRow*vgaWidth+s.terminalCol) ∨ 0xB8000+2*(s.terminalRow*vgaWidth+s.terminalCol)+1 < a →
        t.memory a = s.memory a from ⟨t,ran,kept.1,screen,kept.2⟩
  have low : toUint32 ((s.videoMem+2*(s.terminalRow*vgaWidth+s.terminalCol) : Nat) : Int) =
      0xB8000+2*(s.terminalRow*vgaWidth+s.terminalCol) := by
    unfold vgaWidth at *
    rw [video,toUint32_natCast (by omega)]
  have high : toUint32 ((0xB8000+2*(s.terminalRow*vgaWidth+s.terminalCol)+1 : Nat) : Int) =
      0xB8000+2*(s.terminalRow*vgaWidth+s.terminalCol)+1 := by
    unfold vgaWidth at *
    exact toUint32_natCast (by omega)
  obtain ⟨put,written,video',memory⟩ : ∃ put, terminalPutchar s.terminalCol s.terminalRow c 15 s = .ok ((),put) ∧
      put.videoMem = s.videoMem ∧ put.memory = fun a =>
        if a = 0xB8000+2*(s.terminalRow*vgaWidth+s.terminalCol) then UInt8.ofNat (terminalMakeChar c 15%256) else
        if a = 0xB8000+2*(s.terminalRow*vgaWidth+s.terminalCol)+1 then UInt8.ofNat (terminalMakeChar c 15/256) else s.memory a := by
    refine ⟨_,rfl,rfl,?_⟩
    dsimp only
    rw [low,high]
  have cell : put.memory (0xB8000+2*(s.terminalRow*vgaWidth+s.terminalCol)) = c := by
    rw [memory]
    dsimp only
    rw [if_pos rfl,makeChar_low]
  have rest : ∀ a, a < 0xB8000+2*(s.terminalRow*vgaWidth+s.terminalCol) ∨ 0xB8000+2*(s.terminalRow*vgaWidth+s.terminalCol)+1 < a →
      put.memory a = s.memory a := by
    intro a away
    rw [memory]
    dsimp only
    rw [if_neg (by omega),if_neg (by omega)]
  unfold sendToTerminal terminalWritechar at ran
  rw [if_neg other,Prog.get_bind,Prog.get_bind,Prog.bind_run written,Prog.get_bind] at ran
  obtain ⟨⟨⟩,moved,set,ran⟩ := Prog.bind_ok.mp ran
  cases set
  rw [Prog.get_bind] at ran
  by_cases wraps : (Machine.terminalCol {put with terminalCol := uint16 (put.terminalCol+1)}) ≥ vgaWidth
  · rw [Prog.when_true wraps] at ran
    cases ran
    exact ⟨video',cell,rest⟩
  · rw [Prog.when_false wraps] at ran
    cases ran
    exact ⟨video',cell,rest⟩

def RowBytes (row cols a : Nat) : Prop := 0xB8000+2*(row*vgaWidth) ≤ a ∧ a ≤ 0xB8000+2*(row*vgaWidth+cols)+1

-- The string is in memory from a character on, above the bytes that are written.
def Holds (memory : Nat → UInt8) (str first : Nat) (text : List UInt8) : Prop :=
  ∀ i d, text[i]? = some d → memory (charAddress str (first+i)) = d

theorem Holds.head (holds : Holds memory str first (d::text)) : memory (charAddress str first) = d := holds 0 d rfl

theorem Holds.tail (holds : Holds memory str first (d::text)) : Holds memory str (first+1) text := by
  intro i e found
  rw [Nat.add_assoc,Nat.add_comm 1]
  exact holds (i+1) e found

theorem printLoop_newlines {s : Machine} (holds : Holds s.memory str first (List.replicate count 10++text))
    (row : s.terminalRow+count < 65536) (left : Nat) :
    ∃ t, printLoop str (count+left) first s = printLoop str left (first+count) t ∧ t.memory = s.memory ∧ t.videoMem = s.videoMem ∧
      t.terminalRow = s.terminalRow+count ∧ (0 < count → t.terminalCol = 0) ∧ (count = 0 → t.terminalCol = s.terminalCol) := by
  induction count generalizing s first with
  | zero =>
    rw [Nat.zero_add]
    exact ⟨s,rfl,rfl,rfl,rfl,fun bad => absurd bad (Nat.lt_irrefl 0),fun _ => rfl⟩
  | succ count ih =>
    have char : s.memory (charAddress str first) = 10 := holds.head
    obtain ⟨one,ran,memory,video,moved,col⟩ : ∃ one, terminalWritechar 10 15 (s.seen [charAddress str first]) = .ok ((),one) ∧
        one.memory = s.memory ∧ one.videoMem = s.videoMem ∧ one.terminalRow = uint16 (s.terminalRow+1) ∧ one.terminalCol = 0 :=
      ⟨_,rfl,rfl,rfl,rfl,rfl⟩
    have next : one.terminalRow = s.terminalRow+1 := moved.trans (Nat.mod_eq_of_lt (by omega))
    have later : Holds one.memory str (first+1) (List.replicate count 10++text) := by
      rw [memory]
      exact Holds.tail holds
    obtain ⟨t,rest,memory',video',row',zero',same'⟩ := ih later (by omega)
    have back : t.terminalCol = 0 := by
      rcases Nat.eq_zero_or_pos count with none | some
      · rw [same' none,col]
      · exact zero' some
    refine ⟨t,?_,memory'.trans memory,video'.trans video,by omega,fun _ => back,fun bad => absurd bad (Nat.succ_ne_zero _)⟩
    rw [Nat.succ_add,printLoop,Prog.bind_run (readByte_run s _),char,Prog.bind_run ran,rest]
    congr 1
    omega

theorem printLoop_spaces {s : Machine} (video : s.videoMem = 0xB8000) (row : s.terminalRow < 65536)
    (holds : Holds s.memory str first (List.replicate count 32++text)) (room : s.terminalCol+count < vgaWidth)
    (above : ∀ i < count+text.length, 0xB8000+2*((s.terminalRow+1)*vgaWidth) ≤ charAddress str (first+i)) (left : Nat) :
    ∃ t, printLoop str (count+left) first s = printLoop str left (first+count) t ∧ t.videoMem = 0xB8000 ∧
      t.terminalRow = s.terminalRow ∧ t.terminalCol = s.terminalCol+count ∧ Holds t.memory str (first+count) text ∧
      ∀ a, ¬ RowBytes s.terminalRow (s.terminalCol+count) a → t.memory a = s.memory a := by
  induction count generalizing s first with
  | zero =>
    rw [Nat.zero_add]
    exact ⟨s,rfl,video,rfl,rfl,holds,fun _ _ => rfl⟩
  | succ count ih =>
    have char : s.memory (charAddress str first) = 32 := holds.head
    obtain ⟨one,ran,video',screen,_,kept⟩ := writechar_cell (s := s.seen [charAddress str first]) (c := 32) video row
      (by have col : s.terminalCol < vgaWidth := by omega
          exact col) (by decide)
    obtain ⟨toRow,toCol⟩ := s.screen.write_cursor (show s.terminalCol < vgaWidth by omega) 32
    have stays : ¬ ((32 : UInt8) = 10 ∨ vgaWidth ≤ s.screen.col+1) := by
      rintro (bad | bad)
      · exact absurd bad (by decide)
      · have wide : vgaWidth ≤ s.terminalCol+1 := bad
        omega
    rw [if_neg stays] at toRow toCol
    have row' : one.terminalRow = s.terminalRow := (congrArg Screen.row screen).trans toRow
    have col' : one.terminalCol = s.terminalCol+1 := (congrArg Screen.col screen).trans toCol
    have higher : ∀ i d, (List.replicate (count+1) 32++text)[i]? = some d → one.memory (charAddress str (first+i)) = d := by
      intro i d found
      have inside : i < (List.replicate (count+1) 32++text).length := (List.getElem?_eq_some_iff.mp found).1
      rw [List.length_append,List.length_replicate] at inside
      have high := above i (by omega)
      have left : s.terminalCol < vgaWidth := by omega
      have away : 0xB8000+2*(s.terminalRow*vgaWidth+s.terminalCol)+1 < charAddress str (first+i) := by
        unfold vgaWidth at *
        omega
      exact (kept _ (.inr away)).trans (holds i d found)
    have later : Holds one.memory str (first+1) (List.replicate count 32++text) := Holds.tail higher
    obtain ⟨t,rest,video'',row'',col'',held,same⟩ := ih (video'.trans video) (by omega) later (by omega) (by
      intro i small
      rw [row',Nat.add_assoc,Nat.add_comm 1]
      exact above (i+1) (by omega))
    have shift : first+1+count = first+(count+1) := by omega
    refine ⟨t,?_,video'',row''.trans row',by omega,by rw [← shift]; exact held,fun a away => ?_⟩
    · rw [Nat.succ_add,printLoop,Prog.bind_run (readByte_run s _),char,Prog.bind_run ran,rest,shift]
    · rw [row',col',Nat.add_assoc,Nat.add_comm 1] at same
      refine (same a away).trans (kept a ?_)
      unfold RowBytes at away
      show a < 0xB8000+2*(s.terminalRow*vgaWidth+s.terminalCol) ∨ 0xB8000+2*(s.terminalRow*vgaWidth+s.terminalCol)+1 < a
      omega

theorem printLoop_reaches {s : Machine} (video : s.videoMem = 0xB8000) (positive : 0 < rows) (row : s.terminalRow+rows < 65536)
    (col : cols < vgaWidth) (other : c ≠ 10) (holds : Holds s.memory str 0 (reaching rows cols c))
    (above : ∀ i ≤ rows+cols, 0xB8000+2*((s.terminalRow+rows+1)*vgaWidth) ≤ charAddress str i) :
    ∃ t, printLoop str (rows+(cols+1)) 0 s = .ok ((),t) ∧ t.memory (0xB8000+2*((s.terminalRow+rows)*vgaWidth+cols)) = c ∧
      ∀ a, ¬ RowBytes (s.terminalRow+rows) cols a → t.memory a = s.memory a := by
  obtain ⟨down,moved,memory,video',row',col',_⟩ := printLoop_newlines holds row (cols+1)
  have back : down.terminalCol = 0 := col' positive
  have later : Holds down.memory str (0+rows) (List.replicate cols 32++[c]) := by
    intro i d found
    have place : (reaching rows cols c)[rows+i]? = some d := by
      unfold reaching
      rw [List.getElem?_append_right (by simp),List.length_replicate,Nat.add_sub_cancel_left]
      exact found
    rw [memory,Nat.zero_add,← Nat.zero_add (rows+i)]
    exact holds (rows+i) d place
  obtain ⟨here,crossed,video'',row'',col'',held,same⟩ := printLoop_spaces (video'.trans video) (by omega) later (by omega) (by
    intro i small
    rw [row',Nat.zero_add]
    rw [List.length_singleton] at small
    exact above (rows+i) (by omega)) 1
  obtain ⟨t,ran,_,_,cell,kept⟩ := writechar_cell (s := here.seen [charAddress str (0+rows+cols)]) video''
    (by have bound : here.terminalRow < 65536 := by omega
        exact bound) (by have bound : here.terminalCol < vgaWidth := by omega
                         exact bound) other
  have char : here.memory (charAddress str (0+rows+cols)) = c := held.head
  have place : here.terminalRow*vgaWidth+here.terminalCol = (s.terminalRow+rows)*vgaWidth+cols := by
    rw [row'',row',col'',back,Nat.zero_add]
  refine ⟨t,?_,?_,fun a away => ?_⟩
  · rw [moved,crossed,printLoop,Prog.bind_run (readByte_run here _),char,Prog.bind_run ran]
    rfl
  · rw [← place]
    exact cell
  · rw [row',back,Nat.zero_add,memory] at same
    refine Eq.trans (kept a ?_) (same a away)
    show a < 0xB8000+2*(here.terminalRow*vgaWidth+here.terminalCol) ∨ 0xB8000+2*(here.terminalRow*vgaWidth+here.terminalCol)+1 < a
    rw [place]
    unfold RowBytes at away
    omega

theorem reaching_length (rows cols : Nat) (c : UInt8) : (reaching rows cols c).length = rows+(cols+1) := by
  simp [reaching]

theorem reaching_chars (nonzero : c ≠ 0) (member : d ∈ reaching rows cols c) : d ≠ 0 := by
  unfold reaching at member
  rcases List.mem_append.mp member with line | rest
  · rw [List.eq_of_mem_replicate line]
    decide
  · rcases List.mem_append.mp rest with space | last
    · rw [List.eq_of_mem_replicate space]
      decide
    · rw [List.mem_singleton.mp last]
      exact nonzero

theorem Holds.ends (holds : Holds memory str 0 (reaching rows cols c++[0])) (nonzero : c ≠ 0) (short : rows+(cols+1) < 4294967296) :
    Ends memory str (rows+(cols+1)) := by
  have size := reaching_length rows cols c
  refine ⟨short,?_,fun i inside => ?_⟩
  · have last : (reaching rows cols c++[0])[rows+(cols+1)]? = some 0 := by
      rw [← size,List.getElem?_append_right (Nat.le_refl _),Nat.sub_self]
      rfl
    have nul := holds _ _ last
    rw [Nat.zero_add] at nul
    exact nul
  · have inside' : i < (reaching rows cols c).length := by rw [size]; exact inside
    have char : (reaching rows cols c++[0])[i]? = some (reaching rows cols c)[i] := by
      rw [List.getElem?_append_left inside',List.getElem?_eq_getElem inside']
    have read := holds _ _ char
    rw [Nat.zero_add] at read
    rw [read]
    exact reaching_chars nonzero (List.getElem_mem inside')

-- The row that is written keeps clear of the bytes `used` that the call itself
-- runs on: its code, the terminal's variables and print's own on the stack.
theorem print_overwrites {s : Machine} (caller : Caller s task process) (video : s.videoMem = 0xB8000) (request : Request)
    (command : request.frame.eax = 1#32) (accepted : processValidatePointer process (message request) = true)
    (positive : 0 < rows) (row : s.terminalRow+rows < 65536) (col : cols < vgaWidth) (other : c ≠ 10) (nonzero : c ≠ 0)
    (holds : Holds request.memory (message request) 0 (reaching rows cols c++[0]))
    (above : ∀ i ≤ rows+cols, 0xB8000+2*((s.terminalRow+rows+1)*vgaWidth) ≤ charAddress (message request) i)
    (used : Nat → Prop) (clear : ∀ a, RowBytes (s.terminalRow+rows) cols a → ¬ used a) :
    ∃ t, isr80hHandler supported request.frame {s with memory := request.memory} = .ok (0,t) ∧
      t.memory (0xB8000+2*((s.terminalRow+rows)*vgaWidth+cols)) = c ∧ ∀ a, used a → t.memory a = request.memory a := by
  have start : Caller {s with memory := request.memory} task process := ⟨caller.nonnull,caller.running,caller.owner⟩
  have again := saved_caller start request.frame
  have ends := Holds.ends holds nonzero (by unfold vgaWidth at col; omega)
  have front : Holds request.memory (message request) 0 (reaching rows cols c) := by
    intro i d found
    have inside : i < (reaching rows cols c).length := (List.getElem?_eq_some_iff.mp found).1
    exact holds i d (by rw [List.getElem?_append_left inside]; exact found)
  have number : request.frame.eax.toInt = 1 := by
    rw [command]
    rfl
  have nul : request.memory (charAddress (message request) (0+(rows+(cols+1)))) = asciiTerm := by
    rw [Nat.zero_add]
    exact ends.nul
  have chars : ∀ i, i < rows+(cols+1) → request.memory (charAddress (message request) (0+i)) ≠ asciiTerm := by
    intro i inside
    rw [Nat.zero_add]
    exact ends.chars i inside
  have scanned := strlenLoop_run (Machine.seen {s with memory := request.memory, kernel := saved s.kernel task request.frame}
    (argumentAddresses request.frame.esp.toNat)) (message request) (rows+(cols+1)) 4294967296 0 ends.bounded nul chars
  rw [Nat.zero_add] at scanned
  obtain ⟨t,ran,cell,kept⟩ := printLoop_reaches (s := (Machine.seen {s with memory := request.memory, kernel := saved s.kernel task request.frame}
      (argumentAddresses request.frame.esp.toNat)).seen (charAddresses (message request) 0 (rows+(cols+1)+1)))
    video positive row col other front above
  refine ⟨t,?_,cell,fun a inUse => kept a (fun written => clear a written inUse)⟩
  unfold isr80hHandler
  rw [Prog.bind_run (saveState_run start request.frame),number,handle_print]
  unfold isr80hCommandPrint
  rw [Prog.bind_run (stackItem_run again),Prog.bind_run (validatePointer_run again _ _)]
  have pointer : processValidatePointer process (argument request.memory (frameRegisters request.frame).esp) = true := accepted
  rw [pointer,if_neg (by simp)]
  have printed : print (message request) (Machine.seen {s with memory := request.memory, kernel := saved s.kernel task request.frame}
      (argumentAddresses request.frame.esp.toNat)) = .ok ((),t) := by
    unfold print strlenAt
    rw [Prog.bind_run scanned]
    exact ran
  exact Prog.bind_run printed

-- A text at 0x400000 that takes the cursor from the corner to 0x100000, where the
-- kernel starts with the code that ran once at boot.
def kernelText (a : Nat) : UInt8 :=
  if a < 0x400000 then imageByte 0 a else (reaching 1843 16 65++[0]).getD (a-0x400000) 0

theorem kernel_byte_overwritten : ∃ t, isr80hHandler supported (sampleFrame 1#32) (sampleMachine kernelText) = .ok (0,t) ∧
    t.memory 0x100000 = 65 ∧ ∀ a, a < 0xFFFE0 ∨ 0x100002 ≤ a → t.memory a = kernelText a := by
  have place : message ⟨kernelText,sampleFrame 1#32⟩ = 0x400000 := by decide
  have size := reaching_length 1843 16 65
  have address : ∀ i ≤ 1860, charAddress 0x400000 i = 0x400000+i := fun i small => Nat.mod_eq_of_lt (by omega)
  have holds : Holds kernelText (message ⟨kernelText,sampleFrame 1#32⟩) 0 (reaching 1843 16 65++[0]) := by
    intro i d found
    have inside : i < (reaching 1843 16 65++[0]).length := (List.getElem?_eq_some_iff.mp found).1
    rw [List.length_append,size,List.length_singleton] at inside
    rw [place,Nat.zero_add,address i (by omega)]
    unfold kernelText
    rw [if_neg (by omega),Nat.add_sub_cancel_left,List.getD_eq_getElem?_getD,found]
    rfl
  have above : ∀ i ≤ 1843+16, 0xB8000+2*((0+1843+1)*vgaWidth) ≤ charAddress (message ⟨kernelText,sampleFrame 1#32⟩) i := by
    intro i small
    rw [place,address i (by omega)]
    unfold vgaWidth
    omega
  exact print_overwrites (sample_caller kernelText) rfl ⟨kernelText,sampleFrame 1#32⟩ rfl (by rw [place]; decide) (by decide) (by decide)
    (by decide) (by decide) (by decide) holds above (fun a => a < 0xFFFE0 ∨ 0x100002 ≤ a) (by
      intro a written
      have low : 0xFFFE0 ≤ a := written.1
      have high : a ≤ 0x100001 := written.2
      omega)

end NutsOS.Isr80h
