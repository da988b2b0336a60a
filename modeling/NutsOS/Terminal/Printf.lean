import NutsOS.Kernel.Boot
import NutsOS.Lib.Runs
import NutsOS.Terminal.Screen

-- terminal_initialize, and print and printf of texts the screen does not overlap.
namespace NutsOS.Terminal
open Word32 Stdutil Runs

def vgaHeight : Nat := 20
def percent : UInt8 := 0x25
def specifierS : UInt8 := 0x73

def clearRow (y : Nat) : Nat → Nat → MachineProg Unit
  | 0,_ => pure ()
  | left+1,x => do
    terminalPutchar x y asciiSpace 0
    clearRow y left (x+1)

def clearRows : Nat → Nat → MachineProg Unit
  | 0,_ => pure ()
  | left+1,y => do
    clearRow y vgaWidth 0
    clearRows left (y+1)

def terminalInitialize : MachineProg Unit := do
  Prog.modify (fun s => {s with videoMem := 0xB8000})
  setRow 0
  setCol 0
  clearRows vgaHeight 0

-- Both functions over what becomes of a character. A format is the memory from
-- its first character on, and a string argument the list of its characters.
section
variable {σ : Type} (send : UInt8 → Prog Fault σ Unit)

def sendAll : List UInt8 → Prog Fault σ Unit
  | [] => pure ()
  | c::rest => do
    send c
    sendAll rest

def sendChars : Nat → List UInt8 → Prog Fault σ Unit
  | 0,_ => pure ()
  | left+1,str => do
    send (charOf str)
    sendChars left str.tail

def sendString (str : List UInt8) : Prog Fault σ Unit := sendChars send (strlen str) str

-- The pointer passes the character behind a '%' whatever it is.
def sendFormat (fmt : Nat → UInt8) : Nat → Nat → List (List UInt8) → Prog Fault σ Unit
  | 0,_,_ => Prog.fault .unbounded
  | fuel+1,ptr,args => do
    if fmt ptr = asciiTerm then return ()
    if fmt ptr = percent then
      if fmt (ptr+1) = specifierS then
        match args with
        | [] => Prog.fault (.outOfBounds 0)
        | str::args =>
          sendString send str
          sendFormat fmt fuel (ptr+2) args
      else
        Prog.when (fmt (ptr+1) = percent) (send percent)
        sendFormat fmt fuel (ptr+2) args
    else
      send (fmt ptr)
      sendFormat fmt fuel (ptr+1) args

end

def sendToTerminal (c : UInt8) : MachineProg Unit := terminalWritechar c 15
def printString (str : List UInt8) : MachineProg Unit := sendString sendToTerminal str
def printf (fmt : Nat → UInt8) (args : List (List UInt8)) : MachineProg Unit := sendFormat sendToTerminal fmt 4294967296 0 args

def stringText (str : List UInt8) : List UInt8 := str.take (strlen str)

def formatText (fmt : Nat → UInt8) : Nat → Nat → List (List UInt8) → Option (List UInt8)
  | 0,_,_ => none
  | fuel+1,ptr,args =>
    if fmt ptr = asciiTerm then some []
    else if fmt ptr = percent then
      if fmt (ptr+1) = specifierS then
        match args with
        | [] => none
        | str::args => (formatText fmt fuel (ptr+2) args).map (stringText str++·)
      else (formatText fmt fuel (ptr+2) args).map ((if fmt (ptr+1) = percent then [percent] else [])++·)
    else (formatText fmt fuel (ptr+1) args).map (fmt ptr::·)

section
variable {σ : Type} {send : UInt8 → Prog Fault σ Unit}

theorem sendAll_cons {c : UInt8} {s t : σ} (first : send c s = .ok ((),t)) (rest : List UInt8) :
    sendAll send (c::rest) s = sendAll send rest t := Prog.bind_run first

theorem sendAll_append {one two : List UInt8} {s u : σ} (ran : sendAll send one s = .ok ((),u)) :
    sendAll send (one++two) s = sendAll send two u := by
  induction one generalizing s with
  | nil =>
    cases ran
    rfl
  | cons c rest ih =>
    obtain ⟨⟨⟩,t,first,later⟩ := Prog.bind_ok.mp ran
    rw [List.cons_append,sendAll_cons first]
    exact ih later

theorem sendString_text (str : List UInt8) : sendString send str = sendAll send (stringText str) := by
  unfold sendString stringText
  induction str with
  | nil => rfl
  | cons c rest ih =>
    rw [strlen]
    by_cases ended : c = asciiTerm
    · rw [if_pos ended]
      rfl
    · rw [if_neg ended,List.take_succ_cons]
      unfold sendChars sendAll
      rw [← ih]
      rfl

theorem sendAll_single (c : UInt8) : sendAll send [c] = send c := by
  funext s
  cases ran : send c s with
  | error e => exact Prog.bind_fault ran
  | ok result =>
    obtain ⟨⟨⟩,t⟩ := result
    exact Prog.bind_run ran

-- One turn of the loop: the format ends, an argument is missing, or characters
-- are sent and the rest of the format follows.
inductive FormatTurn (send : UInt8 → Prog Fault σ Unit) (fmt : Nat → UInt8) (fuel ptr : Nat) (args : List (List UInt8)) : Prop where
  | ended (sent : sendFormat send fmt (fuel+1) ptr args = pure ()) (text : formatText fmt (fuel+1) ptr args = some [])
  | missing (sent : sendFormat send fmt (fuel+1) ptr args = Prog.fault (.outOfBounds 0)) (text : formatText fmt (fuel+1) ptr args = none)
  | piece (front : List UInt8) (next : Nat) (later : List (List UInt8))
      (sent : sendFormat send fmt (fuel+1) ptr args = sendAll send front >>= fun _ => sendFormat send fmt fuel next later)
      (text : formatText fmt (fuel+1) ptr args = (formatText fmt fuel next later).map (front++·))

theorem formatTurn (send : UInt8 → Prog Fault σ Unit) (fmt : Nat → UInt8) (fuel ptr : Nat) (args : List (List UInt8)) :
    FormatTurn send fmt fuel ptr args := by
  by_cases ended : fmt ptr = asciiTerm
  · refine .ended ?_ ?_
    · unfold sendFormat
      rw [if_pos ended]
    · unfold formatText
      rw [if_pos ended]
  by_cases escape : fmt ptr = percent
  · by_cases string : fmt (ptr+1) = specifierS
    · cases args with
      | nil =>
        refine .missing ?_ ?_
        · rw [sendFormat,if_neg ended,if_pos escape,if_pos string]
        · rw [formatText,if_neg ended,if_pos escape,if_pos string]
      | cons str args =>
        refine .piece (stringText str) (ptr+2) args ?_ ?_
        · rw [sendFormat,if_neg ended,if_pos escape,if_pos string,← sendString_text]
        · rw [formatText,if_neg ended,if_pos escape,if_pos string]
    · have sent : Prog.when (fmt (ptr+1) = percent) (send percent) = sendAll send (if fmt (ptr+1) = percent then [percent] else []) := by
        by_cases literal : fmt (ptr+1) = percent
        · rw [Prog.when_true literal,if_pos literal,sendAll_single]
        · rw [Prog.when_false literal,if_neg literal]
          rfl
      refine .piece (if fmt (ptr+1) = percent then [percent] else []) (ptr+2) args ?_ ?_
      · conv_lhs => unfold sendFormat
        rw [if_neg ended,if_pos escape,if_neg string,sent]
      · conv_lhs => unfold formatText
        rw [if_neg ended,if_pos escape,if_neg string]
  · refine .piece [fmt ptr] (ptr+1) args ?_ ?_
    · conv_lhs => unfold sendFormat
      rw [if_neg ended,if_neg escape,sendAll_single]
    · conv_lhs => unfold formatText
      rw [if_neg ended,if_neg escape]
      rfl

theorem sendFormat_text {fmt : Nat → UInt8} {fuel ptr : Nat} {args : List (List UInt8)} {s t : σ}
    (ran : sendFormat send fmt fuel ptr args s = .ok ((),t)) :
    ∃ text, formatText fmt fuel ptr args = some text ∧ sendAll send text s = .ok ((),t) := by
  induction fuel generalizing ptr args s with
  | zero => cases ran
  | succ fuel ih =>
    cases formatTurn send fmt fuel ptr args with
    | ended sent text =>
      rw [sent] at ran
      exact ⟨[],text,ran⟩
    | missing sent text =>
      rw [sent] at ran
      cases ran
    | piece front next later sent text =>
      rw [sent] at ran
      obtain ⟨⟨⟩,one,first,ran⟩ := Prog.bind_ok.mp ran
      obtain ⟨rest,same,behind⟩ := ih ran
      refine ⟨front++rest,?_,?_⟩
      · rw [text,same]
        rfl
      · rw [sendAll_append first]
        exact behind

theorem sendFormat_run {fmt : Nat → UInt8} {fuel ptr : Nat} {args : List (List UInt8)} {text : List UInt8}
    (written : formatText fmt fuel ptr args = some text) (s : σ) (sends : ∀ c s, ∃ t, send c s = .ok ((),t)) :
    sendFormat send fmt fuel ptr args s = sendAll send text s := by
  have whole (text : List UInt8) (s : σ) : ∃ t, sendAll send text s = .ok ((),t) := by
    induction text generalizing s with
    | nil => exact ⟨s,rfl⟩
    | cons c rest ih =>
      obtain ⟨t,first⟩ := sends c s
      obtain ⟨u,later⟩ := ih t
      exact ⟨u,(sendAll_cons first rest).trans later⟩
  induction fuel generalizing ptr args s text with
  | zero => cases written
  | succ fuel ih =>
    cases formatTurn send fmt fuel ptr args with
    | ended sent same =>
      cases same.symm.trans written
      rw [sent]
      rfl
    | missing sent same => cases same.symm.trans written
    | piece front next later sent same =>
      obtain ⟨rest,behind,rfl⟩ := Option.map_eq_some_iff.mp (same.symm.trans written)
      obtain ⟨t,first⟩ := whole front s
      rw [sent,Prog.bind_run first,sendAll_append first]
      exact ih behind t

end

-- The cursor and the cells written, and what one character does to them.
structure Screen where
  row : Nat
  col : Nat
  cells : List (Nat × Nat)

def Machine.screen (s : Machine) : Screen := ⟨s.terminalRow,s.terminalCol,s.cells⟩

def Screen.feed (screen : Screen) : Screen := {screen with row := uint16 (screen.row+1), col := 0}

def Screen.write (screen : Screen) (c : UInt8) : Screen :=
  if c = 10 then screen.feed else
  let put : Screen := {screen with
    col := uint16 (screen.col+1)
    cells := screen.cells++[(screen.row*vgaWidth+screen.col,terminalMakeChar c 15)]}
  if put.col ≥ vgaWidth then put.feed else put

def Screen.writeAll (screen : Screen) (text : List UInt8) : Screen := text.foldl Screen.write screen

theorem sendToTerminal_run (s : Machine) (c : UInt8) :
    ∃ after, sendToTerminal c s = .ok ((),after) ∧ after.screen = s.screen.write c := by
  unfold sendToTerminal terminalWritechar Screen.write
  by_cases newline : c = 10
  · rw [if_pos newline,if_pos newline]
    exact ⟨_,rfl,rfl⟩
  · rw [if_neg newline,if_neg newline]
    obtain ⟨put,written,screen⟩ : ∃ put, terminalPutchar s.terminalCol s.terminalRow c 15 s = .ok ((),put) ∧
        put.screen = ⟨s.terminalRow,s.terminalCol,s.cells++[(s.terminalRow*vgaWidth+s.terminalCol,terminalMakeChar c 15)]⟩ :=
      ⟨_,rfl,rfl⟩
    let moved : Machine := {put with terminalCol := uint16 (put.terminalCol+1)}
    rw [Prog.get_bind,Prog.get_bind,Prog.bind_run written,Prog.get_bind,
      Prog.bind_run (show setCol (put.terminalCol+1) put = .ok ((),moved) from rfl),Prog.get_bind]
    have col : put.terminalCol = s.terminalCol := congrArg Screen.col screen
    have row : put.terminalRow = s.terminalRow := congrArg Screen.row screen
    have cells : put.cells = _ := congrArg Screen.cells screen
    by_cases wraps : uint16 (s.terminalCol+1) ≥ vgaWidth
    · rw [Prog.when_true (show moved.terminalCol ≥ vgaWidth by rw [← col] at wraps; exact wraps)]
      refine ⟨_,rfl,?_⟩
      show (⟨uint16 (put.terminalRow+1),_,put.cells⟩ : Screen) = if uint16 (s.terminalCol+1) ≥ vgaWidth then _ else _
      rw [if_pos wraps,row,cells]
      rfl
    · rw [Prog.when_false (show ¬ moved.terminalCol ≥ vgaWidth by rw [← col] at wraps; exact wraps)]
      refine ⟨_,rfl,?_⟩
      show (⟨put.terminalRow,uint16 (put.terminalCol+1),put.cells⟩ : Screen) = if uint16 (s.terminalCol+1) ≥ vgaWidth then _ else _
      rw [if_neg wraps,row,col,cells]
      rfl

theorem printf_sends {fmt : Nat → UInt8} {args : List (List UInt8)} {text : List UInt8}
    (written : formatText fmt 4294967296 0 args = some text) (s : Machine) : printf fmt args s = sendAll sendToTerminal text s :=
  sendFormat_run written s (fun c s => (sendToTerminal_run s c).imp (fun _ ran => ran.1))

theorem sendAll_run (s : Machine) (text : List UInt8) :
    ∃ after, sendAll sendToTerminal text s = .ok ((),after) ∧ after.screen = s.screen.writeAll text := by
  induction text generalizing s with
  | nil => exact ⟨s,rfl,rfl⟩
  | cons c rest ih =>
    obtain ⟨one,first,written⟩ := sendToTerminal_run s c
    obtain ⟨after,later,screen⟩ := ih one
    refine ⟨after,(Prog.bind_run first).trans later,?_⟩
    rw [screen,written]
    rfl

def OnScreen (screen : Screen) : Prop := ∀ entry ∈ screen.cells, entry.1 < vgaWidth*vgaHeight

-- The rows that a text takes from a column on: one for each newline, and one for
-- each line that it fills.
def rowsTaken : Nat → List UInt8 → Nat
  | _,[] => 0
  | col,c::rest => if c = 10 ∨ vgaWidth ≤ col+1 then rowsTaken 0 rest+1 else rowsTaken (col+1) rest

-- In front of each character but the newlines the text has not left the rows of
-- the screen. The row is a uint16_t.
def Fits (row col : Nat) (text : List UInt8) : Prop :=
  ∀ i c, text[i]? = some c → c ≠ 10 → (row+rowsTaken col (text.take i))%65536 < vgaHeight

instance (row col : Nat) (text : List UInt8) : Decidable (Fits row col text) :=
  decidable_of_iff (∀ i : Fin text.length, text.get i ≠ 10 → (row+rowsTaken col (text.take i))%65536 < vgaHeight) <| by
    constructor
    · intro all i c found other
      obtain ⟨less,rfl⟩ := List.getElem?_eq_some_iff.mp found
      exact all ⟨i,less⟩ other
    · exact fun all i other => all i _ (List.getElem?_eq_getElem i.isLt) other

structure Inside (screen : Screen) : Prop where
  cells : OnScreen screen
  row : screen.row < 65536
  col : screen.col < vgaWidth

theorem Screen.write_cursor (screen : Screen) (inside : screen.col < vgaWidth) (c : UInt8) :
    (screen.write c).row = (if c = 10 ∨ vgaWidth ≤ screen.col+1 then uint16 (screen.row+1) else screen.row) ∧
      (screen.write c).col = if c = 10 ∨ vgaWidth ≤ screen.col+1 then 0 else screen.col+1 := by
  have small : uint16 (screen.col+1) = screen.col+1 := by
    unfold vgaWidth at inside
    exact Nat.mod_eq_of_lt (by omega)
  unfold Screen.write
  by_cases newline : c = 10
  · rw [if_pos newline,if_pos (.inl newline),if_pos (.inl newline)]
    exact ⟨rfl,rfl⟩
  rw [if_neg newline]
  dsimp only
  rw [small]
  by_cases full : vgaWidth ≤ screen.col+1
  · rw [if_pos full,if_pos (.inr full),if_pos (.inr full)]
    exact ⟨rfl,rfl⟩
  · have on := not_or.mpr ⟨newline,full⟩
    rw [if_neg full,if_neg on,if_neg on]
    exact ⟨rfl,rfl⟩

theorem Screen.write_cells (screen : Screen) (c : UInt8) :
    (screen.write c).cells = if c = 10 then screen.cells else screen.cells++[(screen.row*vgaWidth+screen.col,terminalMakeChar c 15)] := by
  unfold Screen.write
  by_cases newline : c = 10
  · rw [if_pos newline,if_pos newline]
    rfl
  · rw [if_neg newline,if_neg newline]
    dsimp only
    split <;> rfl

theorem write_bounds (screen : Screen) (row : screen.row < 65536) (col : screen.col < vgaWidth) (c : UInt8) :
    (screen.write c).row < 65536 ∧ (screen.write c).col < vgaWidth := by
  obtain ⟨toRow,toCol⟩ := screen.write_cursor col c
  rw [toRow,toCol]
  by_cases fed : c = 10 ∨ vgaWidth ≤ screen.col+1
  · rw [if_pos fed,if_pos fed]
    exact ⟨Nat.mod_lt _ (by decide),by decide⟩
  · rw [if_neg fed,if_neg fed]
    exact ⟨row,Nat.lt_of_not_le (not_or.mp fed).2⟩

theorem rows_later (screen : Screen) (col : screen.col < vgaWidth) (c : UInt8) (text : List UInt8) :
    (screen.row+rowsTaken screen.col (c::text))%65536 = ((screen.write c).row+rowsTaken (screen.write c).col text)%65536 := by
  obtain ⟨toRow,toCol⟩ := screen.write_cursor col c
  rw [rowsTaken,toRow,toCol]
  by_cases fed : c = 10 ∨ vgaWidth ≤ screen.col+1
  · rw [if_pos fed,if_pos fed,if_pos fed]
    unfold uint16
    omega
  · rw [if_neg fed,if_neg fed,if_neg fed]

theorem fits_cons (screen : Screen) (row : screen.row < 65536) (col : screen.col < vgaWidth) (c : UInt8) (text : List UInt8) :
    Fits screen.row screen.col (c::text) ↔
      (c = 10 ∨ screen.row < vgaHeight) ∧ Fits (screen.write c).row (screen.write c).col text := by
  constructor
  · intro fits
    refine ⟨?_,fun i d found other => ?_⟩
    · by_cases newline : c = 10
      · exact .inl newline
      · have first := fits 0 c rfl newline
        rw [List.take_zero,rowsTaken,Nat.add_zero,Nat.mod_eq_of_lt row] at first
        exact .inr first
    · have later := fits (i+1) d found other
      rw [List.take_succ_cons,rows_later screen col] at later
      exact later
  · rintro ⟨here,later⟩ i d found other
    cases i with
    | zero =>
      cases found
      rw [List.take_zero,rowsTaken,Nat.add_zero,Nat.mod_eq_of_lt row]
      exact here.resolve_left other
    | succ i =>
      rw [List.take_succ_cons,rows_later screen col]
      exact later i d found other

theorem write_inside (screen : Screen) (inside : Inside screen) (c : UInt8) :
    OnScreen (screen.write c) ↔ c = 10 ∨ screen.row < vgaHeight := by
  have col := inside.col
  unfold vgaWidth at col
  unfold OnScreen
  rw [Screen.write_cells]
  by_cases newline : c = 10
  · rw [if_pos newline]
    exact iff_of_true inside.cells (.inl newline)
  rw [if_neg newline]
  constructor
  · intro cells
    have last := cells _ (List.mem_append_right _ (List.mem_singleton.mpr rfl))
    unfold vgaWidth vgaHeight at last
    refine .inr ?_
    unfold vgaHeight
    dsimp only at last
    omega
  · intro fits entry member
    rcases List.mem_append.mp member with old | new
    · exact inside.cells entry old
    · have row := fits.resolve_left newline
      rw [List.mem_singleton.mp new]
      unfold vgaWidth vgaHeight at *
      dsimp only
      omega

theorem writeAll_offscreen (screen : Screen) (text : List UInt8) (off : ¬ OnScreen screen) : ¬ OnScreen (screen.writeAll text) := by
  induction text generalizing screen with
  | nil => exact off
  | cons c rest ih =>
    refine ih (screen.write c) (fun written => off (fun entry member => written entry ?_))
    rw [Screen.write_cells]
    split
    · exact member
    · exact List.mem_append_left _ member

theorem writeAll_inside (screen : Screen) (inside : Inside screen) (text : List UInt8) :
    (Fits screen.row screen.col text → Inside (screen.writeAll text)) ∧
      (¬ Fits screen.row screen.col text → ¬ OnScreen (screen.writeAll text)) := by
  induction text generalizing screen with
  | nil => exact ⟨fun _ => inside,fun bad => absurd (fun i c found => by cases found) bad⟩
  | cons c rest ih =>
    have step := write_inside screen inside c
    obtain ⟨row,col⟩ := write_bounds screen inside.row inside.col c
    rw [fits_cons screen inside.row inside.col]
    by_cases here : c = 10 ∨ screen.row < vgaHeight
    · obtain ⟨keeps,breaks⟩ := ih (screen.write c) ⟨step.mpr here,row,col⟩
      exact ⟨fun fits => keeps fits.2,fun bad => breaks (fun later => bad ⟨here,later⟩)⟩
    · refine ⟨fun fits => absurd fits.1 here,fun _ => ?_⟩
      exact writeAll_offscreen (screen.write c) rest (fun on => here (step.mp on))

-- terminal_initialize clears cells of the screen only, and leaves the cursor at
-- the start.
structure Cleared (s t : Machine) : Prop where
  row : t.terminalRow = s.terminalRow
  col : t.terminalCol = s.terminalCol
  cells : ∃ cleared, t.cells = s.cells++cleared ∧ ∀ entry ∈ cleared, entry.1 < vgaWidth*vgaHeight

theorem Cleared.refl (s : Machine) : Cleared s s := ⟨rfl,rfl,[],by simp,by simp⟩

theorem Cleared.trans (one : Cleared s t) (two : Cleared t u) : Cleared s u := by
  obtain ⟨first,cellsOne,insideOne⟩ := one.cells
  obtain ⟨second,cellsTwo,insideTwo⟩ := two.cells
  refine ⟨two.row.trans one.row,two.col.trans one.col,first++second,?_,?_⟩
  · rw [cellsTwo,cellsOne,List.append_assoc]
  · intro entry member
    rcases List.mem_append.mp member with early | late
    · exact insideOne entry early
    · exact insideTwo entry late

theorem clearRow_run (s : Machine) (count x : Nat) (fits : x+count ≤ vgaWidth) (inside : y < vgaHeight) :
    ∃ t, clearRow y count x s = .ok ((),t) ∧ Cleared s t := by
  induction count generalizing s x with
  | zero => exact ⟨s,rfl,.refl s⟩
  | succ count ih =>
    obtain ⟨put,written,cleared⟩ : ∃ put, terminalPutchar x y asciiSpace 0 s = .ok ((),put) ∧ Cleared s put := by
      refine ⟨_,rfl,rfl,rfl,[_],rfl,fun entry member => ?_⟩
      rw [List.mem_singleton.mp member]
      unfold vgaWidth vgaHeight at *
      dsimp only
      omega
    obtain ⟨t,rest,later⟩ := ih put (x+1) (by omega)
    exact ⟨t,(Prog.bind_run written).trans rest,cleared.trans later⟩

theorem clearRows_run (s : Machine) (count y : Nat) (fits : y+count ≤ vgaHeight) :
    ∃ t, clearRows count y s = .ok ((),t) ∧ Cleared s t := by
  induction count generalizing s y with
  | zero => exact ⟨s,rfl,.refl s⟩
  | succ count ih =>
    obtain ⟨one,first,cleared⟩ := clearRow_run (y := y) s vgaWidth 0 (by omega) (by omega)
    obtain ⟨t,rest,later⟩ := ih one (y+1) (by omega)
    exact ⟨t,(Prog.bind_run first).trans rest,cleared.trans later⟩

theorem terminalInitialize_inside (s : Machine) (fresh : s.cells = []) :
    ∃ t, terminalInitialize s = .ok ((),t) ∧ Inside t.screen ∧ t.screen.row = 0 ∧ t.screen.col = 0 := by
  let start : Machine := {s with videoMem := 0xB8000, terminalRow := 0, terminalCol := 0}
  obtain ⟨t,ran,cleared⟩ := clearRows_run start vgaHeight 0 (Nat.le_refl _)
  obtain ⟨cells,same,inside⟩ := cleared.cells
  have empty : start.cells = [] := fresh
  have col : t.terminalCol = 0 := cleared.col
  have row : t.terminalRow = 0 := cleared.row
  refine ⟨t,ran,⟨?_,?_,?_⟩,row,col⟩
  · intro entry member
    have written : entry ∈ t.cells := member
    rw [same,empty,List.nil_append] at written
    exact inside entry written
  · show t.terminalRow < 65536
    rw [row]
    decide
  · show t.terminalCol < vgaWidth
    rw [col]
    decide

inductive Call where
  | print (str : List UInt8)
  | printf (fmt : Nat → UInt8) (args : List (List UInt8))

def Call.run : Call → MachineProg Unit
  | .print str => printString str
  | .printf fmt args => Terminal.printf fmt args

def Call.text : Call → Option (List UInt8)
  | .print str => some (stringText str)
  | .printf fmt args => formatText fmt 4294967296 0 args

def CallStep (s : Machine) (call : Call) (t : Machine) : Prop := call.run s = .ok ((),t)

def CallFits (s : Machine) (call : Call) : Prop := ∀ text, call.text = some text → Fits s.terminalRow s.terminalCol text

theorem call_text {s t : Machine} {call : Call} (step : CallStep s call t) :
    ∃ text, call.text = some text ∧ t.screen = s.screen.writeAll text := by
  have ⟨text,same,sent⟩ : ∃ text, call.text = some text ∧ sendAll sendToTerminal text s = .ok ((),t) := by
    cases call with
    | print str =>
      refine ⟨stringText str,rfl,?_⟩
      rw [← sendString_text]
      exact step
    | printf fmt args => exact sendFormat_text step
  obtain ⟨after,ran,screen⟩ := sendAll_run s text
  rw [ran] at sent
  cases sent
  exact ⟨text,same,screen⟩

theorem print_text {s t : Machine} (ran : print str s = .ok ((),t)) : ∃ text, t.screen = s.screen.writeAll text := by
  have loop (count i : Nat) (s t : Machine) (ran : printLoop str count i s = .ok ((),t)) : ∃ text, t.screen = s.screen.writeAll text := by
    induction count generalizing s i with
    | zero =>
      cases ran
      exact ⟨[],rfl⟩
    | succ count ih =>
      rw [printLoop,Prog.bind_run (readByte_run s _)] at ran
      obtain ⟨one,first,written⟩ := sendToTerminal_run (s.seen [charAddress str i]) (s.memory (charAddress str i))
      rw [Prog.bind_run (show terminalWritechar (s.memory (charAddress str i)) 15 _ = _ from first)] at ran
      obtain ⟨text,screen⟩ := ih (i+1) one ran
      exact ⟨s.memory (charAddress str i)::text,by rw [screen,written]; rfl⟩
  obtain ⟨len,one,scanned,ran⟩ := Prog.bind_ok.mp ran
  obtain ⟨text,screen⟩ := loop len 0 one t ran
  have same (fuel i : Nat) (s one : Machine) (scanned : strlenLoop (fun i => readByte (charAddress str i)) fuel i s = .ok (len,one)) :
      one.screen = s.screen := by
    induction fuel generalizing s i with
    | zero => cases scanned
    | succ fuel ih =>
      rw [strlenLoop,Prog.bind_run (readByte_run s _)] at scanned
      split at scanned
      · cases scanned
        rfl
      · exact ih (i+1) (s.seen [charAddress str i]) scanned
  rw [same _ _ _ _ scanned] at screen
  exact ⟨text,screen⟩

theorem call_keeps (s : Machine) (call : Call) (t : Machine) (inside : Inside s.screen) (fits : CallFits s call) (step : CallStep s call t) :
    Inside t.screen := by
  obtain ⟨text,same,screen⟩ := call_text step
  rw [screen]
  exact (writeAll_inside s.screen inside text).1 (fits text same)

theorem call_breaks (s : Machine) (call : Call) (t : Machine) (inside : Inside s.screen) (exceeds : ¬ CallFits s call) (step : CallStep s call t) :
    ¬ OnScreen t.screen := by
  obtain ⟨text,same,screen⟩ := call_text step
  rw [screen]
  refine (writeAll_inside s.screen inside text).2 (fun fits => exceeds (fun other also => ?_))
  rw [same] at also
  cases also
  exact fits

theorem screen_kept_iff (fresh : s.cells = []) (booted : terminalInitialize s = .ok ((),t)) (ran : IsRun CallStep t trace) :
    Always (fun u => OnScreen u.screen) t trace ↔ Guarded CallFits t trace := by
  obtain ⟨t',booted',inside,_⟩ := terminalInitialize_inside s fresh
  rw [booted'] at booted
  cases booted
  have safe (u : Machine) (holds : Inside u.screen) : OnScreen u.screen := holds.cells
  exact always_iff_guarded call_keeps safe call_breaks inside ran

def blankMachine (k : Kernel) : Machine := ⟨k,fun _ => 0,0,0,0,[],[]⟩

theorem call_run {call : Call} (written : call.text = some text) (s : Machine) : ∃ t, CallStep s call t ∧ t.screen = s.screen.writeAll text := by
  obtain ⟨t,ran,screen⟩ := sendAll_run s text
  refine ⟨t,?_,screen⟩
  cases call with
  | print str =>
    cases written
    show sendString sendToTerminal str s = _
    rw [sendString_text]
    exact ran
  | printf fmt args => exact (printf_sends written s).trans ran

-- The calls print("A\nBC") and printf("%s\n","D"), from the third column of the
-- second row on in the latter.
def twoLines : List UInt8 := [0x41,10,0x42,0x43]
def oneLine : Nat → UInt8 := fun i => [percent,specifierS,10].getD i 0

theorem two_lines_kept : ∃ s t u v, s.cells = [] ∧ terminalInitialize s = .ok ((),t) ∧
    IsRun CallStep t [(.print twoLines,u),(.printf oneLine [[0x44]],v)] ∧
    Always (fun w => OnScreen w.screen) t [(Call.print twoLines,u),(.printf oneLine [[0x44]],v)] := by
  obtain ⟨t,booted,_,row,col⟩ := terminalInitialize_inside (blankMachine (bootKernel bootEntries noDisk)) rfl
  have first : (Call.print twoLines).text = some twoLines := rfl
  have second : (Call.printf oneLine [[0x44]]).text = some [0x44,10] := by
    show formatText oneLine (4294967293+3) 0 [[0x44]] = _
    rfl
  obtain ⟨u,print,screen⟩ := call_run first t
  obtain ⟨v,printf,_⟩ := call_run second u
  have ran : IsRun CallStep t [(.print twoLines,u),(.printf oneLine [[0x44]],v)] := ⟨print,printf,trivial⟩
  have moved : u.screen.row = 1 ∧ u.screen.col = 2 := by
    rw [screen]
    generalize t.screen = start at row col
    obtain ⟨_,_,cells⟩ := start
    cases row
    cases col
    exact ⟨rfl,rfl⟩
  refine ⟨_,t,u,v,rfl,booted,ran,(screen_kept_iff rfl booted ran).mpr ⟨fun text same => ?_,fun text same => ?_,trivial⟩⟩
  · cases first.symm.trans same
    rw [show t.terminalRow = 0 from row,show t.terminalCol = 0 from col]
    decide
  · cases second.symm.trans same
    rw [show u.terminalRow = 1 from moved.1,show u.terminalCol = 2 from moved.2]
    decide

def crossing : List UInt8 := List.replicate 20 10++[0x41]

theorem rowsTaken_newlines (count : Nat) : rowsTaken 0 (List.replicate count 10) = count := by
  induction count with
  | zero => rfl
  | succ count ih => rw [List.replicate_succ,rowsTaken,if_pos (.inl rfl),ih]

theorem screen_overrun : ∃ s t u, s.cells = [] ∧ terminalInitialize s = .ok ((),t) ∧ CallStep t (.print crossing) u ∧ ¬ OnScreen u.screen := by
  obtain ⟨t,booted,inside,row,col⟩ := terminalInitialize_inside (blankMachine (bootKernel bootEntries noDisk)) rfl
  obtain ⟨u,ran,screen⟩ := sendAll_run t (stringText crossing)
  refine ⟨_,t,u,rfl,booted,?_,?_⟩
  · show sendString sendToTerminal crossing t = _
    rw [sendString_text]
    exact ran
  · rw [screen]
    refine (writeAll_inside t.screen inside _).2 (fun fits => ?_)
    rw [row,col] at fits
    have last := fits 20 0x41 rfl (by decide)
    rw [show (stringText crossing).take 20 = List.replicate 20 10 from rfl,rowsTaken_newlines] at last
    exact absurd last (by decide)

end NutsOS.Terminal
