import NutsOS.Lib.WriteLog
import NutsOS.Terminal.Printf

-- sprintf, against printf.
namespace NutsOS.Stdutil
open Word32 Terminal WriteLog

-- What sprintf reads of the format and writes to the buffer, by positions
-- from the start of each.
structure Transcript where
  reads : List Nat
  writes : List (Nat × UInt8)

abbrev SprintfProg := Prog Fault Transcript

def readFormat (fmt : Nat → UInt8) (ptr : Nat) : SprintfProg UInt8 := do
  Prog.modify (fun t => {t with reads := t.reads++[ptr]})
  return fmt ptr

def putAt (str : Nat) (c : UInt8) : SprintfProg Unit := Prog.modify (fun t => {t with writes := t.writes++[(str,c)]})

def strcpy : Nat → List UInt8 → SprintfProg Unit
  | dest,[] => putAt dest asciiTerm
  | dest,c::src => do
    putAt dest c
    if c = asciiTerm then return ()
    strcpy (dest+1) src

def sprintfLoop (fmt : Nat → UInt8) : Nat → Nat → List (List UInt8) → Nat → Nat → SprintfProg Nat
  | 0,_,_,_,_ => Prog.fault .unbounded
  | fuel+1,ptr,args,str,count => do
    if (← readFormat fmt ptr) = asciiTerm then return count
    if (← readFormat fmt ptr) = percent then
      let c ← readFormat fmt (ptr+1)
      if c = specifierS then
        match args with
        | [] => Prog.fault (.outOfBounds 0)
        | token::args =>
          strcpy str token
          sprintfLoop fmt fuel (ptr+2) args (str+strlen token) (count+1)
      else if c = percent then
        putAt str percent
        sprintfLoop fmt fuel (ptr+2) args (str+1) (count+1)
      else sprintfLoop fmt fuel (ptr+2) args str (count+1)
    else
      putAt str (← readFormat fmt ptr)
      sprintfLoop fmt fuel (ptr+1) args (str+1) (count+1)

-- count is an int.
def sprintf (fmt : Nat → UInt8) (args : List (List UInt8)) : SprintfProg Int := do
  let count ← sprintfLoop fmt 4294967296 0 args 0 0
  return toInt32 count

def Spells (fmt : Nat → UInt8) : Nat → List UInt8 → Prop
  | ptr,[] => fmt ptr = asciiTerm
  | ptr,c::rest => fmt ptr = c ∧ c ≠ asciiTerm ∧ Spells fmt (ptr+1) rest

-- A format, piece by piece.
inductive Piece where
  | char (c : UInt8)
  | percent
  | string
  | unknown
  | lone
  deriving DecidableEq

def pieceOf (c : UInt8) : Piece := if c = specifierS then .string else if c = percent then .percent else .unknown

def piecesOf : List UInt8 → List Piece
  | [] => []
  | [c] => [if c = percent then .lone else .char c]
  | c::d::rest => if c = percent then pieceOf d::piecesOf rest else .char c::piecesOf (d::rest)

def shown : List Piece → List (List UInt8) → List UInt8
  | .char c::rest,args => c::shown rest args
  | .percent::rest,args => percent::shown rest args
  | .string::rest,str::args => stringText str++shown rest args
  | .unknown::rest,args => shown rest args
  | _,_ => []

def lastStored : List Piece → Option Piece
  | [] => none
  | .unknown::rest => lastStored rest
  | piece::rest => (lastStored rest).or (some piece)

def copied (dest : Nat) : List UInt8 → List (Nat × UInt8)
  | [] => [(dest,asciiTerm)]
  | c::rest => (dest,c)::copied (dest+1) rest

def pieceWrites : Nat → List Piece → List (List UInt8) → List (Nat × UInt8)
  | str,.char c::rest,args => (str,c)::pieceWrites (str+1) rest args
  | str,.percent::rest,args => (str,percent)::pieceWrites (str+1) rest args
  | str,.string::rest,token::args => copied str (stringText token)++pieceWrites (str+strlen token) rest args
  | str,.unknown::rest,args => pieceWrites str rest args
  | _,_,_ => []

def Matching (pieces : List Piece) (args : List (List UInt8)) : Prop := args.length = pieces.countP (· = .string)

theorem matching_plain (plain : piece ≠ .string) (matching : Matching (piece::pieces) args) : Matching pieces args := by
  unfold Matching at matching
  rw [List.countP_cons_of_neg (by simpa using plain)] at matching
  exact matching

theorem matching_string (matching : Matching (.string::pieces) args) : ∃ token later, args = token::later ∧ Matching pieces later := by
  unfold Matching at matching
  rw [List.countP_cons_of_pos (by simp)] at matching
  obtain ⟨token,later,rfl⟩ := List.exists_cons_of_length_eq_add_one matching
  exact ⟨token,later,rfl,Nat.succ.inj matching⟩

theorem stringText_end (rest : List UInt8) : stringText (asciiTerm::rest) = [] := rfl

theorem stringText_cons (char : c ≠ asciiTerm) (rest : List UInt8) : stringText (c::rest) = c::stringText rest := by
  unfold stringText
  rw [strlen,if_neg char,List.take_succ_cons]

theorem stringText_length (str : List UInt8) : (stringText str).length = strlen str := by
  induction str with
  | nil => rfl
  | cons c rest ih =>
    by_cases ended : c = asciiTerm
    · rw [ended,stringText_end,strlen,if_pos rfl]
      rfl
    · rw [stringText_cons ended,strlen,if_neg ended,List.length_cons,ih]

theorem strcpy_run (dest : Nat) (src : List UInt8) (t : Transcript) :
    strcpy dest src t = .ok ((),{t with writes := t.writes++copied dest (stringText src)}) := by
  induction src generalizing dest t with
  | nil => rfl
  | cons c rest ih =>
    unfold strcpy
    rw [Prog.bind_run (show putAt dest c t = .ok ((),{t with writes := t.writes++[(dest,c)]}) from rfl)]
    by_cases ended : c = asciiTerm
    · rw [if_pos ended,ended,stringText_end]
      rfl
    · rw [if_neg ended,ih,stringText_cons ended,copied,List.append_assoc]
      rfl

def Transcript.step (t : Transcript) (reads : List Nat) (writes : List (Nat × UInt8)) : Transcript :=
  ⟨t.reads++reads,t.writes++writes⟩

theorem readFormat_run (fmt : Nat → UInt8) (ptr : Nat) (t : Transcript) : readFormat fmt ptr t = .ok (fmt ptr,t.step [ptr] []) := by
  simp [readFormat,Transcript.step]

theorem putAt_run (str : Nat) (c : UInt8) (t : Transcript) : putAt str c t = .ok ((),t.step [] [(str,c)]) := by
  simp [putAt,Transcript.step]

@[simp] theorem step_step (t : Transcript) (r s : List Nat) (w x : List (Nat × UInt8)) :
    (t.step r w).step s x = t.step (r++s) (w++x) := by
  simp [Transcript.step]

theorem sprintf_end {fmt : Nat → UInt8} (ended : fmt ptr = asciiTerm) (fuel : Nat) (args : List (List UInt8)) (str count : Nat)
    (t : Transcript) : sprintfLoop fmt (fuel+1) ptr args str count t = .ok (count,t.step [ptr] []) := by
  unfold sprintfLoop
  rw [Prog.bind_run (readFormat_run fmt ptr t),if_pos ended]
  rfl

theorem sprintf_char {fmt : Nat → UInt8} (more : fmt ptr ≠ asciiTerm) (literal : fmt ptr ≠ percent) (fuel : Nat) (args : List (List UInt8))
    (str count : Nat) (t : Transcript) : sprintfLoop fmt (fuel+1) ptr args str count t =
      sprintfLoop fmt fuel (ptr+1) args (str+1) (count+1) (t.step [ptr,ptr,ptr] [(str,fmt ptr)]) := by
  conv_lhs => unfold sprintfLoop
  rw [Prog.bind_run (readFormat_run fmt ptr _),if_neg more,Prog.bind_run (readFormat_run fmt ptr _),if_neg literal,
    Prog.bind_run (readFormat_run fmt ptr _),Prog.bind_run (putAt_run _ _ _)]
  simp

theorem sprintf_escape {fmt : Nat → UInt8} (escape : fmt ptr = percent) (fuel : Nat) (args : List (List UInt8)) (str count : Nat)
    (t : Transcript) : sprintfLoop fmt (fuel+1) ptr args str count t =
      (if fmt (ptr+1) = specifierS then
        match args with
        | [] => Prog.fault (.outOfBounds 0)
        | token::args => do
          strcpy str token
          sprintfLoop fmt fuel (ptr+2) args (str+strlen token) (count+1)
      else if fmt (ptr+1) = percent then do
        putAt str percent
        sprintfLoop fmt fuel (ptr+2) args (str+1) (count+1)
      else sprintfLoop fmt fuel (ptr+2) args str (count+1) : SprintfProg Nat) (t.step [ptr,ptr,ptr+1] []) := by
  conv_lhs => unfold sprintfLoop
  rw [Prog.bind_run (readFormat_run fmt ptr _),if_neg (by rw [escape]; decide),Prog.bind_run (readFormat_run fmt ptr _),if_pos escape,
    Prog.bind_run (readFormat_run fmt (ptr+1) _)]
  simp only [step_step,List.nil_append,List.cons_append]

theorem sprintf_string {fmt : Nat → UInt8} (escape : fmt ptr = percent) (string : fmt (ptr+1) = specifierS) (fuel : Nat) (token : List UInt8)
    (args : List (List UInt8)) (str count : Nat) (t : Transcript) : sprintfLoop fmt (fuel+1) ptr (token::args) str count t =
      sprintfLoop fmt fuel (ptr+2) args (str+strlen token) (count+1) (t.step [ptr,ptr,ptr+1] (copied str (stringText token))) := by
  rw [sprintf_escape escape,if_pos string]
  dsimp only
  rw [Prog.bind_run (strcpy_run str token _)]
  simp [Transcript.step]

theorem sprintf_percent {fmt : Nat → UInt8} (escape : fmt ptr = percent) (literal : fmt (ptr+1) = percent) (fuel : Nat)
    (args : List (List UInt8)) (str count : Nat) (t : Transcript) : sprintfLoop fmt (fuel+1) ptr args str count t =
      sprintfLoop fmt fuel (ptr+2) args (str+1) (count+1) (t.step [ptr,ptr,ptr+1] [(str,percent)]) := by
  rw [sprintf_escape escape,literal,if_neg (by decide),if_pos rfl,Prog.bind_run (putAt_run _ _ _)]
  simp

theorem sprintf_unknown {fmt : Nat → UInt8} (escape : fmt ptr = percent) (other : fmt (ptr+1) ≠ specifierS) (unlike : fmt (ptr+1) ≠ percent)
    (fuel : Nat) (args : List (List UInt8)) (str count : Nat) (t : Transcript) : sprintfLoop fmt (fuel+1) ptr args str count t =
      sprintfLoop fmt fuel (ptr+2) args str (count+1) (t.step [ptr,ptr,ptr+1] []) := by
  rw [sprintf_escape escape,if_neg other,if_neg unlike]

-- How the memory from ptr on gives the pieces of a format of some length.
inductive Spelled (fmt : Nat → UInt8) : Nat → Nat → List Piece → Prop where
  | nil (ended : fmt ptr = asciiTerm) : Spelled fmt ptr 0 []
  | char (more : fmt ptr ≠ asciiTerm) (literal : fmt ptr ≠ percent) (later : Spelled fmt (ptr+1) len pieces) :
      Spelled fmt ptr (len+1) (.char (fmt ptr)::pieces)
  | string (escape : fmt ptr = Terminal.percent) (specifier : fmt (ptr+1) = specifierS) (later : Spelled fmt (ptr+2) len pieces) :
      Spelled fmt ptr (len+2) (.string::pieces)
  | percent (escape : fmt ptr = Terminal.percent) (literal : fmt (ptr+1) = Terminal.percent) (later : Spelled fmt (ptr+2) len pieces) :
      Spelled fmt ptr (len+2) (.percent::pieces)
  | unknown (escape : fmt ptr = Terminal.percent) (other : fmt (ptr+1) ≠ specifierS) (unlike : fmt (ptr+1) ≠ Terminal.percent)
      (later : Spelled fmt (ptr+2) len pieces) : Spelled fmt ptr (len+2) (.unknown::pieces)
  | lone (escape : fmt ptr = Terminal.percent) (ended : fmt (ptr+1) = asciiTerm) : Spelled fmt ptr 1 [.lone]

theorem spelled (text : List UInt8) {fmt : Nat → UInt8} (spells : Spells fmt ptr text) : Spelled fmt ptr text.length (piecesOf text) := by
  induction text using piecesOf.induct generalizing ptr with
  | case1 => exact .nil spells
  | case2 c =>
    obtain ⟨rfl,more,ended⟩ := spells
    unfold piecesOf
    by_cases escape : fmt ptr = percent
    · rw [if_pos escape]
      exact .lone escape ended
    · rw [if_neg escape]
      exact .char more escape (.nil ended)
  | case3 d rest ih =>
    obtain ⟨escape,_,rfl,_,later⟩ := spells
    rw [piecesOf,if_pos rfl]
    unfold pieceOf
    by_cases string : fmt (ptr+1) = specifierS
    · rw [if_pos string]
      exact .string escape string (ih later)
    · rw [if_neg string]
      by_cases literal : fmt (ptr+1) = percent
      · rw [if_pos literal]
        exact .percent escape literal (ih later)
      · rw [if_neg literal]
        exact .unknown escape string literal (ih later)
  | case4 c d rest literal ih =>
    obtain ⟨rfl,more,later⟩ := spells
    rw [piecesOf,if_neg literal]
    exact .char more literal (ih later)

theorem fueled {len fuel : Nat} (enough : len < fuel) : ∃ f, fuel = f+1 := ⟨fuel-1,by omega⟩

theorem percent_more {c : UInt8} (escape : c = percent) : c ≠ asciiTerm := by
  rw [escape]
  decide

theorem sprintf_turn {fmt : Nat → UInt8} {early : List Nat} {t : Transcript}
    (turn : sprintfLoop fmt (fuel+1) ptr args str count t = sprintfLoop fmt fuel behind later next (count+1) (t.step early written))
    (front : ∀ p ∈ early, p ≤ last)
    (rest : ∃ reads, sprintfLoop fmt fuel behind later next (count+1) (t.step early written) =
      .ok (count+1+pieces,(t.step early written).step reads writes) ∧ ∀ p ∈ reads, p ≤ last) :
    ∃ reads, sprintfLoop fmt (fuel+1) ptr args str count t = .ok (count+(pieces+1),t.step reads (written++writes)) ∧ ∀ p ∈ reads, p ≤ last := by
  obtain ⟨reads,ran,inside⟩ := rest
  refine ⟨early++reads,?_,?_⟩
  · rw [turn,ran,step_step,Nat.add_right_comm,Nat.add_assoc]
  · intro p member
    rcases List.mem_append.mp member with first | behind
    · exact front p first
    · exact inside p behind

theorem sprintf_run {fmt : Nat → UInt8} (spelled : Spelled fmt ptr len pieces) (whole : .lone ∉ pieces) (fuel : Nat)
    (enough : len < fuel) (matching : Matching pieces args) (str count : Nat) (t : Transcript) :
    ∃ reads, sprintfLoop fmt fuel ptr args str count t =
      .ok (count+pieces.length,t.step reads (pieceWrites str pieces args)) ∧ ∀ p ∈ reads, p ≤ ptr+len := by
  have ahead (a b n : Nat) : a+b+n = a+(n+b) := by omega
  induction spelled generalizing fuel args str count t with
  | nil ended =>
    obtain ⟨fuel,rfl⟩ := fueled enough
    exact ⟨_,sprintf_end ended fuel args str count t,by simp⟩
  | char more literal later ih =>
    obtain ⟨fuel,rfl⟩ := fueled enough
    refine sprintf_turn (sprintf_char more literal _ args str count t) (by simp) ?_
    rw [← ahead]
    exact ih (List.not_mem_of_not_mem_cons whole) fuel (by omega) (matching_plain (by simp) matching) _ _ _
  | string escape specifier later ih =>
    obtain ⟨fuel,rfl⟩ := fueled enough
    obtain ⟨token,args,rfl,fits⟩ := matching_string matching
    refine sprintf_turn (sprintf_string escape specifier _ token args str count t) (by simp) ?_
    rw [← ahead]
    exact ih (List.not_mem_of_not_mem_cons whole) fuel (by omega) fits _ _ _
  | percent escape literal later ih =>
    obtain ⟨fuel,rfl⟩ := fueled enough
    refine sprintf_turn (sprintf_percent escape literal _ args str count t) (by simp) ?_
    rw [← ahead]
    exact ih (List.not_mem_of_not_mem_cons whole) fuel (by omega) (matching_plain (by simp) matching) _ _ _
  | unknown escape other unlike later ih =>
    obtain ⟨fuel,rfl⟩ := fueled enough
    refine sprintf_turn (sprintf_unknown escape other unlike _ args str count t) (by simp) ?_
    rw [← ahead]
    exact ih (List.not_mem_of_not_mem_cons whole) fuel (by omega) (matching_plain (by simp) matching) _ _ _
  | lone => exact absurd List.mem_cons_self whole

theorem formatText_shown {fmt : Nat → UInt8} (spelled : Spelled fmt ptr len pieces) (whole : .lone ∉ pieces) (fuel : Nat)
    (enough : len < fuel) (matching : Matching pieces args) : formatText fmt fuel ptr args = some (shown pieces args) := by
  induction spelled generalizing fuel args with
  | nil ended =>
    obtain ⟨fuel,rfl⟩ := fueled enough
    unfold formatText
    rw [if_pos ended]
    rfl
  | char more literal later ih =>
    obtain ⟨fuel,rfl⟩ := fueled enough
    have rest := ih (List.not_mem_of_not_mem_cons whole) fuel (by omega) (matching_plain (by simp) matching)
    conv_lhs => unfold formatText
    rw [if_neg more,if_neg literal,rest]
    rfl
  | string escape specifier later ih =>
    obtain ⟨fuel,rfl⟩ := fueled enough
    obtain ⟨token,args,rfl,fits⟩ := matching_string matching
    have rest := ih (List.not_mem_of_not_mem_cons whole) fuel (by omega) fits
    conv_lhs => unfold formatText
    rw [if_neg (percent_more escape),if_pos escape,if_pos specifier]
    dsimp only
    rw [rest]
    rfl
  | percent escape literal later ih =>
    obtain ⟨fuel,rfl⟩ := fueled enough
    have rest := ih (List.not_mem_of_not_mem_cons whole) fuel (by omega) (matching_plain (by simp) matching)
    conv_lhs => unfold formatText
    rw [if_neg (percent_more escape),if_pos escape,literal,if_neg (by decide),if_pos rfl,rest]
    rfl
  | unknown escape other unlike later ih =>
    obtain ⟨fuel,rfl⟩ := fueled enough
    have rest := ih (List.not_mem_of_not_mem_cons whole) fuel (by omega) (matching_plain (by simp) matching)
    conv_lhs => unfold formatText
    rw [if_neg (percent_more escape),if_pos escape,if_neg other,if_neg unlike,rest]
    rfl
  | lone => exact absurd List.mem_cons_self whole

theorem sprintf_next {fmt : Nat → UInt8} {t : Transcript} (more : fmt ptr ≠ asciiTerm)
    (ran : sprintfLoop fmt (fuel+1) ptr args str count t = .ok (res,after)) :
    ∃ early written later next, ptr ∈ early ∧
      sprintfLoop fmt fuel (if fmt ptr = percent then ptr+2 else ptr+1) later next (count+1) (t.step early written) = .ok (res,after) := by
  by_cases escape : fmt ptr = percent
  · rw [if_pos escape]
    by_cases string : fmt (ptr+1) = specifierS
    · cases args with
      | nil =>
        rw [sprintf_escape escape,if_pos string] at ran
        cases ran
      | cons token args =>
        rw [sprintf_string escape string] at ran
        exact ⟨_,_,_,_,by simp,ran⟩
    · by_cases literal : fmt (ptr+1) = percent
      · rw [sprintf_percent escape literal] at ran
        exact ⟨_,_,_,_,by simp,ran⟩
      · rw [sprintf_unknown escape string literal] at ran
        exact ⟨[ptr,ptr,ptr+1],_,_,_,by simp,ran⟩
  · rw [sprintf_char more escape] at ran
    rw [if_neg escape]
    exact ⟨[ptr,ptr,ptr],_,_,_,by simp,ran⟩

theorem sprintf_reads (fuel : Nat) {fmt : Nat → UInt8} {t : Transcript} (ran : sprintfLoop fmt fuel ptr args str count t = .ok (res,after)) :
    ∃ reads writes, after = t.step reads writes ∧ ptr ∈ reads := by
  induction fuel generalizing ptr args str count t with
  | zero => cases ran
  | succ fuel ih =>
    by_cases ended : fmt ptr = asciiTerm
    · rw [sprintf_end ended] at ran
      cases ran
      exact ⟨[ptr],[],rfl,List.mem_singleton.mpr rfl⟩
    · obtain ⟨early,written,later,next,here,ran⟩ := sprintf_next ended ran
      obtain ⟨reads,writes,same,_⟩ := ih ran
      exact ⟨early++reads,written++writes,by rw [same,step_step],List.mem_append_left _ here⟩

theorem sprintf_onward {fmt : Nat → UInt8} {t : Transcript} (more : fmt ptr ≠ asciiTerm)
    (ran : sprintfLoop fmt fuel ptr args str count t = .ok (res,after)) : ∃ fuel' later next u,
      sprintfLoop fmt fuel' (if fmt ptr = percent then ptr+2 else ptr+1) later next (count+1) u = .ok (res,after) := by
  cases fuel with
  | zero => cases ran
  | succ fuel =>
    obtain ⟨early,written,later,next,_,onward⟩ := sprintf_next more ran
    exact ⟨fuel,later,next,_,onward⟩

-- A lone '%' takes the pointer over the NUL.
theorem sprintf_lone {fmt : Nat → UInt8} (spelled : Spelled fmt ptr len pieces) (lone : .lone ∈ pieces) {t : Transcript}
    (ran : sprintfLoop fmt fuel ptr args str count t = .ok (res,after)) : ptr+len+1 ∈ after.reads := by
  have further {a b : Nat} (read : a ∈ after.reads) (same : a = b) : b ∈ after.reads := same ▸ read
  induction spelled generalizing fuel args str count t with
  | nil => cases lone
  | char more literal later ih =>
    obtain ⟨fuel,args,str,t,ran⟩ := sprintf_onward more ran
    rw [if_neg literal] at ran
    exact further (ih (by simpa using lone) ran) (by omega)
  | string escape _ later ih =>
    obtain ⟨fuel,args,str,t,ran⟩ := sprintf_onward (percent_more escape) ran
    rw [if_pos escape] at ran
    exact further (ih (by simpa using lone) ran) (by omega)
  | percent escape _ later ih =>
    obtain ⟨fuel,args,str,t,ran⟩ := sprintf_onward (percent_more escape) ran
    rw [if_pos escape] at ran
    exact further (ih (by simpa using lone) ran) (by omega)
  | unknown escape _ _ later ih =>
    obtain ⟨fuel,args,str,t,ran⟩ := sprintf_onward (percent_more escape) ran
    rw [if_pos escape] at ran
    exact further (ih (by simpa using lone) ran) (by omega)
  | lone escape =>
    obtain ⟨fuel,args,str,t,ran⟩ := sprintf_onward (percent_more escape) ran
    rw [if_pos escape] at ran
    obtain ⟨reads,writes,same,read⟩ := sprintf_reads fuel ran
    rw [same]
    exact List.mem_append_right _ (by simpa using read)

theorem copied_low (dest : Nat) (text : List UInt8) (below : i < dest) : lastWrite (copied dest text) i = none := by
  induction text generalizing dest with
  | nil =>
    rw [copied,lastWrite,if_neg (by dsimp only; omega)]
    rfl
  | cons c rest ih =>
    rw [copied,lastWrite,ih (dest+1) (by omega),if_neg (by dsimp only; omega)]
    rfl

theorem copied_at (dest : Nat) (text : List UInt8) (j : Nat) : lastWrite (copied dest text) (dest+j) = (text++[asciiTerm])[j]? := by
  induction text generalizing dest j with
  | nil =>
    rw [copied,lastWrite]
    cases j with
    | zero => simp [lastWrite]
    | succ j => simp [lastWrite]
  | cons c rest ih =>
    rw [copied,lastWrite]
    cases j with
    | zero =>
      rw [copied_low (dest+1) rest (by omega),if_pos (Nat.add_zero dest)]
      rfl
    | succ j =>
      have later := ih (dest+1) j
      rw [show dest+1+j = dest+(j+1) by omega] at later
      rw [later,if_neg (by dsimp only; omega),Option.or_none]
      rfl

theorem pieceWrites_low (pieces : List Piece) (str : Nat) (args : List (List UInt8)) (below : i < str) :
    lastWrite (pieceWrites str pieces args) i = none := by
  induction pieces generalizing str args with
  | nil => rfl
  | cons piece rest ih =>
    cases piece with
    | char c =>
      rw [pieceWrites,lastWrite,ih (str+1) args (by omega),if_neg (by dsimp only; omega)]
      rfl
    | percent =>
      rw [pieceWrites,lastWrite,ih (str+1) args (by omega),if_neg (by dsimp only; omega)]
      rfl
    | string =>
      cases args with
      | nil => rfl
      | cons token args =>
        rw [pieceWrites,lastWrite_append,ih _ args (by omega),copied_low _ _ below]
        rfl
    | unknown =>
      rw [pieceWrites]
      exact ih str args below
    | lone => rfl

-- What stands behind the text: the NUL of a %s, if that stored last.
def ending (pieces : List Piece) : List UInt8 := if lastStored pieces = some .string then [asciiTerm] else []

-- Pieces that store nothing show nothing, and only an empty %s stores without
-- showing.
theorem shown_none (pieces : List Piece) (args : List (List UInt8)) (none : lastStored pieces = none) : shown pieces args = [] := by
  induction pieces generalizing args with
  | nil => rfl
  | cons piece rest ih =>
    cases piece with
    | unknown => exact ih args none
    | lone => rfl
    | char c => cases found : lastStored rest <;> simp [lastStored,found] at none
    | percent => cases found : lastStored rest <;> simp [lastStored,found] at none
    | string => cases found : lastStored rest <;> simp [lastStored,found] at none

theorem shown_some (pieces : List Piece) (args : List (List UInt8)) (matching : Matching pieces args) (whole : .lone ∉ pieces)
    (last : lastStored pieces = some piece) (other : piece ≠ .string) : shown pieces args ≠ [] := by
  induction pieces generalizing args with
  | nil => cases last
  | cons head rest ih =>
    have later := List.not_mem_of_not_mem_cons whole
    cases head with
    | unknown => exact ih args (matching_plain (by simp) matching) later last
    | lone => exact absurd List.mem_cons_self whole
    | char c => simp [shown]
    | percent => simp [shown]
    | string =>
      obtain ⟨token,args,rfl,fits⟩ := matching_string matching
      cases found : lastStored rest with
      | none =>
        simp [lastStored,found] at last
        exact absurd last.symm other
      | some behind =>
        simp [lastStored,found] at last
        rw [last] at found
        have more := ih args fits later found
        simp [shown,more]

-- The NUL of a %s is overwritten unless nothing is stored behind it.
theorem ending_string (rest : List Piece) (args : List (List UInt8)) (matching : Matching rest args) (whole : .lone ∉ rest) (i : Nat) :
    ((shown rest args++ending rest)[i]?).or [asciiTerm][i]? = (shown rest args++ending (.string::rest))[i]? := by
  have whichever : ending (.string::rest) = if lastStored rest = none ∨ lastStored rest = some .string then [asciiTerm] else [] := by
    unfold ending
    rw [show lastStored (.string::rest) = (lastStored rest).or (some .string) from rfl]
    cases lastStored rest <;> simp
  cases found : lastStored rest with
  | none =>
    rw [whichever,if_pos (.inl found),shown_none rest args found]
    simp [ending,found]
  | some last =>
    by_cases string : last = .string
    · have same : ending rest = [asciiTerm] := by
        unfold ending
        rw [found,string]
        rfl
      rw [whichever,if_pos (.inr (by rw [found,string])),same]
      cases i with
      | zero => cases shown rest args <;> rfl
      | succ i => simp
    · have more := shown_some rest args matching whole found string
      have same : ending rest = [] := by
        unfold ending
        rw [found,if_neg (fun equal => string (Option.some.inj equal))]
      rw [whichever,if_neg (by simp [found,string]),same]
      cases i with
      | zero =>
        cases text : shown rest args with
        | nil => exact absurd text more
        | cons c tail => rfl
      | succ i => simp

theorem pieceWrites_at (pieces : List Piece) (str : Nat) (args : List (List UInt8)) (matching : Matching pieces args) (whole : .lone ∉ pieces)
    (j : Nat) : lastWrite (pieceWrites str pieces args) (str+j) = (shown pieces args++ending pieces)[j]? := by
  induction pieces generalizing str args j with
  | nil => rfl
  | cons piece rest ih =>
    have later := List.not_mem_of_not_mem_cons whole
    have one (c : UInt8) (fits : Matching rest args) (same : ending (piece::rest) = ending rest) :
        lastWrite ((str,c)::pieceWrites (str+1) rest args) (str+j) = (c::shown rest args++ending (piece::rest))[j]? := by
      rw [lastWrite,same]
      cases j with
      | zero =>
        rw [pieceWrites_low rest (str+1) args (by omega),if_pos (Nat.add_zero str)]
        rfl
      | succ j =>
        have behind := ih (str+1) args fits later j
        rw [show str+1+j = str+(j+1) by omega] at behind
        rw [behind,if_neg (by dsimp only; omega),Option.or_none]
        rfl
    have ends (stored : piece ≠ .string) (some : lastStored (piece::rest) = (lastStored rest).or (some piece)) :
        ending (piece::rest) = ending rest := by
      unfold ending
      rw [some]
      cases lastStored rest <;> simp [stored]
    cases piece with
    | char c => exact one c (matching_plain (by simp) matching) (ends (by simp) rfl)
    | percent => exact one percent (matching_plain (by simp) matching) (ends (by simp) rfl)
    | unknown => exact ih str args (matching_plain (by simp) matching) later j
    | lone => exact absurd List.mem_cons_self whole
    | string =>
      obtain ⟨token,args,rfl,fits⟩ := matching_string matching
      have length := stringText_length token
      rw [pieceWrites,lastWrite_append,copied_at,shown,List.append_assoc]
      by_cases front : j < strlen token
      · rw [pieceWrites_low rest _ args (by omega),List.getElem?_append_left (by omega),List.getElem?_append_left (by omega)]
        rfl
      · obtain ⟨i,rfl⟩ : ∃ i, j = strlen token+i := ⟨j-strlen token,by omega⟩
        have behind := ih (str+strlen token) args fits later i
        rw [Nat.add_assoc] at behind
        have skips (tail : List UInt8) : (stringText token++tail)[strlen token+i]? = tail[i]? := by
          rw [List.getElem?_append_right (by omega),length,Nat.add_sub_cancel_left]
        rw [behind,skips,skips]
        exact ending_string rest args fits later i

theorem shown_length (pieces : List Piece) (args : List (List UInt8)) (matching : Matching pieces args) (whole : .lone ∉ pieces) :
    (shown pieces args).length+(pieces.countP (· = .string)+pieces.countP (· = .unknown)) = pieces.length+(args.map strlen).sum := by
  induction pieces generalizing args with
  | nil =>
    have none : args = [] := List.length_eq_zero_iff.mp matching
    rw [none]
    rfl
  | cons piece rest ih =>
    have later := List.not_mem_of_not_mem_cons whole
    cases piece with
    | lone => exact absurd List.mem_cons_self whole
    | string =>
      obtain ⟨token,args,rfl,fits⟩ := matching_string matching
      have behind := ih args fits later
      have length := stringText_length token
      simp [shown] at behind ⊢
      omega
    | char c =>
      have behind := ih args (matching_plain (by simp) matching) later
      simp [shown] at behind ⊢
      omega
    | percent =>
      have behind := ih args (matching_plain (by simp) matching) later
      simp [shown] at behind ⊢
      omega
    | unknown =>
      have behind := ih args (matching_plain (by simp) matching) later
      simp [shown] at behind ⊢
      omega

-- What sprintf is for: it reads the format through its NUL, leaves the text of
-- printf with a NUL behind it, and counts its characters.
structure Formats (fmt : Nat → UInt8) (text : List UInt8) (args : List (List UInt8)) (res : Int) (after : Transcript)
    (sent : List UInt8) : Prop where
  formatted : formatText fmt 4294967296 0 args = some sent
  printed : ∀ s, printf fmt args s = sendAll sendToTerminal sent s
  inside : ∀ p ∈ after.reads, p ≤ text.length
  stored : ∀ i, lastWrite after.writes i = (sent++[asciiTerm])[i]?
  counted : res = sent.length

def SprintfMeets (fmt : Nat → UInt8) (text : List UInt8) (args : List (List UInt8)) : Prop :=
  ∃ res after sent, sprintf fmt args ⟨[],[]⟩ = .ok (res,after) ∧ Formats fmt text args res after sent

-- No lone '%' at the end, a %s where something is stored last, and string
-- arguments that make up for the specifiers that count without storing one
-- character each.
structure SprintfFits (text : List UInt8) (args : List (List UInt8)) : Prop where
  whole : .lone ∉ piecesOf text
  last : lastStored (piecesOf text) = some .string
  short : (piecesOf text).length < 2147483648
  lengths : (args.map strlen).sum = (piecesOf text).countP (· = .string)+(piecesOf text).countP (· = .unknown)

theorem sprintf_whole {fmt : Nat → UInt8} (spells : Spells fmt 0 text) (bounded : text.length < 4294967296)
    (matching : Matching (piecesOf text) args) (whole : .lone ∉ piecesOf text) :
    ∃ reads, sprintf fmt args ⟨[],[]⟩ = .ok (toInt32 (piecesOf text).length,⟨reads,pieceWrites 0 (piecesOf text) args⟩) ∧
      ∀ p ∈ reads, p ≤ text.length := by
  obtain ⟨reads,ran,inside⟩ := sprintf_run (spelled text spells) whole 4294967296 bounded matching 0 0 ⟨[],[]⟩
  refine ⟨reads,?_,by simpa using inside⟩
  unfold sprintf
  rw [Prog.bind_run ran]
  simp [Transcript.step]

theorem pieces_length (text : List UInt8) : (piecesOf text).length ≤ text.length := by
  induction text using piecesOf.induct with
  | case1 => exact Nat.le_refl _
  | case2 c => exact Nat.le_refl _
  | case3 d rest ih =>
    rw [piecesOf,if_pos rfl]
    simp only [List.length_cons]
    omega
  | case4 c d rest literal ih =>
    rw [piecesOf,if_neg literal]
    simp only [List.length_cons] at ih ⊢
    omega

theorem meets_fits {fmt : Nat → UInt8} (spells : Spells fmt 0 text) (bounded : text.length < 4294967296)
    (matching : Matching (piecesOf text) args) (meets : SprintfMeets fmt text args) : SprintfFits text args := by
  obtain ⟨res,after,sent,ran,formats⟩ := meets
  have whole : .lone ∉ piecesOf text := by
    intro lone
    obtain ⟨count,one,looped,ran⟩ := Prog.bind_ok.mp ran
    obtain ⟨_,rfl⟩ := Prod.mk.inj (Except.ok.inj ran)
    have read := formats.inside _ (sprintf_lone (spelled text spells) lone looped)
    omega
  obtain ⟨reads,ran',_⟩ := sprintf_whole spells bounded matching whole
  rw [ran'] at ran
  obtain ⟨rfl,rfl⟩ := Prod.mk.inj (Except.ok.inj ran)
  have text' := formatText_shown (spelled text spells) whole 4294967296 bounded matching
  rw [formats.formatted] at text'
  cases text'
  have written (i : Nat) := pieceWrites_at (piecesOf text) 0 args matching whole i
  have counted := formats.counted
  have total := shown_length (piecesOf text) args matching whole
  have few := pieces_length text
  have short : (piecesOf text).length < 2147483648 := by
    refine Classical.byContradiction (fun long => ?_)
    unfold toInt32 at counted
    omega
  rw [toInt32_natCast short] at counted
  refine ⟨whole,?_,short,by omega⟩
  refine Classical.byContradiction (fun other => ?_)
  have last := written (shown (piecesOf text) args).length
  rw [Nat.zero_add,show ending (piecesOf text) = [] from if_neg other] at last
  have nul := last.symm.trans (formats.stored _)
  simp at nul

theorem fits_meets {fmt : Nat → UInt8} (spells : Spells fmt 0 text) (bounded : text.length < 4294967296)
    (matching : Matching (piecesOf text) args) (fits : SprintfFits text args) : SprintfMeets fmt text args := by
  obtain ⟨whole,last,short,lengths⟩ := fits
  obtain ⟨reads,ran,inside⟩ := sprintf_whole spells bounded matching whole
  have sent := formatText_shown (spelled text spells) whole 4294967296 bounded matching
  have total := shown_length (piecesOf text) args matching whole
  refine ⟨_,_,_,ran,sent,fun s => printf_sends sent s,inside,fun i => ?_,?_⟩
  · have written := pieceWrites_at (piecesOf text) 0 args matching whole i
    rw [Nat.zero_add,show ending (piecesOf text) = [asciiTerm] from if_pos last] at written
    exact written
  · rw [toInt32_natCast short]
    omega

theorem sprintf_meets_iff {fmt : Nat → UInt8} (spells : Spells fmt 0 text) (bounded : text.length < 4294967296)
    (matching : Matching (piecesOf text) args) : SprintfMeets fmt text args ↔ SprintfFits text args :=
  ⟨meets_fits spells bounded matching,fits_meets spells bounded matching⟩

def assignment : List UInt8 := [percent,specifierS,0x3D,percent,specifierS]

theorem assignment_formats : SprintfMeets (fun i => assignment.getD i 0) assignment [[0x61],[0x62]] := by
  have spells : Spells (fun i => assignment.getD i 0) 0 assignment :=
    ⟨rfl,by decide,rfl,by decide,rfl,by decide,rfl,by decide,rfl,by decide,rfl⟩
  have matching : Matching (piecesOf assignment) [[0x61],[0x62]] := rfl
  exact (sprintf_meets_iff spells (by decide) matching).mpr ⟨by decide,rfl,by decide,rfl⟩

theorem plain_text_unended : ¬ SprintfMeets (fun i => [0x61].getD i 0) [0x61] [] := by
  have spells : Spells (fun i => [0x61].getD i 0) 0 [0x61] := ⟨rfl,by decide,rfl⟩
  have matching : Matching (piecesOf [0x61]) [] := rfl
  exact fun meets => absurd (meets_fits spells (by decide) matching meets).last (by decide)

end NutsOS.Stdutil
