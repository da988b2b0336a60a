import NutsOS.Stdutil.Compare

-- strncmp and istrncmp on strings in memory, with what they read.
namespace NutsOS.Stdutil

structure Reads where
  first : List Nat
  second : List Nat

abbrev CompareProg := Prog Fault Reads

def readFirst (s1 : Nat → UInt8) (i : Nat) : CompareProg UInt8 := do
  Prog.modify (fun reads => {reads with first := reads.first++[i]})
  return s1 i

def readSecond (s2 : Nat → UInt8) (i : Nat) : CompareProg UInt8 := do
  Prog.modify (fun reads => {reads with second := reads.second++[i]})
  return s2 i

-- The loop of both, from position i on: where it stops, and n behind it.
def compareLoop (lower : UInt8 → UInt8) (s1 s2 : Nat → UInt8) : Nat → Nat → CompareProg (Nat × Int)
  | 0,i => return (i,-1)
  | n+1,i => do
    if (← readFirst s1 i) = asciiTerm then return (i,n)
    if lower (← readFirst s1 i) = lower (← readSecond s2 i) then compareLoop lower s1 s2 n (i+1)
    else return (i,n)

def compareAt (lower : UInt8 → UInt8) (s1 s2 : Nat → UInt8) (n : Nat) : CompareProg Int := do
  let (i,n) ← compareLoop lower s1 s2 n 0
  if n = -1 then return 0
  return ((lower (← readFirst s1 i)).toNat : Int)-(lower (← readSecond s2 i)).toNat

def strncmpAt (s1 s2 : Nat → UInt8) (n : Nat) : CompareProg Int := compareAt id s1 s2 n
def istrncmpAt (s1 s2 : Nat → UInt8) (n : Nat) : CompareProg Int := compareAt tolower s1 s2 n

def Reads.add (reads : Reads) (one two : List Nat) : Reads := ⟨reads.first++one,reads.second++two⟩

@[simp] theorem add_add (reads : Reads) (one two more again : List Nat) :
    (reads.add one two).add more again = reads.add (one++more) (two++again) := by
  simp [Reads.add]

theorem readFirst_run (s1 : Nat → UInt8) (i : Nat) (reads : Reads) : readFirst s1 i reads = .ok (s1 i,reads.add [i] []) := by
  simp [readFirst,Reads.add]

theorem readSecond_run (s2 : Nat → UInt8) (i : Nat) (reads : Reads) : readSecond s2 i reads = .ok (s2 i,reads.add [] [i]) := by
  simp [readSecond,Reads.add]

theorem compareLoop_ended {s1 : Nat → UInt8} (ended : s1 i = asciiTerm) (lower : UInt8 → UInt8) (s2 : Nat → UInt8) (n : Nat) (reads : Reads) :
    compareLoop lower s1 s2 (n+1) i reads = .ok ((i,n),reads.add [i] []) := by
  rw [compareLoop,Prog.bind_run (readFirst_run s1 i reads),if_pos ended]
  rfl

theorem compareLoop_turn {s1 : Nat → UInt8} (more : s1 i ≠ asciiTerm) (lower : UInt8 → UInt8) (s2 : Nat → UInt8) (n : Nat) (reads : Reads) :
    compareLoop lower s1 s2 (n+1) i reads = if lower (s1 i) = lower (s2 i) then compareLoop lower s1 s2 n (i+1) (reads.add [i,i] [i])
      else .ok ((i,n),reads.add [i,i] [i]) := by
  rw [compareLoop,Prog.bind_run (readFirst_run s1 i reads),if_neg more,Prog.bind_run (readFirst_run s1 i _),
    Prog.bind_run (readSecond_run s2 i _),add_add,add_add]
  split <;> rfl

-- Where the loop stops: all the characters in front agree and are no NUL, and
-- either n of them were compared or the one there ends the loop.
structure Stops (lower : UInt8 → UInt8) (s1 s2 : Nat → UInt8) (i n stop : Nat) : Prop where
  behind : i ≤ stop
  within : stop ≤ i+n
  matched : ∀ j, i ≤ j → j < stop → s1 j ≠ asciiTerm ∧ lower (s1 j) = lower (s2 j)
  ended : stop < i+n → s1 stop = asciiTerm ∨ lower (s1 stop) ≠ lower (s2 stop)

-- Reads up to the stop, and of no position that the bound excludes.
def UpTo (i n stop : Nat) (reads : List Nat) : Prop := ∀ p ∈ reads, p ≤ stop ∧ p < i+n

theorem Stops.here (ended : 0 < n → s1 i = asciiTerm ∨ lower (s1 i) ≠ lower (s2 i)) : Stops lower s1 s2 i n i := by
  refine ⟨Nat.le_refl i,Nat.le_add_right i n,?_,?_⟩
  · exact fun j low high => absurd high (Nat.not_lt_of_le low)
  · exact fun less => ended (Nat.pos_of_lt_add_right less)

theorem Stops.turn (stops : Stops lower s1 s2 (i+1) n stop) (more : s1 i ≠ asciiTerm) (same : lower (s1 i) = lower (s2 i)) :
    Stops lower s1 s2 i (n+1) stop := by
  have behind := stops.behind
  have within := stops.within
  refine ⟨by omega,by omega,?_,?_⟩
  · intro j low high
    rcases Nat.eq_or_lt_of_le low with here | later
    · exact here ▸ ⟨more,same⟩
    · exact stops.matched j later high
  · exact fun less => stops.ended (by omega)

theorem UpTo.turn (reads : UpTo (i+1) n stop later) (behind : i+1 ≤ stop) (front : ∀ p ∈ list, p = i) : UpTo i (n+1) stop (list++later) := by
  intro p member
  rcases List.mem_append.mp member with here | there
  · rw [front p here]
    omega
  · have bounds := reads p there
    omega

theorem compareLoop_run (lower : UInt8 → UInt8) (s1 s2 : Nat → UInt8) (n i : Nat) (reads : Reads) :
    ∃ stop one two, compareLoop lower s1 s2 n i reads = .ok ((stop,((i+n : Nat) : Int)-stop-1),reads.add one two) ∧
      Stops lower s1 s2 i n stop ∧ UpTo i n stop one ∧ UpTo i n stop two := by
  induction n generalizing i reads with
  | zero =>
    refine ⟨i,[],[],?_,.here (fun less => absurd less (Nat.lt_irrefl 0)),by simp [UpTo],by simp [UpTo]⟩
    rw [compareLoop,Nat.add_zero,Int.sub_self,Reads.add,List.append_nil,List.append_nil]
    rfl
  | succ n ih =>
    have left : ((i+(n+1) : Nat) : Int)-i-1 = n := by omega
    by_cases ended : s1 i = asciiTerm
    · refine ⟨i,[i],[],?_,.here (fun _ => .inl ended),by simp [UpTo],by simp [UpTo]⟩
      rw [compareLoop_ended ended,left]
    · rw [compareLoop_turn ended]
      by_cases same : lower (s1 i) = lower (s2 i)
      · obtain ⟨stop,one,two,ran,stops,readOne,readTwo⟩ := ih (i+1) (reads.add [i,i] [i])
        have behind := stops.behind
        refine ⟨stop,[i,i]++one,[i]++two,?_,stops.turn ended same,readOne.turn behind (by simp),readTwo.turn behind (by simp)⟩
        rw [if_pos same,ran,add_add,Nat.add_right_comm,Nat.add_assoc]
      · refine ⟨i,[i,i],[i],?_,.here (fun _ => .inr same),by simp [UpTo],by simp [UpTo]⟩
        rw [if_neg same,left]

-- Equal in the first n characters, or up to a NUL that both have there.
def Agree (s1 s2 : Nat → UInt8) (n : Nat) : Prop :=
  (∀ i < n, s1 i = s2 i) ∨ ∃ k < n, (∀ i ≤ k, s1 i = s2 i) ∧ s1 k = asciiTerm

-- Nothing behind a NUL is read, and no more than n characters.
def Inside (s : Nat → UInt8) (n : Nat) (reads : List Nat) : Prop := ∀ p ∈ reads, p < n ∧ ∀ k, s k = asciiTerm → p ≤ k

theorem Stops.first_term (stops : Stops lower s1 s2 0 n stop) (ended : s1 k = asciiTerm) : stop ≤ k := by
  apply Nat.le_of_not_lt
  exact fun less => (stops.matched k (Nat.zero_le k) less).1 ended

theorem Stops.second_term (stops : Stops lower s1 s2 0 n stop) (term : ∀ c, lower c = asciiTerm ↔ c = asciiTerm) (ended : s2 k = asciiTerm) :
    stop ≤ k := by
  apply Nat.le_of_not_lt
  intro less
  obtain ⟨some,same⟩ := stops.matched k (Nat.zero_le k) less
  rw [(term (s2 k)).mpr ended] at same
  exact some ((term (s1 k)).mp same)

theorem Stops.agree_iff (stops : Stops lower s1 s2 0 n stop) (term : ∀ c, lower c = asciiTerm ↔ c = asciiTerm) :
    Agree (lower∘s1) (lower∘s2) n ↔ stop = n ∨ lower (s1 stop) = lower (s2 stop) := by
  have within := stops.within
  rw [Nat.zero_add] at within
  have matched (j : Nat) (less : j < stop) : lower (s1 j) = lower (s2 j) := (stops.matched j (Nat.zero_le j) less).2
  constructor
  · rintro (all | ⟨k,low,all,ended⟩)
    · rcases Nat.eq_or_lt_of_le within with whole | less
      · exact .inl whole
      · exact .inr (all stop less)
    · exact .inr (all stop (stops.first_term ((term (s1 k)).mp ended)))
  · rintro (whole | same)
    · exact .inl (fun i less => matched i (whole ▸ less))
    · rcases Nat.eq_or_lt_of_le within with whole | less
      · exact .inl (fun i less => matched i (whole ▸ less))
      · have ended := (stops.ended (by omega)).resolve_right (fun other => other same)
        refine .inr ⟨stop,less,fun i low => ?_,(term _).mpr ended⟩
        rcases Nat.eq_or_lt_of_le low with here | earlier
        · exact here ▸ same
        · exact matched i earlier

-- The answer, by the limit and where the loop stopped.
def answer (lower : UInt8 → UInt8) (s1 s2 : Nat → UInt8) (limit stop : Nat) : Int :=
  if stop = limit then 0 else ((lower (s1 stop)).toNat : Int)-(lower (s2 stop)).toNat

theorem compareAt_run (lower : UInt8 → UInt8) (s1 s2 : Nat → UInt8) (n : Nat) :
    ∃ stop one two, compareAt lower s1 s2 n ⟨[],[]⟩ = .ok (answer lower s1 s2 n stop,⟨one,two⟩) ∧ Stops lower s1 s2 0 n stop ∧
      UpTo 0 n stop one ∧ UpTo 0 n stop two := by
  obtain ⟨stop,one,two,ran,stops,readOne,readTwo⟩ := compareLoop_run lower s1 s2 n 0 ⟨[],[]⟩
  have within := stops.within
  rw [Nat.zero_add] at ran within
  unfold compareAt answer
  rw [Prog.bind_run ran]
  dsimp only
  by_cases whole : stop = n
  · refine ⟨stop,one,two,?_,stops,readOne,readTwo⟩
    rw [if_pos (by omega),if_pos whole]
    rfl
  · have last {list : List Nat} (upTo : UpTo 0 n stop list) : UpTo 0 n stop (list++[stop]) := by
      intro p member
      rcases List.mem_append.mp member with earlier | here
      · exact upTo p earlier
      · rw [List.mem_singleton.mp here]
        omega
    refine ⟨stop,one++[stop],two++[stop],?_,stops,last readOne,last readTwo⟩
    rw [if_neg (by omega),if_neg whole,Prog.bind_run (readFirst_run s1 stop _),Prog.bind_run (readSecond_run s2 stop _),add_add,add_add]
    simp [Reads.add]

theorem answer_zero (lower : UInt8 → UInt8) (s1 s2 : Nat → UInt8) (n stop : Nat) :
    answer lower s1 s2 n stop = 0 ↔ stop = n ∨ lower (s1 stop) = lower (s2 stop) := by
  unfold answer
  by_cases whole : stop = n
  · rw [if_pos whole]
    exact iff_of_true rfl (.inl whole)
  · rw [if_neg whole,← UInt8.toNat_inj]
    omega

-- What a comparison is for: it tells whether the strings agree, and stays
-- inside both.
structure Compares (lower : UInt8 → UInt8) (s1 s2 : Nat → UInt8) (n : Nat) (res : Int) (reads : Reads) : Prop where
  zero : res = 0 ↔ Agree (lower∘s1) (lower∘s2) n
  first : Inside s1 n reads.first
  second : Inside s2 n reads.second

theorem compareAt_compares (term : ∀ c, lower c = asciiTerm ↔ c = asciiTerm) (s1 s2 : Nat → UInt8) (n : Nat) :
    ∃ res reads, compareAt lower s1 s2 n ⟨[],[]⟩ = .ok (res,reads) ∧ Compares lower s1 s2 n res reads := by
  obtain ⟨stop,one,two,ran,stops,readOne,readTwo⟩ := compareAt_run lower s1 s2 n
  refine ⟨_,_,ran,(answer_zero lower s1 s2 n stop).trans (stops.agree_iff term).symm,fun p member => ?_,fun p member => ?_⟩
  · obtain ⟨low,less⟩ := readOne p member
    exact ⟨by omega,fun k ended => Nat.le_trans low (stops.first_term ended)⟩
  · obtain ⟨low,less⟩ := readTwo p member
    exact ⟨by omega,fun k ended => Nat.le_trans low (stops.second_term term ended)⟩

theorem compareLoop_lowered (s1 s2 : Nat → UInt8) (n i : Nat) (reads : Reads) :
    compareLoop tolower s1 s2 n i reads = compareLoop id (tolower∘s1) (tolower∘s2) n i reads := by
  induction n generalizing i reads with
  | zero => rfl
  | succ n ih =>
    by_cases ended : s1 i = asciiTerm
    · have lowered : (tolower∘s1) i = asciiTerm := tolower_term.mpr ended
      rw [compareLoop_ended ended,compareLoop_ended lowered]
    · have lowered : (tolower∘s1) i ≠ asciiTerm := fun same => ended (tolower_term.mp same)
      rw [compareLoop_turn ended,compareLoop_turn lowered,ih]
      rfl

theorem compareAt_lowered (s1 s2 : Nat → UInt8) (n : Nat) : compareAt tolower s1 s2 n = compareAt id (tolower∘s1) (tolower∘s2) n := by
  funext reads
  obtain ⟨stop,one,two,ran,_⟩ := compareLoop_run tolower s1 s2 n 0 reads
  unfold compareAt
  rw [Prog.bind_run ran,Prog.bind_run ((compareLoop_lowered s1 s2 n 0 reads).symm.trans ran)]
  dsimp only
  split
  · rfl
  · rw [Prog.bind_run (readFirst_run _ _ _),Prog.bind_run (readFirst_run _ _ _),Prog.bind_run (readSecond_run _ _ _),
      Prog.bind_run (readSecond_run _ _ _)]
    rfl

theorem compareChars_stops {s1 s2 : Nat → UInt8} (one : ∀ j, s1 (i+j) = t1.getD j asciiTerm) (two : ∀ j, s2 (i+j) = t2.getD j asciiTerm)
    (stops : Stops lower s1 s2 i n stop) : compareChars lower t1 t2 n = answer lower s1 s2 (i+n) stop := by
  unfold answer
  induction n generalizing i t1 t2 with
  | zero =>
    rw [compareChars,if_pos (Nat.le_antisymm stops.within stops.behind)]
  | succ n ih =>
    have behind := stops.behind
    have headOne : charOf t1 = s1 i := by
      rw [← Nat.add_zero i,one 0]
      cases t1 <;> rfl
    have headTwo : charOf t2 = s2 i := by
      rw [← Nat.add_zero i,two 0]
      cases t2 <;> rfl
    rw [compareChars,headOne,headTwo]
    by_cases on : s1 i ≠ asciiTerm ∧ lower (s1 i) = lower (s2 i)
    · have further : i ≠ stop := by
        intro here
        rcases stops.ended (by omega) with ended | other
        · exact on.1 (here ▸ ended)
        · exact (here ▸ other) on.2
      have later : Stops lower s1 s2 (i+1) n stop := by
        have within := stops.within
        exact ⟨by omega,by omega,fun j low high => stops.matched j (by omega) high,fun less => stops.ended (by omega)⟩
      have tailOne (j : Nat) : s1 (i+1+j) = t1.tail.getD j asciiTerm := by
        rw [Nat.add_assoc,Nat.add_comm 1 j,one (j+1)]
        cases t1 <;> rfl
      have tailTwo (j : Nat) : s2 (i+1+j) = t2.tail.getD j asciiTerm := by
        rw [Nat.add_assoc,Nat.add_comm 1 j,two (j+1)]
        cases t2 <;> rfl
      rw [if_pos on,ih tailOne tailTwo later,Nat.add_right_comm,Nat.add_assoc]
    · have here : stop = i := by
        apply Nat.le_antisymm (Nat.le_of_not_lt (fun less => on (stops.matched i (Nat.le_refl i) less))) behind
      rw [if_neg on,here,if_neg (by omega)]

theorem compareAt_list (lower : UInt8 → UInt8) (t1 t2 : List UInt8) (n : Nat) : ∃ reads,
    compareAt lower (fun i => t1.getD i asciiTerm) (fun i => t2.getD i asciiTerm) n ⟨[],[]⟩ = .ok (compareChars lower t1 t2 n,reads) := by
  obtain ⟨stop,one,two,ran,stops,_⟩ := compareAt_run lower (fun i => t1.getD i asciiTerm) (fun i => t2.getD i asciiTerm) n
  have same := compareChars_stops (fun j => by rw [Nat.zero_add]) (fun j => by rw [Nat.zero_add]) stops
  rw [Nat.zero_add] at same
  exact ⟨_,same ▸ ran⟩

theorem istrncmp_lowers (s1 s2 : Nat → UInt8) (n : Nat) : istrncmpAt s1 s2 n = strncmpAt (tolower∘s1) (tolower∘s2) n ∧
    (∃ res reads, istrncmpAt s1 s2 n ⟨[],[]⟩ = .ok (res,reads) ∧ Compares tolower s1 s2 n res reads) ∧
    ∃ res reads, strncmpAt s1 s2 n ⟨[],[]⟩ = .ok (res,reads) ∧ Compares id s1 s2 n res reads :=
  ⟨compareAt_lowered s1 s2 n,compareAt_compares (fun _ => tolower_term) s1 s2 n,compareAt_compares (fun _ => Iff.rfl) s1 s2 n⟩

end NutsOS.Stdutil
