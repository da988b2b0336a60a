import NutsOS.Stdutil.String

-- What istrncmp tells about two strings.
namespace NutsOS.Stdutil

def cString (s : List UInt8) : List UInt8 := s.takeWhile (fun c => c != asciiTerm)

def SameCase (s t : List UInt8) : Prop := s.map tolower = t.map tolower

instance (s t : List UInt8) : Decidable (SameCase s t) := inferInstanceAs (Decidable (_ = _))

theorem SameCase.refl (s : List UInt8) : SameCase s s := rfl

theorem SameCase.symm (same : SameCase s t) : SameCase t s := Eq.symm same

theorem SameCase.trans (one : SameCase s t) (two : SameCase t u) : SameCase s u := Eq.trans one two

theorem SameCase.nil_iff : SameCase [] t ↔ t = [] := by
  unfold SameCase
  rw [List.map_nil]
  exact eq_comm.trans List.map_eq_nil_iff

theorem SameCase.cons_iff : SameCase (c::s) (d::t) ↔ tolower c = tolower d ∧ SameCase s t := by
  unfold SameCase
  rw [List.map_cons,List.map_cons,List.cons.injEq]

theorem tolower_toNat (c : UInt8) : (tolower c).toNat = if 65 ≤ c.toNat ∧ c.toNat ≤ 90 then c.toNat+32 else c.toNat := by
  have big := c.toNat_lt
  have bounds : (asciiA ≤ c ∧ c ≤ asciiZ) ↔ 65 ≤ c.toNat ∧ c.toNat ≤ 90 := by
    rw [UInt8.le_iff_toNat_le,UInt8.le_iff_toNat_le]
    rfl
  unfold tolower
  by_cases letter : asciiA ≤ c ∧ c ≤ asciiZ
  · rw [if_pos letter,if_pos (bounds.mp letter),UInt8.toNat_add]
    have high := (bounds.mp letter).2
    show (c.toNat+32)%256 = _
    omega
  · rw [if_neg letter,if_neg (fun other => letter (bounds.mpr other))]

theorem tolower_eq_iff (other : d.toNat < 65) : tolower c = d ↔ c = d := by
  rw [← UInt8.toNat_inj,← UInt8.toNat_inj,tolower_toNat]
  split <;> omega

theorem tolower_term : tolower c = asciiTerm ↔ c = asciiTerm := tolower_eq_iff (by decide)

theorem cString_cons (some : c ≠ asciiTerm) (s : List UInt8) : cString (c::s) = c::cString s := by
  unfold cString
  rw [List.takeWhile_cons_of_pos (by simpa using some)]

theorem cString_term (s : List UInt8) : cString (asciiTerm::s) = [] := by
  unfold cString
  rw [List.takeWhile_cons_of_neg (by decide)]

theorem istrncmp_iff {a : List UInt8} (clean : ∀ c ∈ a, c ≠ asciiTerm) (short : a.length < n) (rest s : List UInt8) :
    istrncmp (a++asciiTerm::rest) s n = 0 ↔ SameCase a (cString s) := by
  have differ (c d : UInt8) (other : tolower c ≠ tolower d) : ¬ ((tolower c).toNat : Int)-(tolower d).toNat = 0 := by
    intro same
    exact other (UInt8.toNat_inj.mp (by omega))
  unfold istrncmp
  induction a generalizing s n with
  | nil =>
    obtain ⟨n,rfl⟩ := Nat.exists_eq_succ_of_ne_zero (Nat.ne_of_gt short)
    rw [List.nil_append,compareChars,if_neg (fun both => both.1 rfl),SameCase.nil_iff]
    cases s with
    | nil => exact iff_of_true rfl rfl
    | cons d s =>
      by_cases ended : d = asciiTerm
      · rw [ended,cString_term]
        exact iff_of_true rfl rfl
      · rw [cString_cons ended]
        refine iff_of_false (differ asciiTerm d (fun same => ended ?_)) (by simp)
        exact tolower_term.mp (same.symm.trans (by decide))
  | cons c a ih =>
    have some := clean c List.mem_cons_self
    obtain ⟨n,rfl⟩ := Nat.exists_eq_succ_of_ne_zero (Nat.ne_of_gt (Nat.lt_of_le_of_lt (Nat.zero_le _) short))
    have next := ih (n := n) (fun d member => clean d (List.mem_cons_of_mem _ member)) (Nat.lt_of_succ_lt_succ short)
    have notTerm : tolower c ≠ tolower asciiTerm := fun same => some (tolower_term.mp (same.trans (by decide)))
    have ended (s : List UInt8) (here : charOf s = asciiTerm) (none : cString s = []) :
        compareChars tolower (c::a++asciiTerm::rest) s (n+1) = 0 ↔ SameCase (c::a) (cString s) := by
      rw [compareChars,here,none]
      rw [if_neg (fun both => notTerm both.2)]
      exact iff_of_false (differ c asciiTerm notTerm) (fun same => by cases same)
    cases s with
    | nil => exact ended [] rfl rfl
    | cons d s =>
      by_cases term : d = asciiTerm
      · exact ended (d::s) term (by rw [term,cString_term])
      · rw [cString_cons term,SameCase.cons_iff,compareChars]
        by_cases same : tolower c = tolower d
        · rw [if_pos ⟨some,same⟩]
          exact (next s).trans ⟨fun rest => ⟨same,rest⟩,And.right⟩
        · rw [if_neg (fun both => same both.2)]
          exact iff_of_false (differ c d same) (fun both => same both.1)

theorem SameCase.mem_iff (other : d.toNat < 65) (same : SameCase s t) : d ∈ s ↔ d ∈ t := by
  have lower (u : List UInt8) : d ∈ u.map tolower ↔ d ∈ u := by
    rw [List.mem_map]
    constructor
    · rintro ⟨c,member,equal⟩
      exact (tolower_eq_iff other).mp equal ▸ member
    · exact fun member => ⟨d,member,(tolower_eq_iff other).mpr rfl⟩
  rw [← lower s,← lower t,same]

theorem SameCase.split_iff (other : d.toNat < 65) {s t : List UInt8} (one : d ∉ s) (two : d ∉ t) (u v : List UInt8) :
    SameCase (s++d::u) (t++d::v) ↔ SameCase s t ∧ SameCase u v := by
  have notLower {c : UInt8} (some : c ≠ d) : tolower c ≠ tolower d := by
    rw [(tolower_eq_iff other).mpr rfl]
    exact fun same => some ((tolower_eq_iff other).mp same)
  induction s generalizing t with
  | nil =>
    cases t with
    | nil => exact SameCase.cons_iff.trans ⟨fun both => ⟨.refl [],both.2⟩,fun both => ⟨rfl,both.2⟩⟩
    | cons c t =>
      have some : c ≠ d := fun same => two (same ▸ List.mem_cons_self)
      refine iff_of_false (fun same => ?_) (fun both => by cases both.1)
      exact notLower some (SameCase.cons_iff.mp same).1.symm
  | cons c s ih =>
    have some : c ≠ d := fun same => one (same ▸ List.mem_cons_self)
    cases t with
    | nil =>
      refine iff_of_false (fun same => ?_) (fun both => by cases both.1)
      exact notLower some (SameCase.cons_iff.mp same).1
    | cons e t =>
      have rest : SameCase (s++d::u) (t++d::v) ↔ SameCase s t ∧ SameCase u v :=
        ih (fun member => one (List.mem_cons_of_mem _ member)) (fun member => two (List.mem_cons_of_mem _ member))
      rw [List.cons_append,List.cons_append,SameCase.cons_iff,SameCase.cons_iff,rest,and_assoc]

end NutsOS.Stdutil
