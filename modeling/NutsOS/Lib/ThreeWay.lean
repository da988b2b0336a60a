import Mathlib.Init

-- Answers of a three-way comparison, whose sign tells the order. Nothing here
-- refers to a particular program.
namespace ThreeWay

structure Orders {α : Type} [LT α] (res : Int) (a b : α) : Prop where
  negative : res < 0 ↔ a < b
  zero : res = 0 ↔ a = b
  positive : 0 < res ↔ b < a

variable {α : Type} [LT α]

theorem Orders.self {a : α} (irrefl : ¬ a < a) : Orders 0 a a :=
  ⟨iff_of_false (Int.lt_irrefl 0) irrefl,iff_of_true rfl rfl,iff_of_false (Int.lt_irrefl 0) irrefl⟩

theorem Orders.sub (key : α → Nat) (lt_iff : ∀ a b, a < b ↔ key a < key b) (inj : ∀ a b, key a = key b → a = b) (a b : α) :
    Orders ((key a : Int)-key b) a b := by
  refine ⟨?_,⟨fun same => inj a b (by omega),?_⟩,?_⟩
  · rw [lt_iff]
    omega
  · rintro rfl
    exact Int.sub_self _
  · rw [lt_iff]
    omega

theorem Orders.head {c d : α} (orders : Orders res c d) (other : c ≠ d) (s t : List α) : Orders res (c::s) (d::t) := by
  refine ⟨?_,?_,?_⟩
  · rw [orders.negative,List.cons_lt_cons_iff]
    exact ⟨.inl,fun less => less.resolve_right (fun both => other both.1)⟩
  · rw [orders.zero]
    exact iff_of_false other (fun same => other (List.cons.inj same).1)
  · rw [orders.positive,List.cons_lt_cons_iff]
    exact ⟨.inl,fun less => less.resolve_right (fun both => other both.1.symm)⟩

theorem Orders.cons {s t : List α} (orders : Orders res s t) {c : α} (irrefl : ¬ c < c) : Orders res (c::s) (c::t) := by
  refine ⟨?_,?_,?_⟩
  · rw [orders.negative,List.cons_lt_cons_iff]
    exact ⟨fun less => .inr ⟨rfl,less⟩,fun less => (less.resolve_left irrefl).2⟩
  · rw [orders.zero]
    exact ⟨congrArg (c::·),fun same => (List.cons.inj same).2⟩
  · rw [orders.positive,List.cons_lt_cons_iff]
    exact ⟨fun less => .inr ⟨rfl,less⟩,fun less => (less.resolve_left irrefl).2⟩

theorem Orders.opposite_iff {a b : α} (one : Orders r a b) (two : Orders s b a) : r.sign = s.sign ↔ a = b := by
  have below := one.negative.trans two.positive.symm
  have above := one.positive.trans two.negative.symm
  constructor
  · intro same
    apply one.zero.mp
    rcases Int.lt_trichotomy r 0 with less | zero | more
    · rw [Int.sign_eq_neg_one_of_neg less,Int.sign_eq_one_of_pos (below.mp less)] at same
      cases same
    · exact zero
    · rw [Int.sign_eq_one_of_pos more,Int.sign_eq_neg_one_of_neg (above.mp more)] at same
      cases same
  · intro same
    rw [one.zero.mpr same,two.zero.mpr same.symm]

end ThreeWay
