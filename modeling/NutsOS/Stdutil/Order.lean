import NutsOS.Lib.ThreeWay
import NutsOS.Stdutil.Compare

-- The orders that memcmp and strncmp tell.
namespace NutsOS.Stdutil
open ThreeWay

theorem byte_orders (c d : UInt8) : Orders ((c.toNat : Int)-d.toNat) c d :=
  Orders.sub UInt8.toNat (fun _ _ => UInt8.lt_iff_toNat_lt) (fun _ _ => UInt8.toNat_inj.mp) c d

theorem compareChars_orders (lower : UInt8 → UInt8) {s1 s2 : List UInt8} (clean : asciiTerm ∉ s1) (one : n ≤ s1.length) (two : n ≤ s2.length) :
    Orders (compareChars lower s1 s2 n) ((s1.take n).map lower) ((s2.take n).map lower) := by
  induction n generalizing s1 s2 with
  | zero =>
    rw [compareChars,List.take_zero,List.take_zero]
    exact .self (List.not_lt_nil _)
  | succ n ih =>
    obtain ⟨c,s1,rfl⟩ := List.exists_cons_of_length_pos (Nat.lt_of_lt_of_le n.succ_pos one)
    obtain ⟨d,s2,rfl⟩ := List.exists_cons_of_length_pos (Nat.lt_of_lt_of_le n.succ_pos two)
    have some : c ≠ asciiTerm := fun ended => clean (ended ▸ List.mem_cons_self)
    have rest := ih (List.not_mem_of_not_mem_cons clean) (Nat.le_of_succ_le_succ one) (Nat.le_of_succ_le_succ two)
    rw [compareChars,List.take_succ_cons,List.take_succ_cons,List.map_cons,List.map_cons]
    by_cases same : lower c = lower d
    · rw [if_pos ⟨some,same⟩,same]
      exact rest.cons (UInt8.lt_irrefl _)
    · rw [if_neg (fun both => same both.2)]
      exact (byte_orders _ _).head same _ _

theorem strncmp_orders {s1 s2 : List UInt8} (clean : asciiTerm ∉ s1) (one : n ≤ s1.length) (two : n ≤ s2.length) :
    Orders (strncmp s1 s2 n) (s1.take n) (s2.take n) := by
  have orders := compareChars_orders id clean one two
  rw [List.map_id,List.map_id] at orders
  exact orders

-- The difference that memcmp returns is the second byte less the first.
theorem memcmp_orders {t1 t2 : List UInt8} (one : count ≤ t1.length) (two : count ≤ t2.length) :
    Orders (memcmp t1 t2 count) (t2.take count) (t1.take count) := by
  induction count generalizing t1 t2 with
  | zero =>
    rw [memcmp,List.take_zero,List.take_zero]
    exact .self (List.not_lt_nil _)
  | succ count ih =>
    obtain ⟨c,t1,rfl⟩ := List.exists_cons_of_length_pos (Nat.lt_of_lt_of_le count.succ_pos one)
    obtain ⟨d,t2,rfl⟩ := List.exists_cons_of_length_pos (Nat.lt_of_lt_of_le count.succ_pos two)
    have rest := ih (Nat.le_of_succ_le_succ one) (Nat.le_of_succ_le_succ two)
    rw [memcmp,List.take_succ_cons,List.take_succ_cons]
    by_cases same : c = d
    · rw [if_pos (show charOf (c::t1) = charOf (d::t2) from same),same]
      exact rest.cons (UInt8.lt_irrefl _)
    · rw [if_neg (show ¬ charOf (c::t1) = charOf (d::t2) from same)]
      exact (byte_orders d c).head (Ne.symm same) _ _

-- One sign for both, which is that of the unsigned order of the first n bytes.
structure SameOrder (s1 s2 : List UInt8) (n : Nat) : Prop where
  sign : (memcmp s1 s2 n).sign = (strncmp s1 s2 n).sign
  memcmp : Orders (memcmp s1 s2 n) (s1.take n) (s2.take n)
  strncmp : Orders (strncmp s1 s2 n) (s1.take n) (s2.take n)

-- Exactly when the bytes are equal: memcmp turns every other answer around.
theorem same_order_iff {s1 s2 : List UInt8} (clean : asciiTerm ∉ s1) (one : n ≤ s1.length) (two : n ≤ s2.length) :
    SameOrder s1 s2 n ↔ s1.take n = s2.take n := by
  have forth := strncmp_orders clean one two
  have back := memcmp_orders one two
  constructor
  · exact fun order => ((back.opposite_iff forth).mp order.sign).symm
  · intro same
    refine ⟨(back.opposite_iff forth).mpr same.symm,?_,forth⟩
    rw [same] at back ⊢
    exact back

theorem equal_bytes_ordered : SameOrder [0x61,0x62] [0x61,0x63] 1 :=
  (same_order_iff (by decide) (by decide) (by decide)).mpr rfl

theorem letters_reversed : ¬ SameOrder [0x61] [0x62] 1 := by
  intro order
  have sign : (1 : Int) = -1 := order.sign
  exact absurd sign (by decide)

end NutsOS.Stdutil
