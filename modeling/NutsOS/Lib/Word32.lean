import Mathlib.Data.Nat.Bitwise

-- 32-bit machine arithmetic over Int and Nat: the values of a signed and of an
-- unsigned word, and the masks of a page-aligned word.
namespace Word32

-- The signed word an integer is stored as.
def toInt32 (x : Int) : Int :=
  if x % 4294967296 < 2147483648 then x % 4294967296 else x % 4294967296 - 4294967296

-- The unsigned word an integer is stored as.
def toUint32 (x : Int) : Nat := (x % 4294967296).toNat

theorem toInt32_eq (low : -2147483648 ≤ x) (high : x < 2147483648) : toInt32 x = x := by
  unfold toInt32
  split <;> omega

theorem toInt32_natCast (small : n < 2147483648) : toInt32 (n : Nat) = n :=
  toInt32_eq (by omega) (by omega)

theorem toInt32_lt (x : Int) : toInt32 x < 2147483648 := by
  unfold toInt32
  split <;> omega

theorem toInt32_ge (x : Int) : -2147483648 ≤ toInt32 x := by
  unfold toInt32
  split <;> omega

theorem toInt32_add_left (x y : Int) : toInt32 (toInt32 x+y) = toInt32 (x+y) := by
  unfold toInt32
  split <;> split <;> split <;> omega

theorem toUint32_natCast (small : n < 4294967296) : toUint32 (n : Nat) = n := by
  unfold toUint32
  omega

theorem toUint32_lt (x : Int) : toUint32 x < 4294967296 := by
  unfold toUint32
  omega

theorem toUint32_toInt32 (small : n < 4294967296) : toUint32 (toInt32 (n : Nat)) = n := by
  unfold toUint32 toInt32
  split <;> omega

theorem toUint32_sub_toInt32 (less : n ≤ m) (small : m < 4294967296) : toUint32 ((m : Nat)-toInt32 (n : Nat)) = m-n := by
  unfold toUint32 toInt32
  split <;> omega

theorem page_mask (word : x < 4294967296) : x &&& 0xFFFFF000 = x/4096*4096 := by
  have mask : 0xFFFFF000 = (2^20-1) <<< 12 := rfl
  have frame : x/4096*4096 = (x >>> 12) <<< 12 := by
    rw [Nat.shiftRight_eq_div_pow,Nat.shiftLeft_eq]
  rw [mask,frame]
  apply Nat.eq_of_testBit_eq
  intro i
  rw [Nat.testBit_and,Nat.testBit_shiftLeft,Nat.testBit_two_pow_sub_one,Nat.testBit_shiftLeft,Nat.testBit_shiftRight]
  by_cases low : 12 ≤ i
  · have same : 12+(i-12) = i := by omega
    rw [same]
    by_cases inWord : i < 32
    · simp [low,show i-12 < 20 by omega]
    · have clear : x.testBit i = false := by
        apply Nat.testBit_lt_two_pow
        exact Nat.lt_of_lt_of_le word (Nat.pow_le_pow_right (by decide : 2 > 0) (show 32 ≤ i by omega))
      simp [clear]
  · simp [low]

theorem or_flags (aligned : frame%4096 = 0) (small : flags < 4096) : frame ||| flags = frame+flags := by
  obtain ⟨page,rfl⟩ := Nat.dvd_of_mod_eq_zero aligned
  exact (Nat.two_pow_add_eq_or_of_lt (i := 12) small page).symm

theorem or_flags_frame (aligned : frame%4096 = 0) (small : flags < 4096) (word : frame < 4294967296) :
    (frame ||| flags) &&& 0xFFFFF000 = frame := by
  rw [or_flags aligned small,page_mask (by omega)]
  omega

theorem or_flags_low (aligned : frame%4096 = 0) (small : flags < 4096) :
    (frame ||| flags) &&& 0xFFF = flags := by
  rw [or_flags aligned small,show 0xFFF = 2^12-1 from rfl,Nat.and_two_pow_sub_one_eq_mod]
  omega

end Word32
