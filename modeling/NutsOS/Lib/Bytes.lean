import Mathlib.Init

-- Byte ranges of an infinite image, as lists.
namespace Bytes

def slice (image : Nat → UInt8) (pos count : Nat) : List UInt8 :=
  (List.range count).map (fun i => image (pos+i))

@[simp] theorem slice_length : (slice image pos count).length = count := by simp [slice]

@[simp] theorem slice_zero : slice image pos 0 = [] := rfl

theorem slice_append (image : Nat → UInt8) (pos m n : Nat) :
    slice image pos m ++ slice image (pos+m) n = slice image pos (m+n) := by
  simp [slice,List.range_add,Nat.add_assoc]

theorem slice_succ (image : Nat → UInt8) (pos n : Nat) :
    slice image pos (n+1) = image pos :: slice image (pos+1) n := by
  have first := slice_append image pos 1 n
  rw [Nat.add_comm n 1,← first]
  rfl

theorem slice_eq_iff {left right : Nat → UInt8} {p q n : Nat} :
    slice left p n = slice right q n ↔ ∀ i, i < n → left (p+i) = right (q+i) := by
  simp [slice]

theorem slice_congr {left right : Nat → UInt8} {p q n : Nat}
    (same : ∀ i, i < n → left (p+i) = right (q+i)) : slice left p n = slice right q n :=
  slice_eq_iff.mpr same

theorem drop_take_slice (image : Nat → UInt8) (pos m n total : Nat) (within : m+n ≤ total) :
    ((slice image pos total).drop m).take n = slice image (pos+m) n := by
  obtain ⟨rest,equal⟩ := Nat.exists_eq_add_of_le within
  rw [equal,Nat.add_assoc,← slice_append,List.drop_left' (by simp),← slice_append,List.take_left' (by simp)]

theorem slice_shift (image : Nat → UInt8) (base pos n : Nat) :
    slice (fun i => image (base+i)) pos n = slice image (base+pos) n := by
  simp [slice,Nat.add_assoc]

end Bytes
