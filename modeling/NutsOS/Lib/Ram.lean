import Mathlib.Init

-- Byte-addressed memory of a 32-bit machine, its little-endian words, and
-- blocks of words. Addresses wrap round. Nothing here refers to a particular program.
namespace Ram

abbrev Word := BitVec 32
abbrev Memory := Word → BitVec 8

def read (mem : Memory) (a : Word) : Word := mem (a+3#32) ++ mem (a+2#32) ++ mem (a+1#32) ++ mem a

def write (mem : Memory) (a value : Word) : Memory := fun x =>
  if x = a then value.extractLsb' 0 8
  else if x = a+1#32 then value.extractLsb' 8 8
  else if x = a+2#32 then value.extractLsb' 16 8
  else if x = a+3#32 then value.extractLsb' 24 8
  else mem x

-- Two ranges that share no address, either of which may run across the top.
def Apart (a : Word) (n : Nat) (b : Word) (m : Nat) : Prop := n ≤ (b-a).toNat ∧ m ≤ (a-b).toNat

theorem offset_toNat (small : n < 4294967296) : (BitVec.ofNat 32 n).toNat = n := by
  rw [BitVec.toNat_ofNat]
  exact Nat.mod_eq_of_lt small

theorem Apart.symm (apart : Apart a n b m) : Apart b m a n := ⟨apart.2,apart.1⟩

theorem Apart.within (apart : Apart a n b m) (inside : i+k ≤ n) (some : 0 < k) (bound : n ≤ 4294967296) :
    Apart (a+BitVec.ofNat 32 i) k b m := by
  have offset : (BitVec.ofNat 32 i).toNat = i := offset_toNat (by omega)
  unfold Apart at *
  bv_omega

theorem read_congr (same : ∀ i, i < 4 → one (a+BitVec.ofNat 32 i) = two (a+BitVec.ofNat 32 i)) : read one a = read two a := by
  have zero := same 0 (by decide)
  have first := same 1 (by decide)
  have second := same 2 (by decide)
  have third := same 3 (by decide)
  unfold read
  rw [BitVec.add_zero] at zero
  rw [zero,first,second,third]

theorem read_write (mem : Memory) (a value : Word) : read (write mem a value) a = value := by
  have one : ¬ a+1#32 = a := by bv_omega
  have two : ¬ a+2#32 = a ∧ ¬ a+2#32 = a+1#32 := by bv_omega
  have three : ¬ a+3#32 = a ∧ ¬ a+3#32 = a+1#32 ∧ ¬ a+3#32 = a+2#32 := by bv_omega
  unfold read write
  simp only [one,two,three,if_true,if_false]
  simp only [BitVec.extractLsb'_append_extractLsb'_eq_extractLsb']
  exact BitVec.extractLsb'_eq_self

theorem write_other (apart : Apart a 4 x 1) (mem : Memory) (value : Word) : write mem a value x = mem x := by
  have differs : ¬ x = a ∧ ¬ x = a+1#32 ∧ ¬ x = a+2#32 ∧ ¬ x = a+3#32 := by
    unfold Apart at apart
    bv_omega
  unfold write
  simp only [differs,if_false]

theorem read_write_other (apart : Apart a 4 b 4) (mem : Memory) (value : Word) : read (write mem a value) b = read mem b := by
  apply read_congr
  intro i small
  apply write_other
  unfold Apart at *
  have offset := offset_toNat (n := i) (by omega)
  bv_omega

-- Memory that holds the words from an address on.
def Block (mem : Memory) (a : Word) : List Word → Prop
  | [] => True
  | word::words => read mem a = word ∧ Block mem (a+4#32) words

theorem Block.congr (block : Block one a words)
    (same : ∀ i, i < 4*words.length → two (a+BitVec.ofNat 32 i) = one (a+BitVec.ofNat 32 i)) : Block two a words := by
  induction words generalizing a with
  | nil => trivial
  | cons word words ih =>
    obtain ⟨first,rest⟩ := block
    rw [List.length_cons] at same
    refine ⟨?_,ih rest ?_⟩
    · rw [← first]
      exact read_congr (fun i small => same i (by omega))
    · intro i inside
      have shifted := same (4+i) (by omega)
      rw [BitVec.ofNat_add,← BitVec.add_assoc] at shifted
      exact shifted

theorem Block.write (block : Block mem a words) (bound : words.length < 1073741824)
    (apart : Apart x 4 a (4*words.length)) (value : Word) : Block (write mem x value) a words := by
  apply block.congr
  intro i inside
  apply write_other
  have offset := offset_toNat (n := i) (by omega)
  unfold Apart at *
  bv_omega

theorem Block.push (block : Block mem a words) (bound : words.length < 1073741823) (value : Word) :
    Block (Ram.write mem (a-4#32) value) (a-4#32) (value::words) := by
  have back : a-4#32+4#32 = a := BitVec.sub_add_cancel _ _
  refine ⟨read_write mem _ value,?_⟩
  rw [back]
  apply block.write (Nat.lt_succ_of_lt bound)
  unfold Apart
  bv_omega

theorem Block.append : Block mem a (front++back) ↔ Block mem a front ∧ Block mem (a+BitVec.ofNat 32 (4*front.length)) back := by
  induction front generalizing a with
  | nil => simp [Block]
  | cons word front ih =>
    have next : a+4#32+BitVec.ofNat 32 (4*front.length) = a+BitVec.ofNat 32 (4*(word::front).length) := by
      rw [BitVec.add_assoc,← BitVec.ofNat_add,List.length_cons,Nat.mul_succ,Nat.add_comm 4]
    rw [List.cons_append,Block,Block,ih,next,and_assoc]

-- Memory with bytes laid over it from an address on.
def overlay (mem : Memory) (a : Word) (count : Nat) (byte : Nat → BitVec 8) : Memory := fun x =>
  if (x-a).toNat < count then byte (x-a).toNat else mem x

@[simp] theorem overlay_none (mem : Memory) (a : Word) (byte : Nat → BitVec 8) : overlay mem a 0 byte = mem := by
  funext x
  exact if_neg (Nat.not_lt_zero _)

theorem overlay_byte (mem : Memory) (a : Word) (byte : Nat → BitVec 8) (inside : i < count) (bound : count ≤ 4294967296) :
    overlay mem a count byte (a+BitVec.ofNat 32 i) = byte i := by
  have distance : (a+BitVec.ofNat 32 i-a).toNat = i := by
    rw [BitVec.add_comm,BitVec.add_sub_cancel,offset_toNat (by omega)]
  unfold overlay
  rw [distance,if_pos inside]

theorem overlay_other (apart : Apart a count x 1) (mem : Memory) (byte : Nat → BitVec 8) : overlay mem a count byte x = mem x :=
  if_neg (Nat.not_lt_of_le apart.1)

theorem overlay_congr (same : one x = two x) (a : Word) (count : Nat) (byte : Nat → BitVec 8) :
    overlay one a count byte x = overlay two a count byte x := by
  unfold overlay
  rw [same]

theorem overlay_bytes (same : ∀ i < count, one i = two i) (mem : Memory) (a : Word) : overlay mem a count one = overlay mem a count two := by
  funext x
  unfold overlay
  by_cases inside : (x-a).toNat < count
  · rw [if_pos inside,if_pos inside,same _ inside]
  · rw [if_neg inside,if_neg inside]

theorem overlay_append (room : count+more ≤ 4294967296) (mem : Memory) (a : Word) (byte : Nat → BitVec 8) :
    overlay (overlay mem a count byte) (a+BitVec.ofNat 32 count) more (fun i => byte (count+i)) = overlay mem a (count+more) byte := by
  funext x
  unfold overlay
  by_cases none : count = 4294967296
  · have zero : more = 0 := by omega
    rw [zero,if_neg (Nat.not_lt_zero _),Nat.add_zero]
  · have offset : (BitVec.ofNat 32 count).toNat = count := offset_toNat (by omega)
    by_cases first : (x-a).toNat < count
    · have before : ¬ (x-(a+BitVec.ofNat 32 count)).toNat < more := by bv_omega
      rw [if_neg before,if_pos first,if_pos (by omega)]
    · have distance : (x-(a+BitVec.ofNat 32 count)).toNat = (x-a).toNat-count := by bv_omega
      rw [if_neg first,distance]
      by_cases second : (x-a).toNat < count+more
      · rw [if_pos (by omega),if_pos second]
        show byte (count+((x-a).toNat-count)) = byte (x-a).toNat
        rw [Nat.add_sub_cancel' (by omega)]
      · rw [if_neg (by omega),if_neg second]

-- A word of 16 bits.
def write16 (mem : Memory) (a : Word) (value : BitVec 16) : Memory := fun x =>
  if x = a then value.extractLsb' 0 8 else if x = a+1#32 then value.extractLsb' 8 8 else mem x

theorem write16_overlay (room : count+2 ≤ 4294967296) (mem : Memory) (a : Word) (byte : Nat → BitVec 8)
    {word : BitVec 16} (value : byte (count+1)++byte count = word) :
    write16 (overlay mem a count byte) (a+BitVec.ofNat 32 count) word = overlay mem a (count+2) byte := by
  have low : word.extractLsb' 0 8 = byte count := by
    rw [← value]
    exact BitVec.extractLsb'_append_eq_right
  have high : word.extractLsb' 8 8 = byte (count+1) := by
    rw [← value]
    exact BitVec.extractLsb'_append_eq_left
  have offset : (BitVec.ofNat 32 count).toNat = count := offset_toNat (by omega)
  funext x
  unfold write16 overlay
  rw [low,high]
  by_cases first : x = a+BitVec.ofNat 32 count
  · have distance : (x-a).toNat = count := by bv_omega
    rw [if_pos first,distance,if_pos (by omega)]
  · rw [if_neg first]
    by_cases second : x = a+BitVec.ofNat 32 count+1#32
    · have distance : (x-a).toNat = count+1 := by bv_omega
      rw [if_pos second,distance,if_pos (by omega)]
    · rw [if_neg second]
      have before : (x-a).toNat < count+2 ↔ (x-a).toNat < count := by
        constructor
        · intro near
          have away : (x-a).toNat ≠ count ∧ (x-a).toNat ≠ count+1 :=
            ⟨fun equal => first (by bv_omega),fun equal => second (by bv_omega)⟩
          omega
        · intro near
          omega
      simp only [before]

end Ram
