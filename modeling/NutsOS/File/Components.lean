import Mathlib.Data.List.TakeWhile
import NutsOS.File.PathParser

-- A path string as the list of its components.
namespace NutsOS.Files
open Stdutil

def text (path : List UInt8) : List UInt8 := path.takeWhile (· ≠ asciiTerm)

def components (path : List UInt8) : List (List UInt8) := (text path).splitOn slash

-- The components in front of the first empty one.
def parts (path : List UInt8) : List (List UInt8) := (components path).takeWhile (· ≠ [])

-- What one step of the extraction takes, and where it leaves the cursor.
def partOf (path : List UInt8) : List UInt8 := path.takeWhile isPartChar

def afterPart (path : List UInt8) : List UInt8 :=
  let rest := path.dropWhile isPartChar
  if charOf rest = slash then rest.tail else rest

theorem isPartChar_iff : isPartChar c = true ↔ c ≠ slash ∧ c ≠ asciiTerm := by
  simp [isPartChar]

theorem isPartChar_clean (char : isPartChar c = true) : c ≠ asciiTerm := (isPartChar_iff.mp char).2

theorem partOf_chars (member : c ∈ partOf path) : isPartChar c = true := List.mem_takeWhile_imp member

theorem partOf_afterPart (path : List UInt8) : partOf path++path.dropWhile isPartChar = path :=
  List.takeWhile_append_dropWhile

theorem strlen_append {name : List UInt8} (clean : ∀ c ∈ name, c ≠ asciiTerm) (rest : List UInt8) :
    strlen (name++rest) = name.length+strlen rest := by
  induction name with
  | nil => simp
  | cons c name ih =>
    have later := ih (fun d member => clean d (List.mem_cons_of_mem _ member))
    rw [List.cons_append,strlen,if_neg (clean c List.mem_cons_self),later,List.length_cons]
    omega

theorem strlen_clean {name : List UInt8} (clean : ∀ c ∈ name, c ≠ asciiTerm) : strlen name = name.length := by
  have whole := strlen_append clean []
  rw [List.append_nil] at whole
  exact whole

theorem strlen_length (path : List UInt8) : strlen path ≤ path.length := by
  induction path with
  | nil => exact Nat.le_refl _
  | cons c rest ih =>
    rw [strlen,List.length_cons]
    split <;> omega

theorem strlen_tail (path : List UInt8) : strlen path.tail+1 ≤ strlen path ∨ charOf path = asciiTerm := by
  cases path with
  | nil => exact .inr rfl
  | cons c rest =>
    by_cases ended : c = asciiTerm
    · exact .inr ended
    · exact .inl (by rw [strlen,if_neg ended]; exact Nat.le_refl _)

theorem afterPart_strlen (path : List UInt8) : (partOf path).length+strlen (afterPart path) ≤ strlen path := by
  have clean : ∀ c ∈ partOf path, c ≠ asciiTerm := fun c member => isPartChar_clean (partOf_chars member)
  have whole := strlen_append clean (path.dropWhile isPartChar)
  rw [partOf_afterPart path] at whole
  rw [whole]
  unfold afterPart
  dsimp only
  split
  · rename_i separator
    rcases strlen_tail (path.dropWhile isPartChar) with shorter | ended
    · omega
    · rw [ended] at separator
      exact absurd separator (by decide)
  · exact Nat.le_refl _

theorem afterPart_length (some : partOf path ≠ []) : (afterPart path).length < path.length := by
  have whole := congrArg List.length (partOf_afterPart path)
  rw [List.length_append] at whole
  have positive := List.length_pos_iff.mpr some
  unfold afterPart
  dsimp only
  split
  · rw [List.length_tail]
    omega
  · omega

theorem dropWhile_head (path : List UInt8) :
    charOf (path.dropWhile isPartChar) = slash ∨ charOf (path.dropWhile isPartChar) = asciiTerm := by
  cases ended : path.dropWhile isPartChar with
  | nil => exact .inr rfl
  | cons c rest =>
    have stop : isPartChar c = false := by
      have first := List.head?_dropWhile_not isPartChar path
      rw [ended] at first
      exact first
    by_cases separator : c = slash
    · exact .inl separator
    · by_cases term : c = asciiTerm
      · exact .inr term
      · rw [isPartChar_iff.mpr ⟨separator,term⟩] at stop
        cases stop

theorem text_append {name : List UInt8} (clean : ∀ c ∈ name, c ≠ asciiTerm) (rest : List UInt8) :
    text (name++rest) = name++text rest :=
  List.takeWhile_append_of_pos (fun c member => decide_eq_true (clean c member))

theorem text_ended (ended : charOf path = asciiTerm) : text path = [] := by
  cases path with
  | nil => rfl
  | cons c rest =>
    obtain rfl : c = asciiTerm := ended
    exact List.takeWhile_cons_of_neg (by decide)

theorem text_slash (separator : charOf path = slash) : text path = slash::text path.tail := by
  cases path with
  | nil => exact absurd separator (by decide)
  | cons c rest =>
    obtain rfl : c = slash := separator
    exact List.takeWhile_cons_of_pos (by decide)

theorem components_cons (path : List UInt8) :
    components path = partOf path::(if charOf (path.dropWhile isPartChar) = slash then components (afterPart path) else []) := by
  have clean : ∀ c ∈ partOf path, c ≠ asciiTerm := fun c member => isPartChar_clean (partOf_chars member)
  have plain : slash ∉ partOf path := fun member => (isPartChar_iff.mp (partOf_chars member)).1 rfl
  have whole := text_append clean (path.dropWhile isPartChar)
  rw [partOf_afterPart path] at whole
  unfold components afterPart
  rw [whole]
  dsimp only
  rcases dropWhile_head path with separator | ended
  · rw [text_slash separator,if_pos separator,if_pos separator]
    exact List.splitOn_append_cons_self_of_not_mem plain _
  · rw [text_ended ended,List.append_nil,if_neg (by rw [ended]; decide)]
    exact List.splitOn_eq_singleton plain

theorem parts_empty (none : partOf path = []) : parts path = [] := by
  unfold parts
  rw [components_cons,none]
  rfl

theorem parts_cons (some : partOf path ≠ []) : parts path = partOf path::parts (afterPart path) := by
  unfold parts
  rw [components_cons,List.takeWhile_cons_of_pos (by simpa using some)]
  rcases dropWhile_head path with separator | ended
  · rw [if_pos separator]
  · have other : charOf (path.dropWhile isPartChar) ≠ slash := by rw [ended]; decide
    have stays : afterPart path = path.dropWhile isPartChar := if_neg other
    have last : components (path.dropWhile isPartChar) = [[]] := by
      unfold components
      rw [text_ended ended]
      rfl
    rw [if_neg other,stays,last]
    rfl

theorem parts_length (path : List UInt8) : (parts path).length ≤ path.length := by
  by_cases none : partOf path = []
  · rw [parts_empty none]
    exact Nat.zero_le _
  · have shorter := afterPart_length none
    have rest := parts_length (afterPart path)
    rw [parts_cons none,List.length_cons]
    omega
termination_by path.length

theorem parts_fit (member : name ∈ parts path) : name.length ≤ strlen path := by
  have fits := afterPart_strlen path
  by_cases none : partOf path = []
  · rw [parts_empty none] at member
    cases member
  · have shorter := afterPart_length none
    rw [parts_cons none] at member
    cases member with
    | head => omega
    | tail _ later =>
      have rest := parts_fit later
      omega
termination_by path.length

def pathOf (drive : UInt8) (name : List UInt8) : List UInt8 := drive::colon::slash::name

theorem isdigit_clean (digit : isdigit c = true) : c ≠ asciiTerm := by
  intro same
  rw [same] at digit
  exact absurd digit (by decide)

theorem pathOf_valid (digit : isdigit drive = true) (name : List UInt8) :
    pathparserIsPathValid (pathOf drive name) = true := by
  have some := isdigit_clean digit
  unfold pathparserIsPathValid pathOf nutsosMaxPath
  simp only [strnlen,if_neg some,if_neg (show colon ≠ asciiTerm by decide),if_neg (show slash ≠ asciiTerm by decide),charOf,
    List.headD_cons,digit,List.tail_cons,memcmp,if_true]
  simp

theorem charOf_cons {path : List UInt8} (first : charOf path = c) (some : c ≠ asciiTerm) : path = c::path.tail := by
  cases path with
  | nil => exact absurd first.symm some
  | cons d rest =>
    obtain rfl : d = c := first
    rfl

theorem memcmp_cons {path other : List UInt8} (same : memcmp path (c::other) (n+1) = 0) :
    charOf path = c ∧ memcmp path.tail other n = 0 := by
  rw [memcmp] at same
  by_cases equal : charOf path = charOf (c::other)
  · rw [if_pos equal] at same
    exact ⟨equal,same⟩
  · rw [if_neg equal] at same
    refine absurd (UInt8.toNat_inj.mp ?_) equal
    omega

theorem isPathValid_iff : pathparserIsPathValid path = true ↔ ∃ drive name, isdigit drive = true ∧ path = pathOf drive name := by
  constructor
  · intro valid
    unfold pathparserIsPathValid at valid
    simp only [Bool.and_eq_true,beq_iff_eq] at valid
    obtain ⟨⟨_,digit⟩,compared⟩ := valid
    obtain ⟨second,compared⟩ := memcmp_cons compared
    obtain ⟨third,_⟩ := memcmp_cons compared
    refine ⟨charOf path,path.tail.tail.tail,digit,?_⟩
    have one := charOf_cons rfl (isdigit_clean digit)
    have two := charOf_cons second (by decide)
    have three := charOf_cons third (by decide)
    unfold pathOf
    rw [← three,← two]
    exact one
  · rintro ⟨drive,name,digit,rfl⟩
    exact pathOf_valid digit name

theorem isPathValid_pathOf (valid : pathparserIsPathValid path = true) :
    isdigit (charOf path) = true ∧ path = pathOf (charOf path) (path.drop 3) := by
  obtain ⟨drive,name,digit,rfl⟩ := isPathValid_iff.mp valid
  exact ⟨digit,rfl⟩

theorem strlen_pathOf (digit : isdigit drive = true) (name : List UInt8) : strlen (pathOf drive name) = 3+strlen name := by
  have clean : ∀ c ∈ [drive,colon,slash], c ≠ asciiTerm := by
    intro c member
    simp only [List.mem_cons,List.not_mem_nil,or_false] at member
    rcases member with rfl | rfl | rfl
    · exact isdigit_clean digit
    · decide
    · decide
  exact strlen_append clean name

theorem ctoi_digit (digit : isdigit drive = true) : ctoi drive = (drive.toNat : Int)-48 ∧ 48 ≤ drive.toNat := by
  unfold isdigit asciiZero asciiNine at digit
  simp only [Bool.and_eq_true,decide_eq_true_eq] at digit
  have low : 48 ≤ drive.toNat := digit.1
  have high : drive.toNat ≤ 57 := digit.2
  have signed : drive.toInt8.toInt = drive.toNat := by
    rw [Int8.toInt,UInt8.toInt8,BitVec.toInt_eq_toNat_of_lt]
    · rfl
    · show 2*drive.toNat < _
      omega
  refine ⟨?_,low⟩
  unfold ctoi
  rw [signed]
  rfl

end NutsOS.Files
