import Mathlib.Data.List.TakeWhile
import NutsOS.Fat16.Directory
import NutsOS.Stdutil.Compare

-- The names of directory entries: padded on the disk, and as text.
namespace NutsOS.Fat16
open Word32 Stdutil

def NameChar (c : UInt8) : Prop := c ≠ asciiTerm ∧ isspace c = false ∧ c ≠ dot

instance : DecidablePred NameChar := fun _ => inferInstanceAs (Decidable (_ ∧ _))

structure ShortName (entry : FatDirectoryItem) (base ext : List UInt8) : Prop where
  filename : entry.filename = base++List.replicate (8-base.length) asciiSpace
  extension : entry.ext = ext++List.replicate (3-ext.length) asciiSpace
  sizes : 1 ≤ base.length ∧ base.length ≤ 8 ∧ ext.length ≤ 3
  chars : ∀ c ∈ base++ext, NameChar c

-- The name as the driver spells it: a file always has a separator.
def spelled (entry : FatDirectoryItem) (base ext : List UInt8) : List UInt8 :=
  if FatDirectoryItem.isSubdirectory entry then base else base++dot::ext

theorem copyUntilSpace_padded (chars : ∀ c ∈ s, NameChar c) (maxLen : Int) (room : (s.length : Int) ≤ maxLen) (padding : Nat) :
    copyUntilSpace (s++List.replicate padding asciiSpace) maxLen = (s,maxLen-s.length) := by
  induction s generalizing maxLen with
  | nil =>
    cases padding with
    | zero => simp [copyUntilSpace]
    | succ padding =>
      rw [List.nil_append,List.replicate_succ,copyUntilSpace]
      split
      · simp
      · rw [if_pos (.inr (by decide))]
        simp
  | cons c s ih =>
    rw [List.length_cons] at room
    obtain ⟨some,visible,_⟩ := chars c List.mem_cons_self
    rw [List.cons_append,copyUntilSpace,if_neg (by omega),if_neg (by simp [some,visible]),
      ih (fun d member => chars d (List.mem_cons_of_mem _ member)) (maxLen-1) (by omega),List.length_cons]
    dsimp only
    rw [Prod.mk.injEq]
    exact ⟨rfl,by omega⟩

theorem ShortName.fullFilename (name : ShortName entry base ext) :
    fat16GetFullFilename entry nutsosMaxPath = spelled entry base ext++[asciiTerm] := by
  obtain ⟨_,small,extSmall⟩ := name.sizes
  have path : (nutsosMaxPath : Int) = 256 := rfl
  have first := copyUntilSpace_padded (fun c member => name.chars c (List.mem_append_left ext member)) (nutsosMaxPath-1)
    (by omega) (8-base.length)
  have second := copyUntilSpace_padded (fun c member => name.chars c (List.mem_append_right base member))
    (nutsosMaxPath-1-base.length-1) (by omega) (3-ext.length)
  unfold fat16GetFullFilename spelled
  rw [name.filename,name.extension,first]
  dsimp only
  by_cases sub : FatDirectoryItem.isSubdirectory entry = true
  · rw [if_pos sub,if_pos sub]
  · rw [if_neg sub,if_neg sub,if_neg (by omega),second]
    simp

theorem ShortName.spelled_chars (name : ShortName entry base ext) : ∀ c ∈ spelled entry base ext, c ≠ asciiTerm := by
  intro c member
  have plain (listed : c ∈ base++ext) : c ≠ asciiTerm := (name.chars c listed).1
  unfold spelled at member
  split at member
  · exact plain (List.mem_append_left ext member)
  · rcases List.mem_append.mp member with front | back
    · exact plain (List.mem_append_left ext front)
    · rcases List.mem_cons.mp back with rfl | back
      · decide
      · exact plain (List.mem_append_right base back)

theorem ShortName.spelled_length (name : ShortName entry base ext) : (spelled entry base ext).length ≤ 12 := by
  obtain ⟨_,small,extSmall⟩ := name.sizes
  unfold spelled
  split
  · omega
  · rw [List.length_append,List.length_cons]
    omega

theorem ShortName.matches_iff (name : ShortName entry base ext) (query : List UInt8) :
    entryMatches entry query = true ↔ SameCase (spelled entry base ext) (cString query) := by
  have short : (spelled entry base ext).length < nutsosMaxPath := Nat.lt_of_le_of_lt name.spelled_length (by decide)
  unfold entryMatches
  rw [name.fullFilename,beq_iff_eq]
  exact istrncmp_iff name.spelled_chars short [] query

theorem ShortName.no_dot (name : ShortName entry base ext) : dot ∉ base :=
  fun member => (name.chars dot (List.mem_append_left ext member)).2.2 rfl

theorem padded_injective {s t : List UInt8} (one : ∀ c ∈ s, NameChar c) (two : ∀ c ∈ t, NameChar c)
    (same : s++List.replicate m asciiSpace = t++List.replicate n asciiSpace) : s = t := by
  have room : ((s.length : Nat) : Int) ≤ s.length+t.length ∧ ((t.length : Nat) : Int) ≤ s.length+t.length := by omega
  have left := copyUntilSpace_padded one _ room.1 m
  rw [same,copyUntilSpace_padded two _ room.2 n,Prod.mk.injEq] at left
  exact left.1.symm

theorem ShortName.unique (one : ShortName entry base ext) (two : ShortName entry base' ext') : base = base' ∧ ext = ext' := by
  have front (b e : List UInt8) (name : ShortName entry b e) : ∀ c ∈ b, NameChar c :=
    fun c member => name.chars c (List.mem_append_left e member)
  have back (b e : List UInt8) (name : ShortName entry b e) : ∀ c ∈ e, NameChar c :=
    fun c member => name.chars c (List.mem_append_right b member)
  exact ⟨padded_injective (front _ _ one) (front _ _ two) (one.filename.symm.trans two.filename),
    padded_injective (back _ _ one) (back _ _ two) (one.extension.symm.trans two.extension)⟩

def visible (field : List UInt8) : List UInt8 := field.takeWhile (fun c => c != asciiTerm && !isspace c)

theorem visible_cons_stop (ended : c = asciiTerm ∨ isspace c = true) (rest : List UInt8) : visible (c::rest) = [] := by
  unfold visible
  rcases ended with rfl | space
  · rfl
  · rw [List.takeWhile_cons_of_neg (by simp [space])]

theorem visible_cons_more (more : ¬ (c = asciiTerm ∨ isspace c = true)) (rest : List UInt8) : visible (c::rest) = c::visible rest := by
  unfold visible
  rw [not_or,Bool.not_eq_true] at more
  rw [List.takeWhile_cons_of_pos (by simp [more.1,more.2])]

theorem copyUntilSpace_room (field : List UInt8) (room : Nat) :
    copyUntilSpace field room = ((visible field).take room,(room : Int)-((visible field).take room).length) := by
  induction field generalizing room with
  | nil => simp [copyUntilSpace,visible]
  | cons c rest ih =>
    rw [copyUntilSpace]
    cases room with
    | zero => simp
    | succ room =>
      rw [if_neg (by omega)]
      by_cases ended : c = asciiTerm ∨ isspace c = true
      · rw [if_pos ended,visible_cons_stop ended]
        simp
      · have less : ((room+1 : Nat) : Int)-1 = (room : Nat) := by omega
        rw [if_neg ended,visible_cons_more ended,less,ih room,List.take_succ_cons,List.length_cons]
        dsimp only
        rw [Prod.mk.injEq]
        exact ⟨rfl,by omega⟩

theorem copyUntilSpace_endless (field : List UInt8) (maxLen : Int) (negative : maxLen < 0) :
    (copyUntilSpace field maxLen).1 = visible field := by
  induction field generalizing maxLen with
  | nil => rfl
  | cons c rest ih =>
    rw [copyUntilSpace,if_neg (by omega)]
    by_cases ended : c = asciiTerm ∨ isspace c = true
    · rw [if_pos ended,visible_cons_stop ended]
    · rw [if_neg ended,visible_cons_more ended]
      exact congrArg (c::·) (ih (maxLen-1) (by omega))

theorem visible_chars (member : c ∈ visible field) : c ≠ asciiTerm := by
  have seen := List.mem_takeWhile_imp member
  intro ended
  simp [ended] at seen

def entryName (item : FatDirectoryItem) : List UInt8 :=
  visible item.filename++if FatDirectoryItem.isSubdirectory item then [] else dot::visible item.ext

-- At most maxLen bytes are stored, and they are a string: the name, or the
-- front of it.
def FilenameFits (item : FatDirectoryItem) (maxLen : Int) : Prop :=
  ((fat16GetFullFilename item maxLen).length : Int) ≤ maxLen ∧
    ∃ text, fat16GetFullFilename item maxLen = text++[asciiTerm] ∧ asciiTerm ∉ text ∧ text <+: entryName item

theorem fullFilename_directory (item : FatDirectoryItem) (room : Nat) (sub : FatDirectoryItem.isSubdirectory item = true) :
    fat16GetFullFilename item (room+1 : Nat) = (visible item.filename).take room++[asciiTerm] := by
  unfold fat16GetFullFilename
  rw [show ((room+1 : Nat) : Int)-1 = (room : Nat) by omega,copyUntilSpace_room]
  dsimp only
  rw [if_pos sub]

theorem fullFilename_file (item : FatDirectoryItem) (room : Nat) (file : ¬ FatDirectoryItem.isSubdirectory item = true) :
    fat16GetFullFilename item (room+1 : Nat) =
      if room ≤ (visible item.filename).length then (visible item.filename).take room++[dot]++visible item.ext++[asciiTerm]
      else if room = (visible item.filename).length+1 then visible item.filename
      else visible item.filename++[dot]++(visible item.ext).take (room-(visible item.filename).length-1)++[asciiTerm] := by
  unfold fat16GetFullFilename
  rw [show ((room+1 : Nat) : Int)-1 = (room : Nat) by omega,copyUntilSpace_room]
  dsimp only
  rw [if_neg file,List.length_take]
  by_cases full : room ≤ (visible item.filename).length
  · rw [if_pos full,if_neg (by omega),copyUntilSpace_endless _ _ (by omega)]
  · rw [if_neg full,List.take_of_length_le (by omega)]
    by_cases one : room = (visible item.filename).length+1
    · rw [if_pos one,if_pos (by omega)]
    · have left : (room : Int)-(min room (visible item.filename).length : Nat)-1 =
          ((room-(visible item.filename).length-1 : Nat) : Int) := by omega
      rw [if_neg one,if_neg (by omega),left,copyUntilSpace_room]

theorem filename_fits_iff (item : FatDirectoryItem) (maxLen : Int) (positive : 1 ≤ maxLen) :
    FilenameFits item maxLen ↔ FatDirectoryItem.isSubdirectory item = true ∨ ((visible item.filename).length : Int)+3 ≤ maxLen := by
  obtain ⟨room,rfl⟩ : ∃ room : Nat, maxLen = (room+1 : Nat) := ⟨(maxLen-1).toNat,by omega⟩
  unfold FilenameFits entryName
  by_cases sub : FatDirectoryItem.isSubdirectory item = true
  · rw [fullFilename_directory item room sub,if_pos sub,List.append_nil]
    refine ⟨fun _ => .inl sub,fun _ => ⟨?_,_,rfl,?_,List.take_prefix _ _⟩⟩
    · rw [List.length_append,List.length_take,List.length_singleton]
      omega
    · exact fun member => visible_chars (List.mem_of_mem_take member) rfl
  · rw [fullFilename_file item room sub,if_neg sub]
    constructor
    · rintro ⟨short,text,ended,_,_⟩
      by_cases full : room ≤ (visible item.filename).length
      · rw [if_pos full] at short
        simp only [List.length_append,List.length_take,List.length_singleton] at short
        omega
      · rw [if_neg full] at ended
        by_cases one : room = (visible item.filename).length+1
        · rw [if_pos one] at ended
          have nul : asciiTerm ∈ visible item.filename := by rw [ended]; simp
          exact absurd rfl (visible_chars nul)
        · exact .inr (by omega)
    · rintro (absurd' | fits)
      · exact absurd absurd' sub
      · rw [if_neg (by omega),if_neg (by omega)]
        refine ⟨?_,_,rfl,?_,?_⟩
        · simp only [List.length_append,List.length_take,List.length_singleton]
          omega
        · intro member
          simp only [List.mem_append,List.mem_singleton] at member
          rcases member with (front | separator) | back
          · exact visible_chars front rfl
          · exact absurd separator (by decide)
          · exact visible_chars (List.mem_of_mem_take back) rfl
        · rw [List.append_assoc]
          exact (List.prefix_append_right_inj _).mpr (List.prefix_cons_inj _ |>.mpr (List.take_prefix _ _))

def namedEntry (filename ext : List UInt8) : FatDirectoryItem := ⟨filename,ext,0,0,0⟩

theorem readme_fits : FilenameFits (namedEntry [0x52,0x45,0x41,0x44,0x4D,0x45,0x20,0x20] [0x54,0x58,0x54]) 9 :=
  (filename_fits_iff _ 9 (by decide)).mpr (.inr (by decide))

theorem full_name_overruns : ¬ FilenameFits (namedEntry [0x46,0x49,0x4C,0x45,0x4E,0x41,0x4D,0x45] [0x54,0x58,0x54]) 9 :=
  fun fits => absurd fits.1 (by decide)

end NutsOS.Fat16
