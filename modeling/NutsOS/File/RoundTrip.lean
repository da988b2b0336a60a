import NutsOS.File.Parsing
import NutsOS.Kernel.Boot

-- Which strings the parser reads back, and where it stops short.
namespace NutsOS.Files
open Stdutil HeapAlloc

-- What a component may be: anything but empty, without a separator or a NUL.
structure Name (name : List UInt8) : Prop where
  nonempty : name ≠ []
  plain : slash ∉ name
  clean : asciiTerm ∉ name

def rendered (names : List (List UInt8)) : List UInt8 := [slash].intercalate names

structure Terminated (name : List UInt8) : Prop where
  length : (partString name).length = nutsosMaxPath
  chars : (partString name).take name.length = name
  term : (partString name)[name.length]? = some asciiTerm

theorem terminated (fits : name.length < nutsosMaxPath) : Terminated name := by
  refine ⟨?_,List.take_left,?_⟩
  · unfold partString
    rw [List.length_append,List.length_drop,List.length_replicate]
    omega
  · unfold partString
    rw [List.getElem?_append_right (Nat.le_refl _),Nat.sub_self,List.drop_replicate,List.getElem?_replicate,if_pos (by omega)]
    rfl

theorem text_clean {path : List UInt8} (clean : ∀ c ∈ path, c ≠ asciiTerm) : text path = path :=
  List.takeWhile_eq_self_iff.mpr (fun c member => decide_eq_true (clean c member))

theorem rendered_clean (names : ∀ name ∈ list, Name name) : ∀ c ∈ rendered list, c ≠ asciiTerm := by
  induction list with
  | nil =>
    intro c member
    cases member
  | cons name rest ih =>
    have later := ih (fun other member => names other (List.mem_cons_of_mem _ member))
    have first := (names name List.mem_cons_self).clean
    intro c member same
    subst same
    cases rest with
    | nil =>
      rw [rendered,List.intercalate_singleton] at member
      exact first member
    | cons other rest =>
      rw [rendered,List.intercalate_cons_cons] at member
      rcases List.mem_append.mp member with front | behind
      · rcases List.mem_append.mp front with here | separator
        · exact first here
        · exact absurd separator (by decide)
      · exact later _ behind rfl

theorem rendered_snoc (some : list ≠ []) : rendered (list++[[]]) = rendered list++[slash] := by
  induction list with
  | nil => exact absurd rfl some
  | cons name rest ih =>
    cases rest with
    | nil => simp [rendered,List.intercalate]
    | cons other rest =>
      have later := ih (by simp)
      unfold rendered at *
      rw [List.cons_append,List.cons_append,List.intercalate_cons_cons,List.intercalate_cons_cons,
        ← List.cons_append,later]
      simp

theorem components_rendered (clean : ∀ c ∈ rendered list, c ≠ asciiTerm) (plain : ∀ name ∈ list, slash ∉ name)
    (some : list ≠ []) : components (rendered list) = list := by
  unfold components
  rw [text_clean clean]
  exact List.splitOn_intercalate slash plain some

theorem takeWhile_names (names : ∀ name ∈ list, Name name) (rest : List (List UInt8)) :
    (list++rest).takeWhile (· ≠ []) = list++rest.takeWhile (· ≠ []) :=
  List.takeWhile_append_of_pos (fun name member => decide_eq_true (names name member).nonempty)

-- The string of a list of names, with or without a separator at its end.
inductive Renders (list : List (List UInt8)) : List UInt8 → Prop where
  | plain : Renders list (rendered list)
  | slash : Renders list (rendered list++[slash])

theorem Renders.read_back (renders : Renders list path) (names : ∀ name ∈ list, Name name) (some : list ≠ []) :
    (∀ c ∈ path, c ≠ asciiTerm) ∧ parts path = list := by
  have clean := rendered_clean names
  have plain : ∀ name ∈ list, Files.slash ∉ name := fun name member => (names name member).plain
  cases renders with
  | plain =>
    refine ⟨clean,?_⟩
    have whole := takeWhile_names names []
    rw [List.append_nil] at whole
    unfold parts
    rw [components_rendered clean plain some,whole]
    exact List.append_nil list
  | slash =>
    have ended : ∀ c ∈ rendered list++[Files.slash], c ≠ asciiTerm := by
      intro c member
      rcases List.mem_append.mp member with inside | last
      · exact clean c inside
      · rw [List.mem_singleton.mp last]
        decide
    refine ⟨ended,?_⟩
    rw [← rendered_snoc some] at ended ⊢
    unfold parts
    rw [components_rendered ended ?_ (by simp),takeWhile_names names]
    · exact List.append_nil list
    · intro name member
      rcases List.mem_append.mp member with inside | last
      · exact plain name inside
      · rw [List.mem_singleton.mp last]
        exact List.not_mem_nil

theorem rendered_path_parsed (valid : HeapValid k) :
    (∀ drive list path, isdigit drive = true → list ≠ [] → (∀ name ∈ list, Name name) → Renders list path →
      (pathOf drive path).length ≤ nutsosMaxPath → Spare k.heap (2*list.length+2) →
        ∃ root first after, pathparserParse (pathOf drive path) k = .ok (root,after) ∧ root ≠ 0 ∧
          after.objs root = some (.pathRoot ⟨(drive.toNat : Int)-48,first⟩) ∧ PathList after first list ∧
          ∀ name ∈ list, Terminated name) ∧
      ∀ path, nutsosMaxPath < strlen path ∨ (¬ ∃ drive rest, isdigit drive = true ∧ path = drive::colon::slash::rest) →
        pathparserParse path k = .ok (0,k) := by
  constructor
  · intro drive list path digit some names renders short spare
    obtain ⟨clean,read⟩ := renders.read_back names some
    have length : strlen (pathOf drive path) ≤ nutsosMaxPath := Nat.le_trans (strlen_length _) short
    have list_eq : parts ((pathOf drive path).drop 3) = list := read
    obtain ⟨root,first,after,ran,_,nonnull,held,list,_⟩ := pathparserParse_list _ 0 spareStock valid length
      (pathOf_valid digit path) (by rw [list_eq]; exact spare)
    rw [list_eq] at list
    have value : ctoi (charOf (pathOf drive path)) = (drive.toNat : Int)-48 := (ctoi_digit digit).1
    rw [value] at held
    refine ⟨root,first,after,ran,nonnull,held,list,?_⟩
    intro name member
    rw [← read] at member
    have fits := parts_fit member
    rw [strlen_pathOf digit] at length
    exact terminated (by omega)
  · intro path bad
    apply pathparserParse_refused
    rcases bad with long | other
    · exact .inl long
    · right
      cases prefixed : pathparserIsPathValid path with
      | false => rfl
      | true => exact absurd (isPathValid_iff.mp prefixed) other

def sampleNames : List (List UInt8) := [[0x61],[0x62]]

theorem two_parts_parsed : ∃ root first after,
    pathparserParse (pathOf asciiZero (rendered sampleNames++[slash])) (bootKernel bootEntries noDisk) = .ok (root,after) ∧
      root ≠ 0 ∧ after.objs root = some (.pathRoot ⟨0,first⟩) ∧ PathList after first sampleNames := by
  have spare : Spare (bootKernel bootEntries noDisk).heap 6 := by
    obtain ⟨b,fits,free⟩ := boot_room bootEntries noDisk
    exact Room.spare ⟨b,by omega,free⟩
  have names : ∀ name ∈ sampleNames, Name name := by
    intro name member
    simp only [sampleNames,List.mem_cons,List.not_mem_nil,or_false] at member
    rcases member with rfl | rfl
    · exact ⟨by decide,by decide,by decide⟩
    · exact ⟨by decide,by decide,by decide⟩
  obtain ⟨root,first,after,ran,nonnull,held,list,_⟩ := (rendered_path_parsed (boot_valid bootEntries noDisk rfl)).1
    asciiZero sampleNames _ (by decide) (by decide) names .slash (by decide) spare
  exact ⟨root,first,after,ran,nonnull,held,list⟩

-- An empty component, and behind it one that is not.
def Redundant (path : List UInt8) : Prop :=
  ∃ front back, components (path.drop 3) = front++[]::back ∧ ∃ name ∈ back, name ≠ []

-- The result of a parse is NULL, or has every component that is not empty.
def KeepsAll (k : Kernel) (path : List UInt8) : Prop :=
  ∃ root after, pathparserParse path k = .ok (root,after) ∧
    (root = 0 ∨ ∃ drive first, after.objs root = some (.pathRoot ⟨drive,first⟩) ∧
      PathList after first ((components (path.drop 3)).filter (· ≠ [])))

-- The parser stops at the empty component and drops what is behind it.
theorem redundant_shorter (redundant : Redundant path) :
    (parts (path.drop 3)).length < ((components (path.drop 3)).filter (· ≠ [])).length := by
  obtain ⟨front,back,split,name,member,some⟩ := redundant
  have behind : 0 < (([]::back).filter (· ≠ ([] : List UInt8))).length :=
    List.length_pos_of_mem (List.mem_filter.mpr ⟨List.mem_cons_of_mem _ member,decide_eq_true some⟩)
  have stops : ((front++[]::back).takeWhile (· ≠ [])).length ≤ (front.filter (· ≠ [])).length := by
    clear split
    induction front with
    | nil => simp
    | cons first front ih =>
      by_cases empty : first = []
      · simp [empty]
      · simp only [List.cons_append,List.takeWhile_cons,List.filter_cons,empty,ne_eq,not_false_eq_true,decide_true,if_true,
          List.length_cons]
        exact Nat.succ_le_succ ih
  unfold parts
  rw [split,List.filter_append,List.length_append]
  omega

theorem redundant_kept (valid : HeapValid k) (redundant : Redundant path) :
    KeepsAll k path ↔ nutsosMaxPath < strlen path ∨ pathparserIsPathValid path = false := by
  constructor
  · intro ⟨root,after,ran,keeps⟩
    obtain ⟨grown,result⟩ := pathparserParse_grown valid ran
    cases result with
    | refused bad => exact bad
    | parsed _ _ nonnull first held list =>
      rcases keeps with null | ⟨drive,other,held',kept⟩
      · exact absurd null nonnull
      · rw [held] at held'
        cases held'
        have shorter := redundant_shorter redundant
        have same := list.length_eq grown.valid kept
        omega
  · intro bad
    exact ⟨0,k,pathparserParse_refused bad k,.inl rfl⟩

-- "0:/a//b" on a fresh heap: the parser returns a root with the single part "a".
def doubledPath : List UInt8 := [0x30,0x3A,0x2F,0x61,0x2F,0x2F,0x62]

theorem doubled_slash_cut : Redundant doubledPath ∧ ¬ KeepsAll (bootKernel bootEntries noDisk) doubledPath ∧
    ∃ root first after, pathparserParse doubledPath (bootKernel bootEntries noDisk) = .ok (root,after) ∧ root ≠ 0 ∧
      after.objs root = some (.pathRoot ⟨0,first⟩) ∧ PathList after first [[0x61]] := by
  have valid := boot_valid bootEntries noDisk rfl
  have split : components (doubledPath.drop 3) = [[0x61],[],[0x62]] := by decide
  have redundant : Redundant doubledPath := ⟨[[0x61]],[[0x62]],split,[0x62],by simp,by decide⟩
  obtain ⟨b,fits,free⟩ := boot_room bootEntries noDisk
  obtain ⟨root,first,after,ran,grown,nonnull,held,list,_⟩ := pathparserParse_list doubledPath 131068 roomStock valid (by decide)
    (by decide) (show Room _ _ from ⟨b,fits,free⟩)
  have single : parts (doubledPath.drop 3) = [[0x61]] := by decide
  rw [single] at list
  refine ⟨redundant,?_,root,first,after,ran,nonnull,held,list⟩
  rintro ⟨other,result,ran',keeps⟩
  rw [ran] at ran'
  cases ran'
  rcases keeps with null | ⟨drive,first',held',kept⟩
  · exact nonnull null
  · rw [held] at held'
    cases held'
    have same := list.length_eq grown.valid kept
    rw [split] at same
    exact absurd same (by decide)

theorem no_drive_refused : KeepsAll (bootKernel bootEntries noDisk) (0x20::0x20::0x20::doubledPath.drop 3) :=
  (redundant_kept (boot_valid bootEntries noDisk rfl)
    ⟨[[0x61]],[[0x62]],by decide,[0x62],by simp,by decide⟩).mpr (.inr (by decide))

end NutsOS.Files
