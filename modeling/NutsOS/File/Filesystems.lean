import NutsOS.File.File

-- file.c: the table of the file systems, and the one that takes a disk.
namespace NutsOS.Files
open Prog

def nutsosMaxFilesystems : Nat := 16

-- The static array of pointers; a null pointer is none.
abbrev Filesystems (φ : Type) := Nat → Option φ

variable {φ ε σ : Type}

def fsGetFreeFrom (filesystems : Filesystems φ) : Nat → Nat → Option Nat
  | 0,_ => none
  | count+1,i => if (filesystems i).isNone then some i else fsGetFreeFrom filesystems count (i+1)

def fsGetFreeFilesystem (filesystems : Filesystems φ) : Option Nat := fsGetFreeFrom filesystems nutsosMaxFilesystems 0

def fsInsertFilesystem (filesystem : Option φ) : Prog Fault (Filesystems φ) Int := do
  match fsGetFreeFilesystem (← Prog.get) with
  | none => return -enomem
  | some fs =>
    Prog.modify (fun filesystems i => if i = fs then filesystem else filesystems i)
    return 0

-- The loop of fs_resolve; `resolve` calls the function of the file system.
def fsResolveFrom (resolve : φ → Prog ε σ Int) (filesystems : Filesystems φ) : Nat → Nat → Prog ε σ (Option φ)
  | 0,_ => return none
  | count+1,i =>
    match filesystems i with
    | none => fsResolveFrom resolve filesystems count (i+1)
    | some fs => do
      let res ← resolve fs
      if res = 0 then return some fs
      fsResolveFrom resolve filesystems count (i+1)

def fsResolve (resolve : φ → Prog ε σ Int) (filesystems : Filesystems φ) : Prog ε σ (Option φ) :=
  fsResolveFrom resolve filesystems nutsosMaxFilesystems 0

def insertAll : List (Option φ) → Prog Fault (Filesystems φ) (List Int)
  | [] => return []
  | filesystem::rest => do
    let res ← fsInsertFilesystem filesystem
    let results ← insertAll rest
    return res::results

-- An insertion is refused when 16 file systems are there already. A null pointer
-- takes no entry.
def insertResults : Nat → List (Option φ) → List Int
  | _,[] => []
  | used,filesystem::rest =>
    (if used < nutsosMaxFilesystems then 0 else -enomem)::insertResults (min nutsosMaxFilesystems (used+filesystem.toList.length)) rest

def registered (log : List (Option φ)) : List φ := (log.filterMap id).take nutsosMaxFilesystems

def tryAll (resolve : φ → Prog ε σ Int) : List φ → Prog ε σ (Option φ)
  | [] => return none
  | fs::rest => do
    let res ← resolve fs
    if res = 0 then return some fs
    tryAll resolve rest

structure Lists (filesystems : Filesystems φ) (list : List φ) : Prop where
  entries : ∀ i, filesystems i = list[i]?
  short : list.length ≤ nutsosMaxFilesystems

theorem Lists.free {filesystems : Filesystems φ} (lists : Lists filesystems list) (before : i ≤ list.length) :
    fsGetFreeFrom filesystems count i = if list.length < i+count then some list.length else none := by
  induction count generalizing i with
  | zero =>
    rw [if_neg (by omega)]
    rfl
  | succ count ih =>
    rw [fsGetFreeFrom,lists.entries i]
    by_cases last : i = list.length
    · rw [last,List.getElem?_eq_none (Nat.le_refl _),if_pos Option.isNone_none,if_pos (by omega)]
    · have inside : i < list.length := by omega
      rw [List.getElem?_eq_getElem inside,if_neg (by simp),ih (by omega)]
      have same : i+1+count = i+(count+1) := by omega
      rw [same]

theorem Lists.getFree {filesystems : Filesystems φ} (lists : Lists filesystems list) :
    fsGetFreeFilesystem filesystems = if list.length < nutsosMaxFilesystems then some list.length else none := by
  have found : fsGetFreeFrom filesystems nutsosMaxFilesystems 0 = _ := lists.free (Nat.zero_le _)
  rw [Nat.zero_add] at found
  exact found

theorem Lists.resolve {filesystems : Filesystems φ} (lists : Lists filesystems list) (resolve : φ → Prog ε σ Int)
    (rest : list.length ≤ i+count) : fsResolveFrom resolve filesystems count i = tryAll resolve (list.drop i) := by
  induction count generalizing i with
  | zero =>
    rw [List.drop_eq_nil_of_le (by omega)]
    rfl
  | succ count ih =>
    rw [fsResolveFrom,lists.entries i,ih (by omega)]
    by_cases inside : i < list.length
    · rw [List.getElem?_eq_getElem inside,List.drop_eq_getElem_cons inside]
      rfl
    · rw [List.getElem?_eq_none (by omega),List.drop_eq_nil_of_le (by omega),List.drop_eq_nil_of_le (by omega)]

theorem Lists.insert {filesystems : Filesystems φ} (lists : Lists filesystems list) (filesystem : Option φ) :
    ∃ after, fsInsertFilesystem filesystem filesystems = .ok (if list.length < nutsosMaxFilesystems then 0 else -enomem,after) ∧
      Lists after ((list++filesystem.toList).take nutsosMaxFilesystems) := by
  have short := lists.short
  unfold fsInsertFilesystem
  rw [get_bind,lists.getFree]
  by_cases free : list.length < nutsosMaxFilesystems
  · rw [if_pos free,if_pos free]
    refine ⟨_,rfl,?_⟩
    cases filesystem with
    | none =>
      rw [Option.toList_none,List.append_nil,List.take_of_length_le short]
      refine ⟨fun i => ?_,short⟩
      dsimp only
      by_cases here : i = list.length
      · rw [if_pos here,here,List.getElem?_eq_none (Nat.le_refl _)]
      · rw [if_neg here]
        exact lists.entries i
    | some fs =>
      have size : (list++[fs]).length ≤ nutsosMaxFilesystems := by
        rw [List.length_append,List.length_singleton]
        omega
      rw [Option.toList_some,List.take_of_length_le size]
      refine ⟨fun i => ?_,size⟩
      dsimp only
      by_cases here : i = list.length
      · rw [if_pos here,here,List.getElem?_append_right (Nat.le_refl _),Nat.sub_self]
        rfl
      · rw [if_neg here,lists.entries i]
        by_cases inside : i < list.length
        · rw [List.getElem?_append_left inside]
        · rw [List.getElem?_eq_none (by omega),List.getElem?_eq_none (by rw [List.length_append,List.length_singleton]; omega)]
  · have full : list.length = nutsosMaxFilesystems := by omega
    rw [if_neg free,if_neg free]
    refine ⟨filesystems,rfl,?_⟩
    rw [← full,List.take_left]
    exact lists

theorem take_append_take (one two : List α) (n : Nat) : (one.take n++two).take n = (one++two).take n := by
  rw [List.take_append,List.take_append,List.take_take,Nat.min_self,List.length_take]
  by_cases short : one.length ≤ n
  · rw [Nat.min_eq_right short]
  · have none : n-min n one.length = 0 ∧ n-one.length = 0 := by omega
    rw [none.1,none.2]

theorem Lists.insertAll {filesystems : Filesystems φ} (lists : Lists filesystems list) (log : List (Option φ)) :
    ∃ after, insertAll log filesystems = .ok (insertResults list.length log,after) ∧
      Lists after ((list++log.filterMap id).take nutsosMaxFilesystems) := by
  induction log generalizing filesystems list with
  | nil =>
    refine ⟨filesystems,rfl,?_⟩
    rw [List.filterMap_nil,List.append_nil,List.take_of_length_le lists.short]
    exact lists
  | cons filesystem rest ih =>
    obtain ⟨one,first,lists'⟩ := lists.insert filesystem
    obtain ⟨after,later,lists''⟩ := ih lists'
    refine ⟨after,?_,?_⟩
    · rw [NutsOS.Files.insertAll,bind_run first,bind_run later,insertResults,List.length_take,List.length_append]
      rfl
    · rw [take_append_take,List.append_assoc] at lists''
      have same : filesystem.toList++rest.filterMap id = (filesystem::rest).filterMap id := by
        cases filesystem <;> rfl
      rw [← same]
      exact lists''

theorem registry_exact (log : List (Option φ)) : ∃ filesystems, insertAll log (fun _ => none) = .ok (insertResults 0 log,filesystems) ∧
    ∀ {ε σ : Type} (resolve : φ → Prog ε σ Int), fsResolve resolve filesystems = tryAll resolve (registered log) := by
  have empty : Lists (fun _ => (none : Option φ)) [] := ⟨fun _ => rfl,Nat.zero_le _⟩
  obtain ⟨filesystems,ran,lists⟩ := empty.insertAll log
  refine ⟨filesystems,ran,fun resolve => ?_⟩
  have short := lists.short
  exact lists.resolve resolve (by rw [Nat.zero_add]; exact short)

end NutsOS.Files
