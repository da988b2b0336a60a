import NutsOS.Fat16.Entries
import NutsOS.Fat16.RootFile

-- Which entries of a directory the search loop visits.
namespace NutsOS.Fat16
open Word32 Bytes HeapAlloc DiskStreams Prog Files Stdutil

-- The loop looks at index i when no entry in front of it has the name.
def Visits (items : List FatDirectoryItem) (total : Int) (name : List UInt8) (i : Nat) : Prop :=
  i < total.toNat ∧ ∀ j < i, ∀ entry, items[j]? = some entry → entryMatches entry name = false

theorem search_found {k : Kernel} (held : k.objs directory.item = some (.directoryItems items))
    (visits : Visits items directory.total name i) (here : items[i]? = some entry) (found : entryMatches entry name = true)
    (dev : BlockDevice) : fat16FindItemInDirectory dev directory name k = fat16NewFatItemForDirectoryItem dev entry k := by
  obtain ⟨inside,equal⟩ := List.getElem?_eq_some_iff.mp here
  have split : items = items.take i++entry::items.drop (i+1) := by
    rw [← equal,← List.drop_eq_getElem_cons inside]
    exact (List.take_append_drop i items).symm
  have others : ∀ other ∈ items.take i, entryMatches other name = false := by
    intro other member
    obtain ⟨j,early,same⟩ := List.mem_iff_getElem.mp member
    rw [List.length_take] at early
    refine visits.2 j (by omega) other ?_
    rw [← same,List.getElem_take]
    exact List.getElem?_eq_getElem _
  unfold fat16FindItemInDirectory
  rw [split] at held
  rw [← findItemWith_plain,← newFatItemWith_plain]
  refine findItem_run (plain_faithful dev) [] held others found ?_
  rw [List.length_take]
  have bound := visits.1
  omega

theorem compareChars_longer {lower : UInt8 → UInt8} {s1 s2 : List UInt8} (term : lower asciiTerm = asciiTerm)
    (clean : ∀ c ∈ s2, lower c ≠ asciiTerm) (shorter : s1.length < s2.length) (short : s1.length < n) :
    compareChars lower s1 s2 n ≠ 0 := by
  induction s1 generalizing s2 n with
  | nil =>
    cases s2 with
    | nil => cases shorter
    | cons c rest =>
      cases n with
      | zero => cases short
      | succ n =>
        have other : lower c ≠ asciiTerm := clean c List.mem_cons_self
        have positive : (lower c).toNat ≠ 0 := fun zero => other (UInt8.toNat_inj.mp zero)
        rw [compareChars,if_neg (fun both => both.1 rfl)]
        show ((lower asciiTerm).toNat : Int)-(lower c).toNat ≠ 0
        rw [term]
        show ((0 : Nat) : Int)-(lower c).toNat ≠ 0
        omega
  | cons d s1 ih =>
    cases s2 with
    | nil => cases shorter
    | cons c rest =>
      cases n with
      | zero => cases short
      | succ n =>
        rw [compareChars]
        by_cases both : charOf (d::s1) ≠ asciiTerm ∧ lower (charOf (d::s1)) = lower (charOf (c::rest))
        · rw [if_pos both]
          exact ih (fun e member => clean e (List.mem_cons_of_mem _ member)) (Nat.lt_of_succ_lt_succ shorter)
            (Nat.lt_of_succ_lt_succ short)
        · rw [if_neg both]
          intro same
          have equal : lower d = lower c := UInt8.toNat_inj.mp (by
            change ((lower d).toNat : Int)-(lower c).toNat = 0 at same
            omega)
          have ended : d = asciiTerm := by
            by_contra some
            exact both ⟨some,equal⟩
          rw [ended,term] at equal
          exact clean c List.mem_cons_self equal.symm

theorem copyUntilSpace_length (chars : List UInt8) (maxLen : Int) : (copyUntilSpace chars maxLen).1.length ≤ chars.length := by
  induction chars generalizing maxLen with
  | nil => exact Nat.le_refl _
  | cons c rest ih =>
    rw [copyUntilSpace]
    split
    · exact Nat.zero_le _
    · split
      · exact Nat.zero_le _
      · exact Nat.succ_le_succ (ih (maxLen-1))

theorem fullFilename_length (item : FatDirectoryItem) (maxLen : Int) :
    (fat16GetFullFilename item maxLen).length ≤ item.filename.length+item.ext.length+2 := by
  have name := copyUntilSpace_length item.filename (maxLen-1)
  have ext := copyUntilSpace_length item.ext ((copyUntilSpace item.filename (maxLen-1)).2-1)
  unfold fat16GetFullFilename
  dsimp only
  split
  · rw [List.length_append,List.length_singleton]
    omega
  · split
    · omega
    · simp only [List.length_append,List.length_singleton]
      omega

-- A name that no entry of the disk has: they end after eight and three characters.
def longName : List UInt8 := List.replicate 14 asciiA

theorem longName_unmatched (filename : item.filename.length ≤ 8) (ext : item.ext.length ≤ 3) :
    entryMatches item longName = false := by
  have length := fullFilename_length item nutsosMaxPath
  have clean : ∀ c ∈ longName, tolower c ≠ asciiTerm := by
    intro c member
    rw [List.eq_of_mem_replicate member]
    decide
  have differ : compareChars tolower (fat16GetFullFilename item nutsosMaxPath) longName nutsosMaxPath ≠ 0 :=
    compareChars_longer (by decide) clean (by
      have long : longName.length = 14 := List.length_replicate
      omega) (by
      unfold nutsosMaxPath at *
      omega)
  unfold entryMatches istrncmp
  simpa using differ

theorem directoryItems_unmatched (count : Nat) (bytes : List UInt8) :
    ∀ entry ∈ directoryItems count bytes, entryMatches entry longName = false := by
  induction count generalizing bytes with
  | zero =>
    intro entry member
    cases member
  | succ count ih =>
    intro entry member
    cases member with
    | head => exact longName_unmatched (List.length_take_le _ _) (List.length_take_le _ _)
    | tail _ later => exact ih (bytes.drop 32) entry later

-- The search visits the live entries of the table that ends at index t, each at
-- its place, and no deleted one.
structure VisitsLive (items : List FatDirectoryItem) (total : Int) (byte : Nat → UInt8) (t : Nat) : Prop where
  live : ∀ name j, j < t → ¬ Deleted byte j →
    (∀ i < j, ∀ entry, items[i]? = some entry → entryMatches entry name = false) →
      Visits items total name j ∧ items[j]? = some (entryOf byte j)
  deleted : ∀ name j, Visits items total name j → j < t → ¬ Deleted byte j

theorem VisitsLive.lookup {k : Kernel} (visits : VisitsLive items directory.total byte t)
    (held : k.objs directory.item = some (.directoryItems items)) (inside : j < t) (live : ¬ Deleted byte j)
    (named : entryMatches (entryOf byte j) name = true)
    (first : ∀ i < j, ∀ entry, items[i]? = some entry → entryMatches entry name = false) (dev : BlockDevice) :
    fat16FindItemInDirectory dev directory name k = fat16NewFatItemForDirectoryItem dev (entryOf byte j) k := by
  obtain ⟨visited,here⟩ := visits.live name j inside live first
  exact search_found held visited here named dev

-- No deleted entry stands in front of a live one.
def Holeless (byte : Nat → UInt8) (t : Nat) : Prop := ∀ i j, i < j → j < t → Deleted byte i → Deleted byte j

theorem Holeless.live (holeless : Holeless byte t) : ∀ j, j < t → (¬ Deleted byte j ↔ j < liveCount byte 0 t) := by
  induction t with
  | zero =>
    intro j absurd
    cases absurd
  | succ t ih =>
    have before := ih (fun i j less inside => holeless i j less (by omega))
    have most := liveCount_le byte 0 t
    have last : liveCount byte 0 (t+1) = liveCount byte 0 t+liveCount byte t 1 := by
      rw [liveCount_append,Nat.zero_add]
    intro j inside
    by_cases gone : Deleted byte t
    · rw [last,liveCount_deleted _ gone,liveCount,Nat.add_zero]
      by_cases here : j = t
      · rw [here]
        exact ⟨fun live => absurd gone live,fun less => absurd less (Nat.not_lt.mpr most)⟩
      · exact before j (by omega)
    · rw [last,liveCount_live _ gone,liveCount,Nat.zero_add]
      -- the last entry is live, so none in front of it is deleted
      have all : liveCount byte 0 t = t :=
        liveCount_all (fun i _ less dead => gone (holeless i t (by omega) (by omega) dead))
      rw [all]
      refine ⟨fun _ => inside,fun _ dead => ?_⟩
      by_cases here : j = t
      · rw [here] at dead
        exact gone dead
      · exact gone (holeless j t (by omega) (by omega) dead)

theorem visits_iff (items : List FatDirectoryItem) (loaded : Nat → FatDirectoryItem) (array : ∀ i < n, items[i]? = some (loaded i))
    (unmatched : ∀ entry ∈ items, entryMatches entry longName = false) (t : Nat) (byte : Nat → UInt8) :
    VisitsLive items (n : Nat) byte t ↔ Holeless byte t ∧
      (n = liveCount byte 0 t ∨ (liveCount byte 0 t = t ∧ t ≤ n)) ∧ ∀ j < liveCount byte 0 t, loaded j = entryOf byte j := by
  constructor
  · intro visits
    have silent (j : Nat) : ∀ i < j, ∀ entry, items[i]? = some entry → entryMatches entry longName = false :=
      fun i _ entry here => unmatched entry (List.mem_of_getElem? here)
    have kept : ∀ j < n, j < t → ¬ Deleted byte j := fun j inside =>
      visits.deleted longName j ⟨inside,silent j⟩
    have reached : ∀ j < t, ¬ Deleted byte j → j < n := fun j inside live =>
      (visits.live longName j inside live (silent j)).1.1
    have holeless : Holeless byte t := by
      intro i j less inside dead
      by_contra live
      exact kept i (Nat.lt_trans less (reached j inside live)) (by omega) dead
    have most := liveCount_le byte 0 t
    have place := holeless.live
    refine ⟨holeless,?_,?_⟩
    · by_cases all : liveCount byte 0 t = t
      · by_cases empty : t = 0
        · exact .inr ⟨all,by omega⟩
        · have last := reached (t-1) (by omega) ((place (t-1) (by omega)).mpr (by omega))
          exact .inr ⟨all,by omega⟩
      · left
        -- the entry behind the live ones is deleted, so it is not visited
        have gone : ¬ liveCount byte 0 t < n := by
          intro visited
          exact Nat.lt_irrefl _ ((place (liveCount byte 0 t) (by omega)).mp (kept (liveCount byte 0 t) visited (by omega)))
        by_cases none : liveCount byte 0 t = 0
        · omega
        · have last := reached (liveCount byte 0 t-1) (by omega) ((place (liveCount byte 0 t-1) (by omega)).mpr (by omega))
          omega
    · intro j live
      obtain ⟨visited,here⟩ := visits.live longName j (by omega) ((place j (by omega)).mpr live) (silent j)
      rw [array j visited.1] at here
      exact Option.some.inj here
  · intro ⟨holeless,count,same⟩
    have place := holeless.live
    have most := liveCount_le byte 0 t
    constructor
    · intro name j inside live first
      have early := (place j inside).mp live
      have visited : j < n := by omega
      refine ⟨⟨visited,first⟩,?_⟩
      rw [array j visited,same j early]
    · intro name j visited inside
      have bound : j < n := visited.1
      refine (place j inside).mpr ?_
      omega

end NutsOS.Fat16
