import NutsOS.Lib.WriteLog
import NutsOS.Paging.Directory

-- A page directory as a flat map from pages to entries.
namespace NutsOS.Paging
open Word32 WriteLog

-- A directory of 1024 tables, each in a block of its own.
structure DirectoryAt (k : Kernel) (directory dirFlags : Nat) (table : Nat → Nat) : Prop where
  held : ∃ words, k.objs directory = some (.words words) ∧ words.count = 1024 ∧
    ∀ i < 1024, words.word i = table i ||| dirFlags
  tables : ∀ i < 1024, ∃ words, k.objs (table i) = some (.words words) ∧ words.count = 1024
  framed : ∀ i < 1024, table i % 4096 = 0 ∧ table i < 4294967296
  flagged : dirFlags < 4096
  distinct : ∀ i < 1024, ∀ j < 1024, table i = table j → i = j
  apart : ∀ i < 1024, table i ≠ directory

def IsTable (table : Nat → Nat) (ptr : Nat) : Prop := ∃ i < 1024, ptr = table i

def tableWord (k : Kernel) (ptr i : Nat) : Nat :=
  match k.objs ptr with
  | some (.words words) => words.word i
  | _ => 0

theorem tableWord_held {k : Kernel} (held : k.objs ptr = some (.words words)) : tableWord k ptr i = words.word i := by
  unfold tableWord
  rw [held]

def entryOf (k : Kernel) (table : Nat → Nat) (page : Nat) : Nat := tableWord k (table (page/1024)) (page%1024)

-- What the processor finds for an address: the page's frame and flags, and the
-- flags of its directory entry.
structure Translation where
  frame : Nat
  flags : Nat
  directoryFlags : Nat
  deriving DecidableEq

def translate (k : Kernel) (directory virt : Nat) : Option Translation :=
  match k.objs directory with
  | some (.words entries) =>
    let dirEntry := entries.word (virt/4194304)
    match k.objs (pagingEntryGetPointer dirEntry) with
    | some (.words words) =>
      let entry := words.word (virt/4096%1024)
      some ⟨pagingEntryGetPointer entry,pagingEntryGetFlags entry,pagingEntryGetFlags dirEntry⟩
    | _ => none
  | _ => none

theorem loadWords_run {k : Kernel} (held : k.objs ptr = some (.words words)) :
    loadAs asWords ptr k = .ok (words,k) := loadAs_run _ held rfl

theorem setWord_run {k : Kernel} (held : k.objs ptr = some (.words words)) (inside : i < words.count) :
    setWord ptr i value k = .ok ((),k.place ptr (.words (Words.set words i value))) := by
  unfold setWord
  rw [Prog.bind_run (loadWords_run held),if_neg (by omega)]
  rfl

theorem getWord_run {k : Kernel} (held : k.objs ptr = some (.words words)) (inside : i < words.count) :
    getWord ptr i k = .ok (words.word i,k) := by
  unfold getWord
  rw [Prog.bind_run (loadWords_run held),if_neg (by omega)]
  rfl

theorem DirectoryAt.pointer (valid : DirectoryAt k directory dirFlags table) (inside : i < 1024) :
    pagingEntryGetPointer (table i ||| dirFlags) = table i :=
  or_flags_frame (valid.framed i inside).1 valid.flagged (valid.framed i inside).2

theorem aligned_true (aligned : virt%4096 = 0) : pagingIsAligned virt = true := by
  simp [pagingIsAligned,pagingPageSize,aligned]

theorem aligned_false (unaligned : ¬ virt%4096 = 0) : pagingIsAligned virt = false := by
  simp [pagingIsAligned,pagingPageSize,unaligned]

theorem pagingSet_run (valid : DirectoryAt k directory dirFlags table) (aligned : virt%4096 = 0)
    (word : virt < 4294967296) (pdesc : Nat) :
    ∃ after, pagingSet directory virt pdesc k = .ok (0,after) ∧ DirectoryAt after directory dirFlags table ∧
      SameBut k after (IsTable table) ∧
      ∀ page < 1048576, entryOf after table page = write (entryOf k table) (virt/4096,pdesc) page := by
  obtain ⟨entries,dirHeld,dirCount,dirWords⟩ := valid.held
  have index : virt/(pagingTotalEntriesPerTable*pagingPageSize) = virt/4096/1024 := by
    rw [Nat.div_div_eq_div_mul]
    rfl
  have column : virt%(pagingTotalEntriesPerTable*pagingPageSize)/pagingPageSize = virt/4096%1024 := by
    unfold pagingTotalEntriesPerTable pagingPageSize
    omega
  have inside : virt/4096/1024 < 1024 := by omega
  have inTable : virt/4096%1024 < 1024 := Nat.mod_lt _ (by decide)
  generalize virt/4096 = target at *
  obtain ⟨words,tableHeld,tableCount⟩ := valid.tables _ inside
  refine ⟨k.place (table (target/1024)) (.words (Words.set words (target%1024) pdesc)),?_,?_,
    .place ⟨_,inside,rfl⟩ _,?_⟩
  · unfold pagingSet pagingGetIndexes
    simp only [aligned_true aligned,Bool.not_true,if_false,Bool.false_eq_true,index,column]
    rw [Prog.bind_run (getWord_run dirHeld (dirCount ▸ inside)),dirWords _ inside,valid.pointer inside,
      Prog.bind_run (setWord_run tableHeld (tableCount ▸ inTable))]
    rfl
  · refine ⟨⟨entries,?_,dirCount,dirWords⟩,?_,valid.framed,valid.flagged,valid.distinct,valid.apart⟩
    · rw [Kernel.place_other (Ne.symm (valid.apart _ inside))]
      exact dirHeld
    · intro i small
      by_cases same : table i = table (target/1024)
      · rw [same]
        exact ⟨_,Kernel.place_same _ _ _,tableCount⟩
      · rw [Kernel.place_other same]
        exact valid.tables i small
  · intro page small
    change tableWord _ (table (page/1024)) (page%1024) =
      if page = target then pdesc else tableWord k (table (page/1024)) (page%1024)
    by_cases same : page/1024 = target/1024
    · have cell : page%1024 = target%1024 ↔ page = target := by omega
      rw [same,tableWord_held (Kernel.place_same _ _ _),tableWord_held tableHeld]
      simp only [Words.set,cell]
    · have other : table (page/1024) ≠ table (target/1024) := fun equal =>
        same (valid.distinct _ (by omega) _ inside equal)
      have different : page ≠ target := fun equal => same (by rw [equal])
      rw [if_neg different]
      unfold tableWord
      rw [Kernel.place_other other]

-- The directory maps each page to a frame with flags.
structure Maps (k : Kernel) (directory dirFlags : Nat) (table : Nat → Nat) (m : Nat → Nat × Nat) : Prop
    extends DirectoryAt k directory dirFlags table where
  entry : ∀ page < 1048576, entryOf k table page = (m page).1 ||| (m page).2
  pages : ∀ page < 1048576, (m page).1 % 4096 = 0 ∧ (m page).1 < 4294967296 ∧ (m page).2 < 4096

theorem DirectoryAt.congr (valid : DirectoryAt k directory dirFlags table) (dir : l.objs directory = k.objs directory)
    (tables : ∀ i < 1024, l.objs (table i) = k.objs (table i)) : DirectoryAt l directory dirFlags table := by
  refine ⟨dir ▸ valid.held,?_,valid.framed,valid.flagged,valid.distinct,valid.apart⟩
  intro i inside
  rw [tables i inside]
  exact valid.tables i inside

theorem Maps.congr (valid : Maps k directory dirFlags table m) (dir : l.objs directory = k.objs directory)
    (tables : ∀ i < 1024, l.objs (table i) = k.objs (table i)) : Maps l directory dirFlags table m := by
  refine ⟨valid.toDirectoryAt.congr dir tables,?_,valid.pages⟩
  intro page inside
  have entry := valid.entry page inside
  unfold entryOf tableWord at *
  rw [tables _ (by omega)]
  exact entry

theorem Maps.translate (valid : Maps k directory dirFlags table m) (word : virt < 4294967296) :
    translate k directory virt = some ⟨(m (virt/4096)).1,(m (virt/4096)).2,dirFlags⟩ := by
  obtain ⟨entries,dirHeld,_,dirWords⟩ := valid.held
  have inside : virt/4194304 < 1024 := by omega
  have row : virt/4096/1024 = virt/4194304 := by omega
  obtain ⟨words,tableHeld,_⟩ := valid.tables _ inside
  obtain ⟨aligned,small,flags⟩ := valid.pages (virt/4096) (by omega)
  have entry := valid.entry (virt/4096) (by omega)
  unfold entryOf at entry
  rw [row,tableWord_held tableHeld] at entry
  unfold Paging.translate
  simp only [dirHeld,dirWords _ inside,valid.pointer inside,tableHeld,entry]
  rw [pagingEntryGetPointer,or_flags_frame aligned flags small,pagingEntryGetFlags,or_flags_low aligned flags,
    pagingEntryGetFlags,or_flags_low (valid.framed _ inside).1 valid.flagged]

theorem pagingMap_run (valid : Maps k directory dirFlags table m) (alignedVirt : virt%4096 = 0)
    (alignedPhys : phys%4096 = 0) (virtWord : virt < 4294967296) (physWord : phys < 4294967296) (small : flags < 4096) :
    ∃ after, pagingMap directory virt phys (flags : Nat) k = .ok (0,after) ∧
      Maps after directory dirFlags table (write m (virt/4096,(phys,flags))) ∧ SameBut k after (IsTable table) := by
  obtain ⟨after,ran,at',same,entries⟩ := pagingSet_run valid.toDirectoryAt alignedVirt virtWord (phys ||| flags)
  refine ⟨after,?_,⟨at',?_,?_⟩,same⟩
  · unfold pagingMap pagingEntrySetFlags
    simp only [aligned_true alignedVirt,aligned_true alignedPhys,toUint32_natCast (show flags < 4294967296 by omega)]
    exact ran
  · intro page inside
    rw [entries page inside]
    by_cases here : page = virt/4096
    · simp [write,here]
    · simp only [write,here,if_false]
      exact valid.entry page inside
  · intro page inside
    by_cases here : page = virt/4096
    · simp only [write,here,if_true]
      exact ⟨alignedPhys,physWord,small⟩
    · simp only [write,here,if_false]
      exact valid.pages page inside

theorem pagingMap_unaligned (unaligned : ¬ (virt%4096 = 0 ∧ phys%4096 = 0)) (directory : Nat) (flags : Int) (k : Kernel) :
    pagingMap directory virt phys flags k = .ok (-einvarg,k) := by
  unfold pagingMap
  by_cases alignedVirt : virt%4096 = 0
  · have unalignedPhys : ¬ phys%4096 = 0 := fun aligned => unaligned ⟨alignedVirt,aligned⟩
    simp [aligned_false unalignedPhys]
  · simp [aligned_false alignedVirt]

-- The writes of a range, page by page, addresses modulo 2^32.
def rangeWrites (virt phys count flags : Nat) : List (Nat × (Nat × Nat)) :=
  (List.range count).map (fun i => ((virt+i*4096)%4294967296/4096,((phys+i*4096)%4294967296,flags)))

theorem rangeWrites_succ (virtWord : virt < 4294967296) (physWord : phys < 4294967296) (count flags : Nat) :
    rangeWrites virt phys (count+1) flags = (virt/4096,(phys,flags)) ::
      rangeWrites ((virt+4096)%4294967296) ((phys+4096)%4294967296) count flags := by
  unfold rangeWrites
  rw [List.range_succ_eq_map,List.map_cons,List.map_map]
  have first : (virt+0*4096)%4294967296 = virt ∧ (phys+0*4096)%4294967296 = phys := by omega
  rw [first.1,first.2]
  apply congrArg (List.cons _)
  apply List.map_congr_left
  intro i _
  have virtNext : (virt+(i+1)*4096)%4294967296 = ((virt+4096)%4294967296+i*4096)%4294967296 := by omega
  have physNext : (phys+(i+1)*4096)%4294967296 = ((phys+4096)%4294967296+i*4096)%4294967296 := by omega
  simp only [Function.comp,Nat.succ_eq_add_one,virtNext,physNext]

theorem next_page (virt : Nat) :
    toUint32 ((virt : Int)+pagingPageSize) = (virt+4096)%4294967296 := by
  unfold toUint32 pagingPageSize
  omega

-- The induction is on the pages left; alignment survives the wrap at 2^32, so
-- only the first page can be refused.
theorem mapRangeLoop_run (virt phys : Nat) (valid : Maps k directory dirFlags table m) (alignedVirt : virt%4096 = 0)
    (alignedPhys : phys%4096 = 0) (virtWord : virt < 4294967296) (physWord : phys < 4294967296) (small : flags < 4096)
    (count : Nat) :
    ∃ after, mapRangeLoop directory (flags : Nat) count virt phys 0 k = .ok (0,after) ∧
      Maps after directory dirFlags table (replay m (rangeWrites virt phys count flags)) ∧
      SameBut k after (IsTable table) := by
  induction count generalizing k virt phys m with
  | zero => exact ⟨k,rfl,valid,.refl _ _⟩
  | succ count ih =>
    obtain ⟨middle,ran,mapped,one⟩ := pagingMap_run valid alignedVirt alignedPhys virtWord physWord small
    have virtNext := next_page virt
    have physNext := next_page phys
    obtain ⟨after,rest,done,two⟩ := ih ((virt+4096)%4294967296) ((phys+4096)%4294967296) mapped
      (by omega) (by omega) (Nat.mod_lt _ (by decide)) (Nat.mod_lt _ (by decide))
    refine ⟨after,?_,?_,one.trans two⟩
    · rw [mapRangeLoop,Prog.bind_run ran,if_neg (by decide),virtNext,physNext]
      exact rest
    · rw [rangeWrites_succ virtWord physWord]
      exact done

theorem pagingMapRange_run (valid : Maps k directory dirFlags table m) (alignedVirt : virt%4096 = 0)
    (alignedPhys : phys%4096 = 0) (virtWord : virt < 4294967296) (physWord : phys < 4294967296) (small : flags < 4096)
    (count : Int) :
    ∃ after, pagingMapRange directory virt phys count (flags : Nat) k = .ok (0,after) ∧
      Maps after directory dirFlags table (replay m (rangeWrites virt phys count.toNat flags)) ∧
      SameBut k after (IsTable table) :=
  mapRangeLoop_run _ _ valid alignedVirt alignedPhys virtWord physWord small count.toNat

theorem pagingMapRange_unaligned (unaligned : ¬ (virt%4096 = 0 ∧ phys%4096 = 0)) (positive : 0 < count)
    (directory : Nat) (flags : Int) (k : Kernel) :
    pagingMapRange directory virt phys count flags k = .ok (-einvarg,k) := by
  obtain ⟨rest,equal⟩ : ∃ rest, count.toNat = rest+1 := ⟨count.toNat-1,by omega⟩
  unfold pagingMapRange
  rw [equal,mapRangeLoop,Prog.bind_run (pagingMap_unaligned unaligned directory flags k),if_pos (by decide)]
  rfl

theorem pagingMapTo_run (valid : Maps k directory dirFlags table m) (alignedVirt : virt%4096 = 0)
    (alignedPhys : phys%4096 = 0) (alignedEnd : physEnd%4096 = 0) (ordered : phys ≤ physEnd)
    (virtWord : virt < 4294967296) (endWord : physEnd < 4294967296) (small : flags < 4096) :
    ∃ after, pagingMapTo directory virt phys physEnd (flags : Nat) k = .ok (0,after) ∧
      Maps after directory dirFlags table (replay m (rangeWrites virt phys ((physEnd-phys)/4096) flags)) ∧
      SameBut k after (IsTable table) := by
  obtain ⟨after,ran,mapped,same⟩ := pagingMapRange_run valid alignedVirt alignedPhys virtWord
    (Nat.lt_of_le_of_lt ordered endWord) small (((physEnd-phys)/4096 : Nat) : Int)
  refine ⟨after,?_,mapped,same⟩
  have pages : toInt32 (((toUint32 ((physEnd : Int)-phys))/pagingPageSize : Nat) : Int) =
      (((physEnd-phys)/4096 : Nat) : Int) := by
    have bytes : toUint32 ((physEnd : Int)-phys) = physEnd-phys := by
      rw [← Int.natCast_sub ordered,toUint32_natCast (by omega)]
    rw [bytes]
    exact toInt32_natCast (by unfold pagingPageSize; omega)
  unfold pagingMapTo
  rw [if_neg (by simp [pagingPageSize,alignedVirt,alignedPhys,alignedEnd]),if_neg (by omega)]
  simp only [pages]
  exact ran

theorem pagingMapTo_refused (refused : ¬ (virt%4096 = 0 ∧ phys%4096 = 0 ∧ physEnd%4096 = 0 ∧ phys ≤ physEnd))
    (directory : Nat) (flags : Int) (k : Kernel) :
    pagingMapTo directory virt phys physEnd flags k = .ok (-einvarg,k) := by
  unfold pagingMapTo pagingPageSize
  by_cases aligned : virt%4096 ≠ 0 ∨ phys%4096 ≠ 0 ∨ physEnd%4096 ≠ 0
  · rw [if_pos aligned]
    rfl
  · rw [if_neg aligned,if_pos (by omega)]
    rfl

end NutsOS.Paging
