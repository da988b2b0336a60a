import NutsOS.Fat16.Walk
import NutsOS.Heap.Release
import NutsOS.Kernel.Boot

-- The pointers that the driver passes to kfree.
namespace NutsOS.Fat16
open Word32 HeapAlloc Prog

theorem copyItem_failed {k : Kernel} (full : ∀ i < k.heap.table.total, ¬ IsFree k.heap.table.entries i) (item : FatDirectoryItem) :
    fat16CopyDirectoryItem item k = .ok (0,k) := by
  have refused : heapMalloc k.heap 32 = (0,k.heap,[]) := by
    rcases heapMalloc_cases _ k.heap (by decide : 0 < blocksFor 32) with refused | ⟨start,inside,free,_⟩
    · exact refused
    · exact absurd (free start (Nat.le_refl _) (Nat.lt_succ_self _) inside) (full start inside)
  have none : kzalloc 32 (.directoryItems [zeroDirectoryItem]) k = .ok (0,k) := by
    unfold kzalloc
    rw [bind_run (kmalloc_run refused)]
    rfl
  unfold fat16CopyDirectoryItem
  rw [bind_run none]
  rfl

-- A heap with one block left; every other block is a chunk of its own.
def lastEntries (i : Int) : UInt8 := if i < 0 then bootEntries i else if i = 0 then 0 else 0x41

def lastBlock : Kernel := {bootKernel bootEntries noDisk with heap := ⟨⟨lastEntries,131072⟩,0x01000000⟩}

theorem lastBlock_entries : lastBlock.heap.table.entries = lastEntries := rfl

theorem lastEntries_taken (positive : 0 < i) : lastEntries i = 0x41 := by
  unfold lastEntries
  rw [if_neg (by omega),if_neg (by omega)]

theorem last_only (free : IsFree lastEntries i) : i = 0 := by
  by_contra some
  unfold IsFree at free
  rw [lastEntries_taken (by omega)] at free
  exact absurd free (by decide)

theorem lastBlock_valid : HeapValid lastBlock := by
  refine ⟨{c | 0 < c.start ∧ c.start < 131072 ∧ c.len = 1},⟨by decide,by decide,by decide⟩,?_,⟨-2,by decide,by decide,by decide⟩,
    fun ptr held => by cases held⟩
  refine ⟨?_,?_,?_,?_,?_⟩
  · rintro c ⟨_,_,one⟩
    omega
  · rintro c ⟨_,inside,_⟩
    exact inside
  · rintro c ⟨_,_,one⟩ d ⟨_,_,other⟩ different
    have starts : c.start ≠ d.start := by
      intro same
      apply different
      cases c
      cases d
      simp_all
    unfold Chunk.Apart
    omega
  · rintro c ⟨positive,_,one⟩ i ⟨low,high⟩ _
    obtain rfl : i = c.start := by omega
    rw [lastBlock_entries,lastEntries_taken (by omega)]
    unfold Chunk.entry
    rw [if_pos rfl,if_pos (by omega)]
    rfl
  · intro i low high uncovered
    by_cases zero : i = 0
    · rw [zero]
      rfl
    · have total : lastBlock.heap.table.total = 131072 := rfl
      have member : (⟨i.toNat,1⟩ : Chunk) ∈ {c : Chunk | 0 < c.start ∧ c.start < 131072 ∧ c.len = 1} := by
        refine ⟨?_,?_,rfl⟩
        · dsimp only
          omega
        · dsimp only
          omega
      refine absurd ⟨?_,?_⟩ (uncovered _ member)
      · dsimp only
        omega
      · dsimp only
        omega

theorem lastBlock_granted : heapMalloc lastBlock.heap 8 = lastBlock.heap.granted ⟨0,1⟩ := by
  obtain ⟨bs,scan,_,taken⟩ := heapMalloc_scan _ lastBlock.heap (by decide : 0 < blocksFor 8)
  have one : blocksFor 8 = 1 := rfl
  have run : HasRun lastBlock.heap.table.entries lastBlock.heap.table.total (blocksFor 8) := by
    refine ⟨0,by decide,fun i _ high => ?_⟩
    obtain rfl : i = 0 := by omega
    exact rfl
  generalize same : bs = value at scan
  cases scan with
  | found start fits free _ =>
    obtain rfl : start = 0 := last_only (free start (Nat.le_refl _) (by omega))
    exact taken 0 same
  | full none _ => exact absurd run none
  | short _ none _ _ => exact absurd run none

-- A file found with one block left gets no copy of its entry, and the free of
-- its item passes NULL on: the byte 4096 entries below the table is cleared.
theorem no_copy_released : ∃ ptr one, HeapValid lastBlock ∧
    fat16NewFatItemForDirectoryItem (fun _ => none) zeroDirectoryItem lastBlock = .ok (ptr,one) ∧
    fat16FatItemFree ptr one = (do kfree 0; kfree ptr : KernelProg Unit) one ∧ ¬ Contained one.heap 0 ∧
    -4096 ∈ (heapFree one.heap 0).2 := by
  obtain ⟨allocated,_⟩ := kzalloc_granted _ lastBlock_valid (.fatItem ⟨0,.directory⟩) (by decide) (by decide) (by decide)
    (fun i _ high _ => by rw [show i = 0 by have one : blocksFor 8 = 1 := rfl; omega]; exact rfl) lastBlock_granted
  have pool : Pool (lastBlock.heap.granted ⟨0,1⟩).2.1 := lastBlock_valid.pool.grown _
  have base : (lastBlock.heap.granted ⟨0,1⟩).2.1.saddr = 0x01000000 := rfl
  have taken : ∀ i < (lastBlock.heap.granted ⟨0,1⟩).2.1.table.total, ¬ IsFree (lastBlock.heap.granted ⟨0,1⟩).2.1.table.entries i := by
    intro i _ free
    have entries : (lastBlock.heap.granted ⟨0,1⟩).2.1.table.entries = setChunk ⟨0,1⟩ (Chunk.entry ⟨0,1⟩) lastEntries := rfl
    rw [entries] at free
    by_cases covers : Chunk.Covers ⟨0,1⟩ (i : Nat)
    · unfold IsFree at free
      rw [setChunk_covered covers] at free
      exact absurd free (entry_type _ _)
    · unfold IsFree at free
      rw [setChunk_other covers] at free
      obtain rfl : i = 0 := last_only free
      exact covers (by decide)
  have blocks : blocksFor 8 = 1 := rfl
  rw [blocks] at allocated
  generalize (lastBlock.heap.granted ⟨0,1⟩).2.1 = heap at *
  have address : lastBlock.heap.saddr+0*4096 = 0x01000000 := rfl
  rw [address] at allocated
  have file : ¬ (FatDirectoryItem.isSubdirectory zeroDirectoryItem) = true := by decide
  have copied := copyItem_failed (k := (lastBlock.withHeap heap).place 0x01000000 (.fatItem ⟨0,.directory⟩)) taken zeroDirectoryItem
  refine ⟨0x01000000,((lastBlock.withHeap heap).place 0x01000000 (.fatItem ⟨0,.directory⟩)).place 0x01000000 (.fatItem ⟨0,.file⟩),
    lastBlock_valid,?_,?_,?_,?_⟩
  · unfold fat16NewFatItemForDirectoryItem
    rw [bind_run allocated,if_neg (by decide),if_neg file,bind_run copied]
    rfl
  · unfold fat16FatItemFree
    rw [if_neg (by decide),bind_run (loadAs_run asFatItem (Kernel.place_same _ _ _) rfl)]
  · show ¬ Contained heap 0
    rw [free_contained pool (by decide)]
    unfold InReach
    omega
  · have block : heapAddressToBlock heap 0 = -4096 := by
      unfold heapAddressToBlock
      rw [base]
      decide
    show -4096 ∈ (heapFree heap 0).2
    rw [← block]
    exact markFreeLoop_first (by omega)

end NutsOS.Fat16
