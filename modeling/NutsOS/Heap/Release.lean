import NutsOS.Heap.Runs

-- heap_free over all pointers.
namespace NutsOS.HeapAlloc
open Word32

-- A free writes entries of the table only, and none for NULL.
structure Contained (heap : Heap) (ptr : Nat) : Prop where
  inside : ∀ i ∈ (heapFree heap ptr).2, 0 ≤ i ∧ i < (heap.table.total : Int)
  null : ptr = 0 → ∀ i : Int, 0 ≤ i → i < heap.table.total → (heapFree heap ptr).1.table.entries i = heap.table.entries i

-- The pointer lies in the pool or in the 2 GB behind its start.
def InReach (heap : Heap) (ptr : Nat) : Prop := heap.saddr < ptr+4096 ∧ ptr < heap.saddr+2147483648

theorem markFreeLoop_range (count : Nat) (i : Int) (entries : Int → UInt8) :
    ∀ j ∈ (markFreeLoop count i entries).2, i ≤ j ∧ j < i+count := by
  induction count generalizing i entries with
  | zero =>
    intro j member
    cases member
  | succ count ih =>
    rw [markFreeLoop]
    dsimp only
    split
    · intro j member
      cases List.mem_singleton.mp member
      omega
    · intro j member
      rcases List.mem_cons.mp member with same | later
      · omega
      · have range := ih (i+1) (writeEntry entries i heapBlockTableEntryFree) j later
        omega

-- The division rounds towards zero: the block in front of the pool has index 0.
theorem addressToBlock_inReach (pool : Pool heap) (word : ptr < 4294967296) :
    0 ≤ heapAddressToBlock heap ptr ↔ InReach heap ptr := by
  obtain ⟨aligned,low,high⟩ := pool
  have sign (x : Int) : 0 ≤ x.tdiv (4096 : Nat) ↔ -4096 < x := by
    rcases Int.le_total 0 x with positive | negative
    · rw [Int.tdiv_eq_ediv_of_nonneg positive]
      omega
    · obtain ⟨n,rfl⟩ : ∃ n : Nat, x = -(n : Int) := ⟨(-x).toNat,by omega⟩
      rw [Int.neg_tdiv,Int.tdiv_eq_ediv_of_nonneg (by omega)]
      omega
  unfold heapAddressToBlock nutsosHeapBlockSize InReach
  rw [sign]
  unfold toInt32
  split <;> omega

theorem free_contained (pool : Pool heap) (word : ptr < 4294967296) : Contained heap ptr ↔ InReach heap ptr := by
  rw [← addressToBlock_inReach pool word]
  constructor
  · intro contained
    by_contra negative
    have first : heapAddressToBlock heap ptr ∈ (heapFree heap ptr).2 := markFreeLoop_first (by omega)
    exact negative (contained.inside _ first).1
  · intro block
    refine ⟨fun i member => ?_,fun null => ?_⟩
    · have range := markFreeLoop_range _ _ _ i member
      omega
    · rw [addressToBlock_inReach pool word] at block
      obtain ⟨_,low,_⟩ := pool
      unfold InReach at block
      omega

theorem contained_first : Contained ⟨⟨fun _ => 0,4⟩,0x01000000⟩ 0x01001000 :=
  (free_contained ⟨by decide,by decide,by decide⟩ (by decide)).mpr ⟨by decide,by decide⟩

end NutsOS.HeapAlloc
