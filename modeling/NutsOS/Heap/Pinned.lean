import NutsOS.Heap.Pool

-- A block that no call reaches: it stays taken through every allocation and
-- through every free of another block, whatever else becomes of the table.
namespace NutsOS.HeapAlloc
open Word32

structure Pinned (heap : Heap) (b : Nat) : Prop where
  pool : Pool heap
  inside : b < heap.table.total
  taken : ¬ IsFree heap.table.entries b
  stops : StopsBelow heap.table.entries heap.saddr
  before : 0 < b → heap.table.entries (b-1) &&& heapBlockHasNext = 0

-- NULL, or the start of another block of the pool.
def Elsewhere (saddr total b ptr : Nat) : Prop := ptr = 0 ∨ ∃ i, i < total ∧ i ≠ b ∧ ptr = saddr+i*4096

theorem Elsewhere.different (elsewhere : Elsewhere saddr total b ptr) (low : 0 < saddr) : ptr ≠ saddr+b*4096 := by
  intro same
  rcases elsewhere with null | ⟨i,_,other,equal⟩
  · omega
  · omega

-- A call keeps the pool and the pinned block.
structure PinKept (before after : Heap) (b : Nat) : Prop where
  pinned : Pinned after b
  saddr : after.saddr = before.saddr
  total : after.table.total = before.table.total

theorem Pinned.granted {heap : Heap} (pinned : Pinned heap b)
    (free : FreeIn heap.table.entries heap.table.total start n) : PinKept heap (heap.granted ⟨start,n⟩).2.1 b := by
  have outside : ¬ Chunk.Covers ⟨start,n⟩ (b : Nat) := by
    intro ⟨low,high⟩
    dsimp only at low high
    exact pinned.taken (free b (by omega) (by omega) pinned.inside)
  obtain ⟨aligned,low,high⟩ := pinned.pool
  refine ⟨⟨⟨aligned,low,high⟩,pinned.inside,?_,?_,fun positive => ?_⟩,rfl,rfl⟩
  · show ¬ IsFree (setChunk _ _ heap.table.entries) b
    unfold IsFree
    rw [setChunk_other outside]
    exact pinned.taken
  · exact pinned.stops.congr (fun i below => setChunk_below _ _ _ below)
  · show setChunk _ _ heap.table.entries ((b : Int)-1) &&& heapBlockHasNext = 0
    by_cases covers : Chunk.Covers ⟨start,n⟩ ((b : Int)-1)
    · rw [setChunk_covered covers]
      apply (entry_last _ _).mpr
      unfold Chunk.Covers at *
      dsimp only at *
      omega
    · rw [setChunk_other covers]
      exact pinned.before positive

theorem Pinned.malloc {heap : Heap} (pinned : Pinned heap b) (ran : heapMalloc heap size = (ptr,after,written)) :
    PinKept heap after b ∧ Elsewhere heap.saddr heap.table.total b ptr := by
  have other {start : Nat} (inside : start < heap.table.total) (free : IsFree heap.table.entries start) :
      Elsewhere heap.saddr heap.table.total b (heap.saddr+start*4096) := by
    refine .inr ⟨start,inside,fun same => pinned.taken ?_,rfl⟩
    rw [← same]
    exact free
  by_cases blocks : 0 < blocksFor size
  · rcases heapMalloc_cases _ heap blocks with refused | ⟨start,inside,free,granted⟩
    · rw [refused] at ran
      cases ran
      exact ⟨⟨pinned,rfl,rfl⟩,.inl rfl⟩
    · have address := pinned.pool.granted inside (blocksFor size)
      have kept := pinned.granted free
      rw [granted] at ran
      rw [ran] at address kept
      refine ⟨kept,?_⟩
      rw [show ptr = _ from address]
      exact other inside (free start (Nat.le_refl _) (by omega) inside)
  · rcases heapMalloc_none heap (Nat.eq_zero_of_not_pos blocks) with refused | ⟨start,inside,free,answered⟩
    · rw [refused] at ran
      cases ran
      exact ⟨⟨pinned,rfl,rfl⟩,.inl rfl⟩
    · rw [answered,pinned.pool.address inside] at ran
      cases ran
      exact ⟨⟨pinned,rfl,rfl⟩,other inside free⟩

-- The freeing loop writes nothing in front of its start, and nothing behind a
-- byte that announces no next block.
theorem markFreeLoop_front (count : Nat) (i : Int) (entries : Int → UInt8) (front : j < i) :
    (markFreeLoop count i entries).1 j = entries j := by
  induction count generalizing i entries with
  | zero => rfl
  | succ count ih =>
    rw [markFreeLoop]
    dsimp only
    split
    · exact if_neg (by omega)
    · rw [ih (i+1) _ (by omega)]
      exact if_neg (by omega)

theorem markFreeLoop_behind (count : Nat) (i : Int) (entries : Int → UInt8) (low : i ≤ s) (behind : s < j)
    (last : entries s &&& heapBlockHasNext = 0) : (markFreeLoop count i entries).1 j = entries j := by
  induction count generalizing i entries with
  | zero => rfl
  | succ count ih =>
    rw [markFreeLoop]
    dsimp only
    split
    · exact if_neg (by omega)
    · next more =>
      have later : i ≠ s := by
        intro same
        rw [same] at more
        exact more last
      rw [ih (i+1) _ (by omega) (by rw [writeEntry,if_neg (by omega)]; exact last)]
      exact if_neg (by omega)

theorem Pinned.freed {heap : Heap} (pinned : Pinned heap b) (inside : i < heap.table.total) (other : i ≠ b) :
    PinKept heap (heapFree heap (heap.saddr+i*4096)).1 b := by
  have block := pinned.pool.block inside
  -- what the loop leaves of the bytes that matter
  have kept (j : Int) (outside : j < i ∨ (0 < b ∧ (i : Int) ≤ b-1 ∧ (b : Int)-1 < j)) :
      (heapFree heap (heap.saddr+i*4096)).1.table.entries j = heap.table.entries j := by
    show (markFreeLoop (heap.table.total-heapAddressToBlock heap _).toNat (heapAddressToBlock heap _) heap.table.entries).1 j = _
    rw [block]
    rcases outside with front | ⟨positive,low,behind⟩
    · exact markFreeLoop_front _ _ _ front
    · exact markFreeLoop_behind _ _ _ low behind (pinned.before positive)
  obtain ⟨aligned,low,high⟩ := pinned.pool
  refine ⟨⟨⟨aligned,low,high⟩,pinned.inside,?_,?_,fun positive => ?_⟩,rfl,rfl⟩
  · unfold IsFree
    rw [kept b (by omega)]
    exact pinned.taken
  · exact pinned.stops.congr (fun j below => kept j (.inl (by omega)))
  · rcases markFreeLoop_frees (heap.table.total-heapAddressToBlock heap (heap.saddr+i*4096)).toNat
      (heapAddressToBlock heap (heap.saddr+i*4096)) heap.table.entries ((b : Int)-1) with same | cleared
    · rw [show (heapFree heap (heap.saddr+i*4096)).1.table.entries ((b : Int)-1) = _ from same]
      exact pinned.before positive
    · rw [show (heapFree heap (heap.saddr+i*4096)).1.table.entries ((b : Int)-1) = _ from cleared]
      decide

theorem Pinned.free {heap : Heap} (pinned : Pinned heap b) (elsewhere : Elsewhere heap.saddr heap.table.total b ptr) :
    PinKept heap (heapFree heap ptr).1 b := by
  rcases elsewhere with rfl | ⟨i,inside,other,rfl⟩
  · obtain ⟨after,written,ran,saddr,total,same,stops⟩ := pinned.pool.free_null pinned.stops
    rw [ran]
    obtain ⟨aligned,low,high⟩ := pinned.pool
    refine ⟨⟨⟨by rw [saddr]; exact aligned,by rw [saddr]; exact low,by rw [saddr,total]; exact high⟩,
      by rw [total]; exact pinned.inside,?_,stops,fun positive => ?_⟩,saddr,total⟩
    · unfold IsFree
      rw [same b (by omega)]
      exact pinned.taken
    · rw [same _ (by omega)]
      exact pinned.before positive
  · exact pinned.freed inside other

theorem Tiled.pinned {heap : Heap} (pool : Pool heap) (valid : Tiled heap.table.entries heap.table.total chunks)
    (stops : StopsBelow heap.table.entries heap.saddr) (inside : b < heap.table.total) (free : IsFree heap.table.entries b) :
    Pinned (heap.granted ⟨b,1⟩).2.1 b := by
  have covers : Chunk.Covers ⟨b,1⟩ (b : Nat) := ⟨Int.le_refl _,by dsimp only; omega⟩
  obtain ⟨aligned,low,high⟩ := pool
  refine ⟨⟨aligned,low,high⟩,inside,?_,stops.congr (fun i below => setChunk_below _ _ _ below),fun positive => ?_⟩
  · show ¬ IsFree (setChunk _ _ heap.table.entries) b
    unfold IsFree
    rw [setChunk_covered covers]
    exact entry_type _ _
  · have outside : ¬ Chunk.Covers ⟨b,1⟩ ((b : Int)-1) := by
      unfold Chunk.Covers
      dsimp only
      omega
    show setChunk _ _ heap.table.entries ((b : Int)-1) &&& heapBlockHasNext = 0
    rw [setChunk_other outside]
    by_cases covered : ∃ c ∈ chunks, Chunk.Covers c ((b : Int)-1)
    · obtain ⟨c,member,here⟩ := covered
      rw [valid.marked c member _ here (by omega)]
      apply (entry_last _ _).mpr
      -- a next block of the chunk would be b, which is free
      have uncovered : ¬ Chunk.Covers c (b : Nat) := fun has => valid.covered_taken member has inside free
      unfold Chunk.Covers at *
      omega
    · rw [valid.free _ (by omega) (by omega) (fun c member here => covered ⟨c,member,here⟩)]
      decide

end NutsOS.HeapAlloc
