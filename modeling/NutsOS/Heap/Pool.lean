import Mathlib.Order.Interval.Finset.Nat
import NutsOS.Heap.Chunks

-- heap_malloc and heap_free on a pool below 2 GB: what a call does to the table
-- whatever is in it.
namespace NutsOS.HeapAlloc
open Word32

def blocksFor (size : Nat) : Nat := heapAlignValueToUpper size / nutsosHeapBlockSize

theorem blocksFor_bounds (positive : 1 ≤ size) (bounded : size ≤ 4294963200) :
    0 < blocksFor size ∧ size ≤ blocksFor size*4096 := by
  unfold blocksFor heapAlignValueToUpper nutsosHeapBlockSize toUint32
  split <;> omega

theorem blocksFor_zero (none : blocksFor size = 0) (whole : ¬ heapAlignValueToUpper size < size) : size = 0 := by
  unfold blocksFor heapAlignValueToUpper nutsosHeapBlockSize toUint32 at *
  by_cases aligned : size%4096 = 0
  · simp only [aligned,if_true] at none
    omega
  · simp only [aligned,if_false] at none whole
    omega

theorem blocksFor_positive (blocks : 0 < blocksFor size) : 1 ≤ size := by
  apply Nat.one_le_iff_ne_zero.mpr
  intro zero
  rw [zero] at blocks
  exact absurd blocks (by decide)

theorem blocksFor_single (positive : 1 ≤ size) (small : size ≤ 4096) : blocksFor size = 1 := by
  unfold blocksFor heapAlignValueToUpper nutsosHeapBlockSize toUint32
  split <;> omega

def Heap.granted (heap : Heap) (c : Chunk) : Nat × Heap × List Int :=
  (heapBlockToAddress heap c.start,heap.withEntries (setChunk c c.entry heap.table.entries),c.indexes c.start)

theorem heapMalloc_scan (size : Nat) (heap : Heap) (positive : 0 < blocksFor size) :
    ∃ bs, ScanResult heap.table.entries heap.table.total (blocksFor size) bs ∧
      (bs = -1 → heapMalloc heap size = (0,heap,[])) ∧
      (∀ start : Nat, bs = start → heapMalloc heap size = heap.granted ⟨start,blocksFor size⟩) := by
  obtain ⟨bs,scan,result⟩ := getNextFreeBlock_scan heap positive
  refine ⟨bs,scan,?_,?_⟩
  · intro none
    rw [if_pos none] at result
    change heapMallocBlocks heap (blocksFor size) = _
    unfold heapMallocBlocks
    rw [result]
    rfl
  · intro start equal
    subst equal
    rw [if_neg (by omega)] at result
    change heapMallocBlocks heap (blocksFor size) = _
    unfold heapMallocBlocks
    rw [result]
    dsimp only
    rw [if_neg (by omega),heapMarkBlocksTaken_eq _ _ _ positive]
    rfl

-- Whatever is in the table: a refusal, or a chunk that starts on a free block.
-- No run of n free blocks, and no shorter one at the end of the table either,
-- which heap_malloc would hand out.
def Exhausted (heap : Heap) (n : Nat) : Prop :=
  ¬ HasRun heap.table.entries heap.table.total n ∧ LastTaken heap.table.entries heap.table.total

theorem heapMalloc_exact (size : Nat) (heap : Heap) (positive : 0 < blocksFor size) :
    (Exhausted heap (blocksFor size) ∧ heapMalloc heap size = (0,heap,[])) ∨
      (¬ Exhausted heap (blocksFor size) ∧ ∃ start, start < heap.table.total ∧
        FreeIn heap.table.entries heap.table.total start (blocksFor size) ∧
        heapMalloc heap size = heap.granted ⟨start,blocksFor size⟩) := by
  obtain ⟨bs,scan,refused,taken⟩ := heapMalloc_scan _ heap positive
  generalize same : bs = value at scan
  cases scan with
  | found start fits free lowest =>
    refine .inr ⟨fun spent => spent.1 ⟨start,fits,free⟩,start,by omega,fun i low high _ => free i low high,taken start same⟩
  | full none last => exact .inl ⟨⟨none,last⟩,refused same⟩
  | short start none inside free =>
    refine .inr ⟨fun spent => ?_,start,inside,fun i low _ inTable => free i low (by omega),taken start same⟩
    exact spent.2 (heap.table.total-1) (by omega) (free _ (by omega) (by omega))

theorem heapMalloc_cases (size : Nat) (heap : Heap) (positive : 0 < blocksFor size) :
    heapMalloc heap size = (0,heap,[]) ∨
      ∃ start, start < heap.table.total ∧ FreeIn heap.table.entries heap.table.total start (blocksFor size) ∧
        heapMalloc heap size = heap.granted ⟨start,blocksFor size⟩ :=
  (heapMalloc_exact size heap positive).imp And.right And.right

theorem heapScan_free (entries : Int → UInt8) (n count i bc : Nat) (bs : Int)
    (start : bs = -1 ∨ ∃ s : Nat, bs = s ∧ s < i ∧ IsFree entries s) :
    heapScan entries n count i bc bs = -1 ∨
      ∃ s : Nat, heapScan entries n count i bc bs = s ∧ s < i+count ∧ IsFree entries s := by
  induction count generalizing i bc bs with
  | zero => exact start
  | succ count ih =>
    rw [heapScan,show i+(count+1) = i+1+count by omega]
    split
    · exact ih (i+1) 0 (-1) (.inl rfl)
    · rename_i free
      have free : IsFree entries i := by simpa [IsFree] using free
      have next : ∃ s : Nat, (if bs = -1 then (i : Int) else bs) = s ∧ s < i+1 ∧ IsFree entries s := by
        rcases start with none | ⟨s,equal,earlier,before⟩
        · exact ⟨i,if_pos none,Nat.lt_succ_self i,free⟩
        · exact ⟨s,by rw [if_neg (by omega)]; exact equal,Nat.lt_succ_of_lt earlier,before⟩
      dsimp only
      split
      · obtain ⟨s,equal,inside,before⟩ := next
        exact .inr ⟨s,equal,by omega,before⟩
      · exact ih (i+1) (bc+1) _ (.inr next)

theorem heapMalloc_unmarked (heap : Heap) (zero : blocksFor size = 0) :
    (heapScan heap.table.entries 0 heap.table.total 0 0 (-1) = -1 ∧ heapMalloc heap size = (0,heap,[])) ∨
      ∃ start : Nat, heapScan heap.table.entries 0 heap.table.total 0 0 (-1) = start ∧ start < heap.table.total ∧
        IsFree heap.table.entries start ∧ heapMalloc heap size = (heapBlockToAddress heap start,heap,[]) := by
  have scanned := heapScan_free heap.table.entries 0 heap.table.total 0 0 (-1) (.inl rfl)
  have called : heapMalloc heap size = heapMallocBlocks heap 0 := by
    show heapMallocBlocks heap (blocksFor size) = _
    rw [zero]
  rw [called]
  unfold heapMallocBlocks heapGetNextFreeBlock
  rcases scanned with refused | ⟨start,equal,inside,free⟩
  · refine .inl ⟨refused,?_⟩
    simp only [refused]
    rfl
  · refine .inr ⟨start,equal,by omega,free,?_⟩
    simp only [equal]
    rw [if_neg (by omega),if_neg (by omega)]
    unfold heapMarkBlocksTaken
    dsimp only
    have none : ((start : Int)+(0 : Nat)-1+1-start).toNat = 0 := by omega
    rw [none]
    rfl

theorem heapMalloc_none (heap : Heap) (zero : blocksFor size = 0) :
    heapMalloc heap size = (0,heap,[]) ∨ ∃ start : Nat, start < heap.table.total ∧ IsFree heap.table.entries start ∧
      heapMalloc heap size = (heapBlockToAddress heap start,heap,[]) :=
  (heapMalloc_unmarked heap zero).imp And.right (fun ⟨start,_,answered⟩ => ⟨start,answered⟩)

-- A pool of whole pages whose offsets a signed int can hold.
structure Pool (heap : Heap) : Prop where
  aligned : heap.saddr % 4096 = 0
  low : 0 < heap.saddr
  high : heap.saddr+heap.table.total*4096 ≤ 2147483648

theorem Pool.address (pool : Pool heap) (inside : start < heap.table.total) :
    heapBlockToAddress heap (start : Nat) = heap.saddr+start*4096 := by
  have high := pool.high
  unfold heapBlockToAddress toUint32 nutsosHeapBlockSize
  omega

theorem Pool.granted (pool : Pool heap) (inside : start < heap.table.total) (n : Nat) :
    (heap.granted ⟨start,n⟩).1 = heap.saddr+start*4096 := pool.address inside

theorem Pool.grown {heap : Heap} (pool : Pool heap) (c : Chunk) : Pool (heap.granted c).2.1 := by
  obtain ⟨aligned,low,high⟩ := pool
  exact ⟨aligned,low,high⟩

theorem Pool.block (pool : Pool heap) (inside : start < heap.table.total) :
    heapAddressToBlock heap (heap.saddr+start*4096) = (start : Nat) := by
  have high := pool.high
  unfold heapAddressToBlock nutsosHeapBlockSize
  rw [toInt32_eq (by omega) (by omega),Int.tdiv_eq_ediv_of_nonneg (by omega)]
  omega

def Owns (heap : Heap) (chunks : Set Chunk) (p : Nat) : Prop :=
  ∃ c ∈ chunks, p = heap.saddr+c.start*4096

theorem granted_heap (heap : Heap) (c : Chunk) :
    (heap.granted c).2.1.saddr = heap.saddr ∧ (heap.granted c).2.1.table.total = heap.table.total := ⟨rfl,rfl⟩

theorem Tiled.granted_fresh (valid : Tiled heap.table.entries heap.table.total chunks)
    (positive : 0 < n) (inside : start < heap.table.total)
    (free : FreeIn heap.table.entries heap.table.total start n) :
    ¬ Owns heap chunks (heap.saddr+start*4096) := by
  intro ⟨d,member,equal⟩
  have apart := valid.free_apart positive inside free member
  have length := valid.positive d member
  simp only [Chunk.Apart] at apart
  omega

-- The table's end is free for n blocks: every block from some b on.
def Room (heap : Heap) (n : Nat) : Prop :=
  ∃ b, b+n ≤ heap.table.total ∧ ∀ i, b ≤ i → i < heap.table.total → IsFree heap.table.entries i

theorem Room.less {heap : Heap} (room : Room heap n) (less : m ≤ n) : Room heap m := by
  obtain ⟨b,fits,free⟩ := room
  exact ⟨b,by omega,free⟩

theorem Room.unexhausted {heap : Heap} (room : Room heap 1) (n : Nat) : ¬ Exhausted heap n := by
  obtain ⟨b,fits,free⟩ := room
  intro spent
  exact spent.2 (heap.table.total-1) (by omega) (free _ (by omega) (by omega))

theorem heapScan_last (entries : Int → UInt8) (count i bc : Nat) (bs : Int) (last : count ≠ 0 → IsFree entries (i+count-1))
    (found : count = 0 → bs ≠ -1) : heapScan entries 0 count i bc bs ≠ -1 := by
  induction count generalizing i bc bs with
  | zero => exact found rfl
  | succ count ih =>
    have behind : count ≠ 0 → IsFree entries (i+1+count-1) := fun _ => by
      rw [show i+1+count-1 = i+(count+1)-1 by omega]
      exact last (Nat.succ_ne_zero count)
    rw [heapScan]
    split
    · rename_i taken
      refine ih (i+1) 0 (-1) behind (fun none => absurd (last (Nat.succ_ne_zero count)) ?_)
      rw [none]
      exact taken
    · dsimp only
      rw [if_neg (Nat.succ_ne_zero bc)]
      refine ih (i+1) (bc+1) _ behind (fun _ => ?_)
      split <;> omega

theorem Room.malloc_none {heap : Heap} (room : Room heap (rest+1)) (zero : blocksFor size = 0) :
    ∃ start : Nat, start < heap.table.total ∧ heapMalloc heap size = (heapBlockToAddress heap start,heap,[]) := by
  obtain ⟨b,fits,free⟩ := room
  rcases heapMalloc_unmarked heap zero with ⟨refused,_⟩ | ⟨start,_,inside,_,answered⟩
  · refine absurd refused (heapScan_last _ _ _ _ _ (fun _ => ?_) (fun none => by omega))
    rw [Nat.zero_add]
    exact free _ (by omega) (by omega)
  · exact ⟨start,inside,answered⟩

theorem Room.malloc {heap : Heap} (room : Room heap (blocksFor size+rest)) (positive : 0 < blocksFor size) :
    ∃ start, start+blocksFor size ≤ heap.table.total ∧
      FreeIn heap.table.entries heap.table.total start (blocksFor size) ∧
      heapMalloc heap size = heap.granted ⟨start,blocksFor size⟩ ∧
      Room (heap.granted ⟨start,blocksFor size⟩).2.1 rest := by
  obtain ⟨b,fits,free⟩ := room
  have run : FreeRun heap.table.entries b (blocksFor size) := fun i low high => free i low (by omega)
  obtain ⟨bs,scan,refused,taken⟩ := heapMalloc_scan _ heap positive
  generalize same : bs = value at scan
  cases scan with
  | found start inside open' lowest =>
    have early : start ≤ b := Nat.le_of_not_lt (fun later => lowest b later run)
    refine ⟨start,inside,fun i low high _ => open' i low high,taken start same,b+blocksFor size,?_,?_⟩
    · have total := (granted_heap heap ⟨start,blocksFor size⟩).2
      rw [total]
      omega
    · intro i low high
      have other : ¬ Chunk.Covers ⟨start,blocksFor size⟩ (i : Nat) := by
        unfold Chunk.Covers
        dsimp only
        omega
      have entry : (heap.granted ⟨start,blocksFor size⟩).2.1.table.entries i = heap.table.entries i := setChunk_other other
      unfold IsFree
      rw [entry]
      exact free i (by omega) high
  | full none _ => exact absurd ⟨b,by omega,run⟩ none
  | short _ none _ _ => exact absurd ⟨b,by omega,run⟩ none

def Spare (heap : Heap) (n : Nat) : Prop :=
  ∃ free : Finset Nat, n ≤ free.card ∧ ∀ i ∈ free, i < heap.table.total ∧ IsFree heap.table.entries i

theorem Room.spare {heap : Heap} (room : Room heap n) : Spare heap n := by
  obtain ⟨b,fits,free⟩ := room
  refine ⟨Finset.Ico b (b+n),Nat.le_of_eq (by simp),?_⟩
  intro i member
  obtain ⟨low,high⟩ := Finset.mem_Ico.mp member
  exact ⟨by omega,free i low (by omega)⟩

theorem Spare.malloc {heap : Heap} (spare : Spare heap (1+rest)) (single : blocksFor size = 1) :
    ∃ start, start < heap.table.total ∧ FreeIn heap.table.entries heap.table.total start (blocksFor size) ∧
      heapMalloc heap size = heap.granted ⟨start,blocksFor size⟩ ∧
      Spare (heap.granted ⟨start,blocksFor size⟩).2.1 rest := by
  obtain ⟨free,many,inside⟩ := spare
  obtain ⟨i,member⟩ : free.Nonempty := Finset.card_pos.mp (by omega)
  have some : HasRun heap.table.entries heap.table.total 1 := by
    refine ⟨i,(inside i member).1,?_⟩
    intro j low high
    obtain rfl : j = i := by omega
    exact (inside j member).2
  obtain ⟨bs,scan,_,taken⟩ := heapMalloc_scan size heap (by omega)
  rw [single] at scan taken ⊢
  generalize same : bs = value at scan
  cases scan with
  | found start fits run lowest =>
    refine ⟨start,by omega,fun j low high _ => run j low high,taken start same,free.erase start,?_,?_⟩
    · have card := Finset.pred_card_le_card_erase (s := free) (a := start)
      omega
    · intro j left
      obtain ⟨different,old⟩ := Finset.mem_erase.mp left
      have other : ¬ Chunk.Covers ⟨start,1⟩ (j : Nat) := by
        unfold Chunk.Covers
        dsimp only
        omega
      have entry : (heap.granted ⟨start,1⟩).2.1.table.entries j = heap.table.entries j := setChunk_other other
      refine ⟨(inside j old).1,?_⟩
      unfold IsFree
      rw [entry]
      exact (inside j old).2
  | full none _ => exact absurd some none
  | short _ none _ _ => exact absurd some none

theorem Tiled.kfree (pool : Pool heap) (valid : Tiled heap.table.entries heap.table.total chunks) (member : c ∈ chunks) :
    ∃ written, heapFree heap (heap.saddr+c.start*4096) =
      (heap.withEntries (setChunk (c.clip heap.table.total) (fun _ => heapBlockTableEntryFree) heap.table.entries),written) := by
  have block := pool.block (valid.starts c member)
  unfold heapFree
  rw [block,heapMarkBlocksFree_tiled heap valid member]
  exact ⟨_,rfl⟩

-- Somewhere between the index that a free of NULL starts from and the table
-- lies a byte that announces no next block.
def StopsBelow (entries : Int → UInt8) (saddr : Nat) : Prop :=
  ∃ i : Int, -(saddr/4096 : Nat) ≤ i ∧ i < 0 ∧ entries i &&& heapBlockHasNext = 0

theorem StopsBelow.congr (stops : StopsBelow entries saddr) (same : ∀ i : Int, i < 0 → after i = entries i) :
    StopsBelow after saddr := by
  obtain ⟨i,low,high,last⟩ := stops
  exact ⟨i,low,high,by rw [same i high]; exact last⟩

theorem setChunk_below (c : Chunk) (value entries : Int → UInt8) (below : i < 0) :
    setChunk c value entries i = entries i := by
  apply setChunk_other
  intro covers
  have start := covers.1
  omega

theorem markFreeLoop_below (count : Nat) (i : Int) (entries : Int → UInt8) (reaches : 0 ≤ i+count)
    (stops : ∃ j : Int, i ≤ j ∧ j < 0 ∧ entries j &&& heapBlockHasNext = 0) :
    (∀ j : Int, (j < i ∨ 0 ≤ j) → (markFreeLoop count i entries).1 j = entries j) ∧
      ∃ j : Int, i ≤ j ∧ j < 0 ∧ (markFreeLoop count i entries).1 j &&& heapBlockHasNext = 0 := by
  induction count generalizing i entries with
  | zero =>
    obtain ⟨j,low,high,_⟩ := stops
    omega
  | succ count ih =>
    obtain ⟨j,low,high,last⟩ := stops
    rw [markFreeLoop]
    dsimp only
    split
    · refine ⟨fun k outside => if_neg (by omega),i,Int.le_refl _,by omega,?_⟩
      simp only [writeEntry,if_pos]
      decide
    · rename_i more
      have later : i+1 ≤ j := by
        have different : j ≠ i := fun same => more (same ▸ last)
        omega
      have other : writeEntry entries i heapBlockTableEntryFree j = entries j := if_neg (by omega)
      obtain ⟨kept,k,after,before,stop⟩ := ih (i+1) (writeEntry entries i heapBlockTableEntryFree) (by omega)
        ⟨j,later,high,by rw [other]; exact last⟩
      refine ⟨fun k outside => ?_,k,by omega,before,stop⟩
      rw [kept k (by omega)]
      exact if_neg (by omega)

theorem markFreeLoop_frees (count : Nat) (i : Int) (entries : Int → UInt8) (j : Int) :
    (markFreeLoop count i entries).1 j = entries j ∨ (markFreeLoop count i entries).1 j = heapBlockTableEntryFree := by
  induction count generalizing i entries with
  | zero => exact .inl rfl
  | succ count ih =>
    have written : writeEntry entries i heapBlockTableEntryFree j = entries j ∨
        writeEntry entries i heapBlockTableEntryFree j = heapBlockTableEntryFree := by
      unfold writeEntry
      split
      · exact .inr rfl
      · exact .inl rfl
    rw [markFreeLoop]
    dsimp only
    split
    · exact written
    · rcases ih (i+1) (writeEntry entries i heapBlockTableEntryFree) with same | free
      · rw [same]
        exact written
      · exact .inr free

theorem heapFree_free {heap : Heap} (free : IsFree heap.table.entries i) (ptr : Nat) :
    IsFree (heapFree heap ptr).1.table.entries i := by
  unfold IsFree
  rcases markFreeLoop_frees (heap.table.total-heapAddressToBlock heap ptr).toNat (heapAddressToBlock heap ptr)
    heap.table.entries i with same | cleared
  · rw [show (heapFree heap ptr).1.table.entries i = heap.table.entries i from same]
    exact free
  · rw [show (heapFree heap ptr).1.table.entries i = heapBlockTableEntryFree from cleared]
    decide

theorem Room.free {heap : Heap} (room : Room heap n) (ptr : Nat) : Room (heapFree heap ptr).1 n := by
  obtain ⟨b,fits,free⟩ := room
  exact ⟨b,fits,fun i low high => heapFree_free (free i low high) ptr⟩

theorem Spare.free {heap : Heap} (spare : Spare heap n) (ptr : Nat) : Spare (heapFree heap ptr).1 n := by
  obtain ⟨free,many,inside⟩ := spare
  exact ⟨free,many,fun i member => ⟨(inside i member).1,heapFree_free (inside i member).2 ptr⟩⟩

theorem Pool.free_null (pool : Pool heap) (stops : StopsBelow heap.table.entries heap.saddr) :
    ∃ after written, heapFree heap 0 = (after,written) ∧ after.saddr = heap.saddr ∧
      after.table.total = heap.table.total ∧ (∀ i : Int, 0 ≤ i → after.table.entries i = heap.table.entries i) ∧
      StopsBelow after.table.entries after.saddr := by
  have block : heapAddressToBlock heap 0 = -((heap.saddr/4096 : Nat) : Int) := by
    obtain ⟨aligned,_,high⟩ := pool
    unfold heapAddressToBlock nutsosHeapBlockSize
    rw [toInt32_eq (by omega) (by omega),
      show ((0 : Nat) : Int)-heap.saddr = -((heap.saddr/4096 : Nat) : Int)*((4096 : Nat) : Int) by omega]
    exact Int.mul_tdiv_cancel _ (by decide)
  have positive := pool.low
  have aligned := pool.aligned
  obtain ⟨kept,below⟩ := markFreeLoop_below (heap.table.total+heap.saddr/4096) (-((heap.saddr/4096 : Nat) : Int))
    heap.table.entries (by omega) stops
  refine ⟨_,_,rfl,rfl,rfl,?_⟩
  rw [block,show ((heap.table.total : Int)- -((heap.saddr/4096 : Nat) : Int)).toNat = heap.table.total+heap.saddr/4096 by omega]
  exact ⟨fun i table => kept i (.inr table),below⟩

theorem Pool.free_free (pool : Pool heap) (inside : start < heap.table.total)
    (free : heap.table.entries (start : Nat) = heapBlockTableEntryFree) :
    ∃ written, heapFree heap (heap.saddr+start*4096) = (heap,written) := by
  have same : writeEntry heap.table.entries (start : Nat) heapBlockTableEntryFree = heap.table.entries := by
    funext j
    unfold writeEntry
    split
    · next equal => rw [equal,free]
    · rfl
  obtain ⟨left,count⟩ : ∃ left, ((heap.table.total : Int)-(start : Nat)).toNat = left+1 :=
    ⟨heap.table.total-start-1,by omega⟩
  refine ⟨[(start : Nat)],?_⟩
  unfold heapFree heapMarkBlocksFree
  rw [pool.block inside,count,markFreeLoop,free]
  dsimp only
  rw [if_pos (by decide),same]

end NutsOS.HeapAlloc
