import Mathlib.Data.Finset.Card
import NutsOS.Heap.Runs

-- heap_malloc over all request sizes: what it marks for a pointer it returns.
namespace NutsOS.HeapAlloc
open Word32

def newlyTaken (before after : Heap) : Finset Nat :=
  (Finset.range before.table.total).filter (fun i => IsFree before.table.entries i ∧ ¬ IsFree after.table.entries i)

-- A second allocation keeps away from the first one, and so do their frees.
structure Separate (heap one : Heap) (ptr : Nat) (two : Heap) (second : Nat) : Prop where
  different : second ≠ ptr
  freeFirst : ∀ i ∈ newlyTaken one two, ¬ IsFree (heapFree two ptr).1.table.entries i
  freeSecond : ∀ i ∈ newlyTaken heap one, ¬ IsFree (heapFree two second).1.table.entries i

structure Granted (heap : Heap) (size ptr : Nat) (one : Heap) : Prop where
  some : 1 ≤ (newlyTaken heap one).card
  enough : size ≤ (newlyTaken heap one).card*4096
  separate : ∀ later, later < 4294967296 → ∀ second two written, heapMalloc one later = (second,two,written) → second ≠ 0 →
    Separate heap one ptr two second

def MallocSound (heap : Heap) (size : Nat) : Prop :=
  ∀ ptr one written, heapMalloc heap size = (ptr,one,written) → ptr ≠ 0 → Granted heap size ptr one

-- The request names at least one block, and the table has a run of that many.
def Servable (heap : Heap) (size : Nat) : Prop :=
  1 ≤ size ∧ size ≤ 4294963200 ∧ HasRun heap.table.entries heap.table.total (blocksFor size)

theorem blocksFor_least (positive : 1 ≤ size) (bounded : size ≤ 4294963200) : (blocksFor size-1)*4096 < size := by
  unfold blocksFor heapAlignValueToUpper nutsosHeapBlockSize toUint32
  split <;> omega

theorem blocksFor_wraps (large : 4294963200 < size) (word : size < 4294967296) : blocksFor size = 0 := by
  unfold blocksFor heapAlignValueToUpper nutsosHeapBlockSize toUint32
  split <;> omega

theorem heapScan_none (entries : Int → UInt8) (count i bc : Nat) (bs : Int) (start : bs = -1 ∨ 0 ≤ bs) :
    heapScan entries 0 (count+1) i bc bs = -1 ↔ ¬ IsFree entries (i+count) := by
  induction count generalizing i bc bs with
  | zero =>
    rw [heapScan,Nat.add_zero]
    by_cases free : IsFree entries i
    · have equal : heapGetEntryType (entries i) = heapBlockTableEntryFree := free
      rw [if_neg (by simp [equal])]
      dsimp only
      rw [if_neg (Nat.succ_ne_zero bc),heapScan]
      refine ⟨fun none => ?_,fun taken => absurd free taken⟩
      split at none <;> omega
    · have other : heapGetEntryType (entries i) ≠ heapBlockTableEntryFree := free
      rw [if_pos other,heapScan]
      exact ⟨fun _ => free,fun _ => rfl⟩
  | succ count ih =>
    rw [heapScan,show i+(count+1) = i+1+count by omega]
    by_cases free : IsFree entries i
    · have equal : heapGetEntryType (entries i) = heapBlockTableEntryFree := free
      rw [if_neg (by simp [equal])]
      dsimp only
      rw [if_neg (Nat.succ_ne_zero bc)]
      exact ih (i+1) (bc+1) _ (by split <;> omega)
    · have other : heapGetEntryType (entries i) ≠ heapBlockTableEntryFree := free
      rw [if_pos other]
      exact ih (i+1) 0 (-1) (.inl rfl)

theorem heapMalloc_empty (heap : Heap) (none : blocksFor size = 0) :
    (LastTaken heap.table.entries heap.table.total ∧ heapMalloc heap size = (0,heap,[])) ∨
      (¬ LastTaken heap.table.entries heap.table.total ∧ ∃ start : Nat, start < heap.table.total ∧
        IsFree heap.table.entries start ∧ heapMalloc heap size = (heapBlockToAddress heap start,heap,[])) := by
  have scanned : heapScan heap.table.entries 0 heap.table.total 0 0 (-1) = -1 ↔ LastTaken heap.table.entries heap.table.total := by
    cases total : heap.table.total with
    | zero => exact ⟨fun _ t impossible => absurd impossible (Nat.succ_ne_zero t).symm,fun _ => rfl⟩
    | succ count =>
      rw [heapScan_none _ _ _ _ _ (.inl rfl),Nat.zero_add]
      refine ⟨fun taken t same => ?_,fun last => last count rfl⟩
      rw [← Nat.succ.inj same]
      exact taken
  rcases heapMalloc_unmarked heap none with ⟨minus,refused⟩ | ⟨start,found,answered⟩
  · exact .inl ⟨scanned.mp minus,refused⟩
  · refine .inr ⟨fun last => ?_,start,answered⟩
    rw [scanned.mpr last] at found
    omega

theorem newlyTaken_same (heap : Heap) : newlyTaken heap heap = ∅ := by
  unfold newlyTaken
  apply Finset.filter_eq_empty_iff.mpr
  intro i _ both
  exact both.2 both.1

theorem newlyTaken_granted {heap : Heap} (free : FreeIn heap.table.entries heap.table.total start n) :
    newlyTaken heap (heap.granted ⟨start,n⟩).2.1 = Finset.Ico start (min (start+n) heap.table.total) := by
  ext i
  simp only [newlyTaken,Finset.mem_filter,Finset.mem_range,Finset.mem_Ico]
  have entries : (heap.granted ⟨start,n⟩).2.1.table.entries = setChunk ⟨start,n⟩ (Chunk.entry ⟨start,n⟩) heap.table.entries := rfl
  rw [entries]
  constructor
  · rintro ⟨inside,before,after⟩
    by_cases covers : Chunk.Covers ⟨start,n⟩ (i : Nat)
    · unfold Chunk.Covers at covers
      dsimp only at covers
      omega
    · unfold IsFree at after
      rw [setChunk_other covers] at after
      exact absurd before after
  · rintro ⟨low,high⟩
    have covers : Chunk.Covers ⟨start,n⟩ (i : Nat) := by
      unfold Chunk.Covers
      dsimp only
      omega
    refine ⟨by omega,free i low (by omega) (by omega),?_⟩
    unfold IsFree
    rw [setChunk_covered covers]
    exact entry_type _ _

theorem newlyTaken_member {before after : Heap} (member : i ∈ newlyTaken before after) :
    i < before.table.total ∧ IsFree before.table.entries i ∧ ¬ IsFree after.table.entries i := by
  obtain ⟨inside,free,taken⟩ := Finset.mem_filter.mp member
  exact ⟨Finset.mem_range.mp inside,free,taken⟩

theorem Tiled.kfree_other {heap : Heap} (pool : Pool heap) (valid : Tiled heap.table.entries heap.table.total chunks)
    (member : c ∈ chunks) (other : ¬ c.Covers i) (inside : i < (heap.table.total : Int)) (ptr : Nat)
    (address : ptr = heap.saddr+c.start*4096) : (heapFree heap ptr).1.table.entries i = heap.table.entries i := by
  obtain ⟨written,freed⟩ := valid.kfree pool member
  rw [address,freed]
  apply setChunk_other
  rw [clip_covers (valid.starts c member) inside]
  exact other

theorem separate_of_live {heap one : Heap} (pool : Pool one) (valid : Tiled one.table.entries one.table.total chunks)
    (member : c ∈ chunks) (live : ∀ i ∈ newlyTaken heap one, i < one.table.total ∧ ¬ IsFree one.table.entries i)
    (ran : heapMalloc one later = (second,two,written)) (some : second ≠ 0) :
    Separate heap one (one.saddr+c.start*4096) two second := by
  have inside := valid.starts c member
  have taken : ¬ IsFree one.table.entries c.start := by
    have length := valid.positive c member
    exact valid.covered_taken member ⟨Int.le_refl _,by omega⟩ inside
  rcases Nat.eq_zero_or_pos (blocksFor later) with none | blocks
  · rcases heapMalloc_none one none with refused | ⟨start,inside',free,answered⟩
    · rw [refused] at ran
      cases ran
      exact absurd rfl some
    · rw [answered,pool.address inside',Prod.mk.injEq,Prod.mk.injEq] at ran
      obtain ⟨rfl,same,_⟩ := ran
      rw [← same]
      have clear : one.table.entries (start : Nat) = heapBlockTableEntryFree :=
        valid.free start (by omega) (by omega) (fun d other covers => valid.covered_taken other covers inside' free)
      obtain ⟨written',freed⟩ := pool.free_free inside' clear
      refine ⟨fun same => taken ?_,fun i fresh => ?_,fun i fresh => ?_⟩
      · have equal : start = c.start := by omega
        exact equal ▸ free
      · rw [newlyTaken_same] at fresh
        exact absurd fresh (Finset.notMem_empty i)
      · rw [freed]
        exact (live i fresh).2
  · rcases heapMalloc_cases _ one blocks with refused | ⟨start,inside',free,granted⟩
    · rw [refused] at ran
      cases ran
      exact absurd rfl some
    · have tiled : Tiled (one.granted ⟨start,blocksFor later⟩).2.1.table.entries
          (one.granted ⟨start,blocksFor later⟩).2.1.table.total (insert ⟨start,blocksFor later⟩ chunks) :=
        valid.insert blocks inside' free
      have grown := pool.grown ⟨start,blocksFor later⟩
      have address := pool.granted inside' (blocksFor later)
      rw [granted] at ran
      have same : second = one.saddr+start*4096 ∧ two = (one.granted ⟨start,blocksFor later⟩).2.1 := by
        rw [← address,ran]
        exact ⟨rfl,rfl⟩
      obtain ⟨rfl,rfl⟩ := same
      refine ⟨fun same => taken ?_,fun i fresh => ?_,fun i fresh => ?_⟩
      · have equal : start = c.start := by omega
        rw [← equal]
        exact free start (Nat.le_refl _) (by omega) inside'
      · obtain ⟨low,before,after⟩ := newlyTaken_member fresh
        have other : ¬ c.Covers (i : Nat) := fun covers => valid.covered_taken member covers low before
        unfold IsFree at *
        rw [tiled.kfree_other grown (Set.mem_insert_of_mem _ member) other (by exact_mod_cast low) (one.saddr+c.start*4096) rfl]
        exact after
      · obtain ⟨low,after⟩ := live i fresh
        have other : ¬ Chunk.Covers ⟨start,blocksFor later⟩ (i : Nat) := by
          intro ⟨least,most⟩
          dsimp only at least most
          exact after (free i (by omega) (by omega) low)
        have entry : (one.granted ⟨start,blocksFor later⟩).2.1.table.entries i = one.table.entries i := setChunk_other other
        unfold IsFree at *
        rw [tiled.kfree_other grown (Set.mem_insert _ _) other (by exact_mod_cast low) (one.saddr+start*4096) rfl,entry]
        exact after

theorem granted_sound {heap : Heap} (pool : Pool heap) (valid : Tiled heap.table.entries heap.table.total chunks)
    (positive : 1 ≤ size) (bounded : size ≤ 4294963200) (fits : start+blocksFor size ≤ heap.table.total)
    (free : FreeRun heap.table.entries start (blocksFor size)) :
    Granted heap size (heap.granted ⟨start,blocksFor size⟩).1 (heap.granted ⟨start,blocksFor size⟩).2.1 := by
  obtain ⟨blocks,enough⟩ := blocksFor_bounds positive bounded
  have inside : start < heap.table.total := by omega
  have clipped : FreeIn heap.table.entries heap.table.total start (blocksFor size) := fun i low high _ => free i low high
  have count : (newlyTaken heap (heap.granted ⟨start,blocksFor size⟩).2.1).card = blocksFor size := by
    rw [newlyTaken_granted clipped,Nat.card_Ico]
    omega
  refine ⟨count.symm ▸ blocks,count.symm ▸ enough,?_⟩
  intro later _ second two written ran some
  have tiled : Tiled (heap.granted ⟨start,blocksFor size⟩).2.1.table.entries
      (heap.granted ⟨start,blocksFor size⟩).2.1.table.total (insert ⟨start,blocksFor size⟩ chunks) :=
    valid.insert blocks inside clipped
  rw [pool.granted inside]
  apply separate_of_live (pool.grown _) tiled (Set.mem_insert _ _) _ ran some
  intro i fresh
  obtain ⟨low,_,after⟩ := newlyTaken_member fresh
  exact ⟨low,after⟩

theorem malloc_sound {heap : Heap} (pool : Pool heap) (valid : Tiled heap.table.entries heap.table.total chunks)
    (word : size < 4294967296) :
    MallocSound heap size ↔ Servable heap size ∨ LastTaken heap.table.entries heap.table.total := by
  rcases Nat.eq_zero_or_pos (blocksFor size) with none | blocks
  · rcases heapMalloc_empty heap none with ⟨last,refused⟩ | ⟨open_,start,inside,_,answered⟩
    · refine ⟨fun _ => .inr last,fun _ ptr one written ran some => ?_⟩
      rw [refused] at ran
      cases ran
      exact absurd rfl some
    · constructor
      · intro sound
        have address := pool.address inside
        have low := pool.low
        have some := (sound _ _ _ answered (by omega)).some
        rw [newlyTaken_same] at some
        exact absurd some (by decide)
      · rintro (⟨positive,bounded,_⟩ | last)
        · have some := (blocksFor_bounds positive bounded).1
          omega
        · exact absurd last open_
  · have positive := blocksFor_positive blocks
    have bounded : size ≤ 4294963200 := by
      by_contra large
      rw [blocksFor_wraps (by omega) word] at blocks
      omega
    obtain ⟨bs,scan,refused,taken⟩ := heapMalloc_scan _ heap blocks
    generalize same : bs = value at scan
    cases scan with
    | found start fits free lowest =>
      refine ⟨fun _ => .inl ⟨positive,bounded,start,fits,free⟩,fun _ ptr one written ran _ => ?_⟩
      rw [taken start same] at ran
      have sound := granted_sound pool valid positive bounded fits free
      rw [ran] at sound
      exact sound
    | full none last =>
      refine ⟨fun _ => .inr last,fun _ ptr one written ran some => ?_⟩
      rw [refused same] at ran
      cases ran
      exact absurd rfl some
    | short start none inside free =>
      constructor
      · intro sound
        -- the run that is handed out ends at the table's end and is too short
        have clipped : FreeIn heap.table.entries heap.table.total start (blocksFor size) :=
          fun i low _ inTable => free i low (by omega)
        have address := pool.granted inside (blocksFor size)
        have low := pool.low
        have some : (heap.granted ⟨start,blocksFor size⟩).1 ≠ 0 := by omega
        have enough := (sound _ (heap.granted ⟨start,blocksFor size⟩).2.1 _ (taken start same) some).enough
        have least := blocksFor_least positive bounded
        have short : ¬ start+blocksFor size ≤ heap.table.total := fun fits =>
          none ⟨start,fits,fun i low high => free i low (by omega)⟩
        rw [newlyTaken_granted clipped,Nat.card_Ico] at enough
        have bound : (min (start+blocksFor size) heap.table.total-start)*4096 ≤ (blocksFor size-1)*4096 :=
          Nat.mul_le_mul_right _ (by omega)
        omega
      · rintro (⟨_,_,run⟩ | last)
        · exact absurd run none
        · have taken := last (heap.table.total-1) (by omega)
          exact absurd (free (heap.table.total-1) (by omega) (by omega)) taken

def freeFour : Heap := ⟨⟨fun _ => 0,4⟩,0x01000000⟩

theorem freeFour_free (i : Nat) : IsFree freeFour.table.entries i := by
  show (0 &&& 1 : UInt8) = 0
  decide

theorem free_four_sound : MallocSound freeFour 5000 :=
  (malloc_sound ⟨by decide,by decide,by decide⟩ (decodes_empty (fun _ _ _ => rfl)).toTiled (by decide)).mpr
    (.inl ⟨by decide,by decide,0,by decide,fun i _ _ => freeFour_free i⟩)

-- A request for no byte, and one for all but one byte of the address space, are
-- answered with the first block again and again: it stays free.
theorem empty_request_repeated :
    heapMalloc freeFour 0 = (0x01000000,freeFour,[]) ∧ heapMalloc freeFour 0xFFFFFFFF = (0x01000000,freeFour,[]) ∧
      ¬ MallocSound freeFour 0 ∧ ¬ MallocSound freeFour 0xFFFFFFFF := by
  have unsound (size : Nat) (answered : heapMalloc freeFour size = (0x01000000,freeFour,[])) : ¬ MallocSound freeFour size := by
    intro sound
    have some := (sound _ _ _ answered (by decide)).some
    rw [newlyTaken_same] at some
    exact absurd some (by decide)
  have empty : heapMalloc freeFour 0 = (0x01000000,freeFour,[]) := rfl
  have wrapped : heapMalloc freeFour 0xFFFFFFFF = (0x01000000,freeFour,[]) := rfl
  exact ⟨empty,wrapped,unsound _ empty,unsound _ wrapped⟩

end NutsOS.HeapAlloc
