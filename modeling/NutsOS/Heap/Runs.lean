import Mathlib.Data.List.Pairwise
import NutsOS.Lib.Runs
import NutsOS.Heap.Pool

-- Runs of heap_malloc and heap_free from a heap that heap_create accepted.
namespace NutsOS.HeapAlloc
open Word32 Runs

structure Allocation where
  ptr : Nat
  size : Nat

structure HeapRun where
  heap : Heap
  live : List Allocation
  written : List Int

inductive HeapAction where
  | malloc (size : Nat)
  | free (ptr : Nat)

def HeapRun.start (heap : Heap) : HeapRun := ⟨heap,[],[]⟩

def HeapRun.malloc (s : HeapRun) (size : Nat) : HeapRun :=
  let (address,heap,written) := heapMalloc s.heap size
  ⟨heap,if address = 0 then s.live else ⟨address,size⟩::s.live,s.written++written⟩

def HeapRun.free (s : HeapRun) (ptr : Nat) : HeapRun :=
  let (heap,written) := heapFree s.heap ptr
  ⟨heap,s.live.filter (fun a => a.ptr ≠ ptr),s.written++written⟩

inductive HeapStep : HeapRun → HeapAction → HeapRun → Prop where
  | malloc (positive : 1 ≤ size) (bounded : size ≤ s.heap.table.total*4096) :
      HeapStep s (.malloc size) (s.malloc size)
  | free (member : a ∈ s.live) : HeapStep s (.free a.ptr) (s.free a.ptr)

-- Positions are counted from saddr modulo 2^32: heap_create also accepts a
-- pool that ends at, or wraps around, the top of the address space.
def poolOffset (saddr ptr : Nat) : Nat := toUint32 (ptr-saddr)

def DisjointIn (saddr : Nat) (a b : Allocation) : Prop :=
  poolOffset saddr a.ptr + a.size ≤ poolOffset saddr b.ptr ∨
    poolOffset saddr b.ptr + b.size ≤ poolOffset saddr a.ptr

structure Safe (s : HeapRun) : Prop where
  inside : ∀ a ∈ s.live, poolOffset s.heap.saddr a.ptr + a.size ≤ s.heap.table.total*4096
  disjoint : s.live.Pairwise (DisjointIn s.heap.saddr)
  inTable : ∀ i ∈ s.written, 0 ≤ i ∧ i < s.heap.table.total

-- What a step has to find in the state: room for the request or a taken last
-- block, and a pointer whose offset a signed int can hold.
def StepFits (s : HeapRun) : HeapAction → Prop
  | .malloc size => HasRun s.heap.table.entries s.heap.table.total (blocksFor size) ∨
      LastTaken s.heap.table.entries s.heap.table.total
  | .free ptr => poolOffset s.heap.saddr ptr < 2147483648

theorem poolOffset_block (heap : Heap) (small : s < 1048576) :
    poolOffset heap.saddr (heapBlockToAddress heap (s : Nat)) = s*4096 := by
  unfold poolOffset heapBlockToAddress toUint32 nutsosHeapBlockSize
  omega

theorem addressToBlock_low {heap : Heap} (aligned : poolOffset heap.saddr p = s*4096)
    (low : poolOffset heap.saddr p < 2147483648) :
    heapAddressToBlock heap p = (s : Nat) := by
  have signed : toInt32 ((p : Int)-heap.saddr) = ((s*4096 : Nat) : Int) := by
    unfold poolOffset toUint32 at aligned low
    unfold toInt32
    split <;> omega
  unfold heapAddressToBlock nutsosHeapBlockSize
  rw [signed,Int.tdiv_eq_ediv_of_nonneg (by omega)]
  omega

theorem addressToBlock_high {heap : Heap} (aligned : poolOffset heap.saddr p = s*4096)
    (high : 2147483648 ≤ poolOffset heap.saddr p) : heapAddressToBlock heap p < 0 := by
  obtain ⟨k,signed,positive⟩ : ∃ k : Nat, toInt32 ((p : Int)-heap.saddr) = -((k*4096 : Nat) : Int) ∧ 0 < k := by
    unfold poolOffset toUint32 at aligned high
    refine ⟨1048576-s,?_,by omega⟩
    unfold toInt32
    split <;> omega
  unfold heapAddressToBlock nutsosHeapBlockSize
  rw [signed,Int.neg_tdiv,Int.tdiv_eq_ediv_of_nonneg (by omega)]
  omega

def chunkOf (saddr : Nat) (a : Allocation) : Chunk := ⟨poolOffset saddr a.ptr/4096,blocksFor a.size⟩

structure Placed (saddr : Nat) (chunks : Set Chunk) (a : Allocation) : Prop where
  chunk : chunkOf saddr a ∈ chunks
  aligned : poolOffset saddr a.ptr % 4096 = 0
  covered : a.size ≤ blocksFor a.size*4096

structure Represents (s : HeapRun) (chunks : Set Chunk) : Prop where
  table : Decodes s.heap.table.entries s.heap.table.total chunks
  bounded : s.heap.table.total < 1048576
  placed : ∀ a ∈ s.live, Placed s.heap.saddr chunks a
  distinct : s.live.Pairwise (fun a b => chunkOf s.heap.saddr a ≠ chunkOf s.heap.saddr b)
  inTable : ∀ i ∈ s.written, 0 ≤ i ∧ i < s.heap.table.total

def Invariant (s : HeapRun) : Prop := ∃ chunks, Represents s chunks

theorem created_invariant (created : heapCreate old ptr endPtr table = (0,heap)) :
    Invariant (.start heap) := by
  unfold heapCreate at created
  split at created
  · simp [einvarg] at created
  · dsimp only at created
    split at created
    · rename_i failed
      simp only [Prod.mk.injEq] at created
      omega
    · rename_i accepted
      simp only [Prod.mk.injEq,true_and] at created
      subst heap
      refine ⟨∅,decodes_empty ?_,?_,by simp [HeapRun.start],by simp [HeapRun.start],by simp [HeapRun.start]⟩
      · intro i low high
        exact if_pos ⟨low,high⟩
      · unfold heapValidateTable at accepted
        dsimp only at accepted
        split at accepted
        · simp [einvarg] at accepted
        · rename_i same
          have word := toUint32_lt ((endPtr : Int)-ptr)
          simp only [nutsosHeapBlockSize,ne_eq,Decidable.not_not] at same
          simp only [HeapRun.start]
          omega

theorem Represents.safe (valid : Represents s chunks) : Safe s := by
  refine ⟨?_,?_,valid.inTable⟩
  · intro a member
    have placed := valid.placed a member
    have inside := valid.table.inside _ placed.chunk
    have aligned := placed.aligned
    have covered := placed.covered
    simp only [chunkOf] at inside
    omega
  · refine valid.distinct.imp_of_mem ?_
    intro a b memberA memberB different
    have placedA := valid.placed a memberA
    have placedB := valid.placed b memberB
    have apart := valid.table.apart _ placedA.chunk _ placedB.chunk different
    have alignedA := placedA.aligned
    have alignedB := placedB.aligned
    have coveredA := placedA.covered
    have coveredB := placedB.covered
    simp only [Chunk.Apart,chunkOf] at apart
    unfold DisjointIn
    omega

-- The allocator at one request: the wanted run, a full table, or a run at the
-- end of the table that is too short and is handed out all the same.
theorem malloc_cases (s : HeapRun) (positive : 0 < blocksFor size) :
    (∃ start, start+blocksFor size ≤ s.heap.table.total ∧
      FreeRun s.heap.table.entries start (blocksFor size) ∧
      heapMalloc s.heap size = s.heap.granted ⟨start,blocksFor size⟩) ∨
    (LastTaken s.heap.table.entries s.heap.table.total ∧ heapMalloc s.heap size = (0,s.heap,[])) ∨
    (¬ HasRun s.heap.table.entries s.heap.table.total (blocksFor size) ∧
      ¬ LastTaken s.heap.table.entries s.heap.table.total ∧
      (s.heap.table.total : Int) ∈ (heapMalloc s.heap size).2.2) := by
  obtain ⟨bs,scan,refused,taken⟩ := heapMalloc_scan _ s.heap positive
  generalize same : bs = value at scan
  cases scan with
  | found start fits free lowest => exact Or.inl ⟨start,fits,free,taken start same⟩
  | full none last => exact Or.inr (Or.inl ⟨last,refused same⟩)
  | short start none inside free =>
    refine Or.inr (Or.inr ⟨none,?_,?_⟩)
    · intro last
      exact last (s.heap.table.total-1) (by omega) (free _ (by omega) (by omega))
    · rw [taken start same]
      have long : ¬ start+blocksFor size ≤ s.heap.table.total := by
        intro fits
        exact none ⟨start,fits,fun i low high => free i low (by omega)⟩
      have covers : Chunk.Covers ⟨start,blocksFor size⟩ s.heap.table.total := by
        unfold Chunk.Covers
        dsimp only
        omega
      exact mem_indexes.mpr covers

theorem Represents.malloc (valid : Represents s chunks) (positive : 1 ≤ size)
    (bounded : size ≤ s.heap.table.total*4096) (fits : StepFits s (.malloc size)) :
    Invariant (s.malloc size) := by
  have total := valid.bounded
  obtain ⟨some,enough⟩ := blocksFor_bounds positive (by omega)
  rcases malloc_cases s some with ⟨start,inside,free,ran⟩ | ⟨_,ran⟩ | ⟨noRun,free,_⟩
  · refine ⟨insert ⟨start,blocksFor size⟩ chunks,?_⟩
    have offset : poolOffset s.heap.saddr (heapBlockToAddress s.heap start) = start*4096 :=
      poolOffset_block s.heap (by omega)
    have chunk : chunkOf s.heap.saddr ⟨heapBlockToAddress s.heap start,size⟩ = ⟨start,blocksFor size⟩ := by
      simp only [chunkOf,offset,Nat.mul_div_cancel _ (by decide : 0 < 4096)]
    have fresh : ∀ a ∈ s.live, chunkOf s.heap.saddr ⟨heapBlockToAddress s.heap start,size⟩ ≠ chunkOf s.heap.saddr a := by
      intro a member equal
      have apart := valid.table.toTiled.free_apart some (by omega) (fun i low high _ => free i low high)
        (valid.placed a member).chunk
      rw [chunk] at equal
      rw [← equal] at apart
      simp only [Chunk.Apart] at apart
      omega
    have kept : ∀ a ∈ s.live, Placed s.heap.saddr (insert ⟨start,blocksFor size⟩ chunks) a := by
      intro a member
      have placed := valid.placed a member
      exact ⟨Set.mem_insert_of_mem _ placed.chunk,placed.aligned,placed.covered⟩
    have added : Placed s.heap.saddr (insert ⟨start,blocksFor size⟩ chunks)
        ⟨heapBlockToAddress s.heap start,size⟩ :=
      ⟨chunk ▸ Set.mem_insert _ _,by simp only [offset,Nat.mul_mod_left],enough⟩
    have table := valid.table.insert some inside free
    simp only [HeapRun.malloc,ran,Heap.granted]
    refine ⟨table,total,?_,?_,?_⟩
    · intro a member
      split at member
      · exact kept a member
      · rcases List.mem_cons.mp member with rfl | old
        · exact added
        · exact kept a old
    · split
      · exact valid.distinct
      · exact List.Pairwise.cons fresh valid.distinct
    · intro i member
      rcases List.mem_append.mp member with old | new
      · exact valid.inTable i old
      · have covers := mem_indexes.mp new
        unfold Chunk.Covers at covers
        dsimp only [Heap.withEntries] at *
        omega
  · refine ⟨chunks,?_⟩
    simp only [HeapRun.malloc,ran,if_pos,List.append_nil]
    exact valid
  · rcases fits with run | last
    · exact False.elim (noRun run)
    · exact False.elim (free last)

theorem Represents.free (valid : Represents s chunks) (member : a ∈ s.live)
    (low : StepFits s (.free a.ptr)) : Invariant (s.free a.ptr) := by
  have placed := valid.placed a member
  have inside := valid.table.inside _ placed.chunk
  have start : heapAddressToBlock s.heap a.ptr = ((chunkOf s.heap.saddr a).start : Nat) :=
    addressToBlock_low (by have := placed.aligned; simp only [chunkOf]; omega) low
  refine ⟨chunks \ {chunkOf s.heap.saddr a},?_⟩
  simp only [HeapRun.free,heapFree,start,heapMarkBlocksFree_eq s.heap valid.table placed.chunk]
  have others : ∀ b ∈ s.live.filter (fun b => b.ptr ≠ a.ptr), b ∈ s.live ∧ chunkOf s.heap.saddr b ≠ chunkOf s.heap.saddr a := by
    intro b remains
    obtain ⟨old,different⟩ := List.mem_filter.mp remains
    refine ⟨old,?_⟩
    have symmetric : Std.Symm (fun a b => chunkOf s.heap.saddr a ≠ chunkOf s.heap.saddr b) := ⟨fun _ _ => Ne.symm⟩
    exact valid.distinct.forall old member (by rintro rfl; simp at different)
  refine ⟨valid.table.remove placed.chunk,valid.bounded,?_,valid.distinct.filter _,?_⟩
  · intro b remains
    obtain ⟨old,different⟩ := others b remains
    have before := valid.placed b old
    exact ⟨⟨before.chunk,different⟩,before.aligned,before.covered⟩
  · intro i written
    rcases List.mem_append.mp written with old | new
    · exact valid.inTable i old
    · have covers := mem_indexes.mp new
      unfold Chunk.Covers at covers
      dsimp only [Heap.withEntries] at *
      omega

theorem markFreeLoop_first (positive : 0 < count) : i ∈ (markFreeLoop count i entries).2 := by
  cases count with
  | zero => cases positive
  | succ count =>
    rw [markFreeLoop]
    dsimp only
    split <;> simp

theorem malloc_breaks (valid : Represents s chunks) (positive : 1 ≤ size)
    (bounded : size ≤ s.heap.table.total*4096) (unfit : ¬ StepFits s (.malloc size)) :
    ¬ Safe (s.malloc size) := by
  have total := valid.bounded
  obtain ⟨some,_⟩ := blocksFor_bounds positive (by omega)
  intro safe
  rcases malloc_cases s some with ⟨start,inside,free,_⟩ | ⟨last,_⟩ | ⟨_,_,outside⟩
  · exact unfit (Or.inl ⟨start,inside,free⟩)
  · exact unfit (Or.inr last)
  · have bound := (safe.inTable _ (List.mem_append_right s.written outside)).2
    have same : (s.malloc size).heap.table.total = s.heap.table.total := by
      simp only [HeapRun.malloc,heapMalloc,heapMallocBlocks]
      split <;> rfl
    rw [same] at bound
    exact Int.lt_irrefl _ bound

theorem free_breaks (valid : Represents s chunks) (member : a ∈ s.live)
    (unfit : ¬ StepFits s (.free a.ptr)) : ¬ Safe (s.free a.ptr) := by
  have aligned := (valid.placed a member).aligned
  have high : 2147483648 ≤ poolOffset s.heap.saddr a.ptr := Nat.le_of_not_lt unfit
  have negative := addressToBlock_high (s := poolOffset s.heap.saddr a.ptr/4096) (by omega) high
  intro safe
  have first : heapAddressToBlock s.heap a.ptr ∈ (heapFree s.heap a.ptr).2 :=
    markFreeLoop_first (by omega)
  have bound := (safe.inTable _ (List.mem_append_right s.written first)).1
  omega

theorem step_keeps (s : HeapRun) (action : HeapAction) (t : HeapRun) (valid : Invariant s)
    (fits : StepFits s action) (step : HeapStep s action t) : Invariant t := by
  obtain ⟨chunks,valid⟩ := valid
  cases step with
  | malloc positive bounded => exact valid.malloc positive bounded fits
  | free member => exact valid.free member fits

theorem step_breaks (s : HeapRun) (action : HeapAction) (t : HeapRun) (valid : Invariant s)
    (unfit : ¬ StepFits s action) (step : HeapStep s action t) : ¬ Safe t := by
  obtain ⟨chunks,valid⟩ := valid
  cases step with
  | malloc positive bounded => exact malloc_breaks valid positive bounded unfit
  | free member => exact free_breaks valid member unfit

theorem heap_runs_safe (created : heapCreate old ptr endPtr table = (0,heap))
    (ran : IsRun HeapStep (.start heap) trace) :
    Always Safe (.start heap) trace ↔ Guarded StepFits (.start heap) trace :=
  always_iff_guarded step_keeps (fun _ ⟨_,valid⟩ => valid.safe) step_breaks (created_invariant created) ran

def smallTable : HeapTable := ⟨fun _ => 0xFF,4⟩
def smallHeap : Heap := (heapCreate ⟨smallTable,0⟩ 0x01000000 0x01004000 smallTable).2

theorem small_run_safe :
    let one := (HeapRun.start smallHeap).malloc 5000
    let two := one.malloc 4096
    let three := two.free 0x01000000
    let trace := [(HeapAction.malloc 5000,one),(.malloc 4096,two),(.free 0x01000000,three),(.malloc 8192,three.malloc 8192)]
    (three.malloc 8192).live = [⟨0x01000000,8192⟩,⟨0x01002000,4096⟩] ∧ Always Safe (.start smallHeap) trace := by
  refine ⟨rfl,(heap_runs_safe (show heapCreate ⟨smallTable,0⟩ 0x01000000 0x01004000 smallTable = (0,smallHeap) from rfl) ?_).mpr ?_⟩
  · refine ⟨.malloc (by decide) (by decide),.malloc (by decide) (by decide),.free (a := ⟨0x01000000,5000⟩) ?_,
      .malloc (by decide) (by decide),trivial⟩
    exact List.mem_cons_of_mem _ (List.mem_singleton.mpr rfl)
  · exact ⟨.inl ⟨0,by decide,by decide⟩,.inl ⟨2,by decide,by decide⟩,show _ < _ by decide,.inl ⟨0,by decide,by decide⟩,trivial⟩
-- Three of the four blocks are taken; a request for two more is granted and
-- marks the byte behind the table.
theorem short_run_overflows :
    let taken := (HeapRun.start smallHeap).malloc 12288
    let trace := [(HeapAction.malloc 12288,taken),(.malloc 8192,taken.malloc 8192)]
    heapCreate ⟨smallTable,0⟩ 0x01000000 0x01004000 smallTable = (0,smallHeap) ∧
      IsRun HeapStep (.start smallHeap) trace ∧ (taken.malloc 8192).written = [0,1,2,3,4] ∧
      ¬ Always Safe (.start smallHeap) trace := by
  refine ⟨rfl,⟨.malloc (by decide) (by decide),.malloc (by decide) (by decide),trivial⟩,by decide,?_⟩
  intro always
  have safe := always.2 _ (List.mem_cons_of_mem _ (List.mem_singleton.mpr rfl))
  have bound := (safe.inTable 4 (by decide)).2
  exact absurd bound (by decide)

end NutsOS.HeapAlloc
