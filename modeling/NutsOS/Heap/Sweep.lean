import NutsOS.Heap.Pinned
import NutsOS.Heap.Release

-- A series of frees over a table in which single blocks were handed out: what
-- is left of the table as it was before.
namespace NutsOS.HeapAlloc

def freeAll (heap : Heap) : List Nat → Heap
  | [] => heap
  | ptr::rest => freeAll (heapFree heap ptr).1 rest

def SameTable (before after : Heap) : Prop :=
  ∀ i : Int, 0 ≤ i → i < before.table.total → after.table.entries i = before.table.entries i

def Harmless (heap : Heap) (ptr : Nat) : Prop := SameTable heap (heapFree heap ptr).1

def Quiet (entries : Int → UInt8) (total : Nat) (i : Int) : Prop :=
  ∀ j : Int, 0 ≤ j → j < total → (markFreeLoop (total-i).toNat i entries).1 j = entries j

theorem markFreeLoop_congr (count : Nat) (i : Int) (same : ∀ j, i ≤ j → after j = entries j) (later : i ≤ j) :
    (markFreeLoop count i after).1 j = (markFreeLoop count i entries).1 j := by
  induction count generalizing i after entries with
  | zero => exact same j later
  | succ count ih =>
    have cleared (l : Int) (behind : i ≤ l) : writeEntry after i heapBlockTableEntryFree l = writeEntry entries i heapBlockTableEntryFree l := by
      unfold writeEntry
      rw [same l behind]
    rw [markFreeLoop,markFreeLoop,same i (Int.le_refl _)]
    dsimp only
    split
    · exact cleared j later
    · by_cases first : j = i
      · rw [markFreeLoop_front _ _ _ (by omega),markFreeLoop_front _ _ _ (by omega)]
        exact cleared j later
      · exact ih (i+1) (fun l behind => cleared l (by omega)) (by omega)

theorem quiet_behind {total : Nat} (behind : (total : Int) ≤ i) : Quiet entries total i := by
  intro j _ _
  rw [Int.toNat_eq_zero.mpr (by omega)]
  rfl

theorem quiet_inside {total : Nat} (low : 0 ≤ i) (inside : i < (total : Int)) : Quiet entries total i ↔ entries i = heapBlockTableEntryFree := by
  obtain ⟨count,left⟩ : ∃ count, ((total : Int)-i).toNat = count+1 := ⟨((total : Int)-i).toNat-1,by omega⟩
  unfold Quiet
  rw [left,markFreeLoop]
  dsimp only
  constructor
  · intro quiet
    have here := quiet i low inside
    split at here
    · exact here.symm.trans (if_pos rfl)
    · rw [markFreeLoop_front _ _ _ (by omega)] at here
      exact here.symm.trans (if_pos rfl)
  · intro free j _ _
    rw [free,if_pos (by decide)]
    unfold writeEntry
    dsimp only
    split
    · next same => rw [same,free]
    · rfl

theorem quiet_below {total : Nat} (low : i < 0) : Quiet entries total i ↔ entries i &&& heapBlockHasNext = 0 ∨ Quiet entries total (i+1) := by
  obtain ⟨count,left,rest⟩ : ∃ count, ((total : Int)-i).toNat = count+1 ∧ ((total : Int)-(i+1)).toNat = count :=
    ⟨((total : Int)-i).toNat-1,by omega,by omega⟩
  unfold Quiet
  rw [left,rest,markFreeLoop]
  dsimp only
  by_cases stops : entries i &&& heapBlockHasNext = 0
  · rw [if_pos stops]
    exact ⟨fun _ => .inl stops,fun _ j high _ => if_neg (by omega)⟩
  · rw [if_neg stops]
    have same (j : Int) (high : 0 ≤ j) : (markFreeLoop count (i+1) (writeEntry entries i heapBlockTableEntryFree)).1 j =
        (markFreeLoop count (i+1) entries).1 j :=
      markFreeLoop_congr count (i+1) (fun l behind => if_neg (by omega)) (by omega)
    constructor
    · intro quiet
      exact .inr (fun j high inside => (same j high).symm.trans (quiet j high inside))
    · rintro (stop | quiet) j high inside
      · exact absurd stop stops
      · exact (same j high).trans (quiet j high inside)

-- `after` is `before` with `blocks` handed out, or given back again.
-- Bytes below the table may have been cleared, where that led nowhere.
structure Handed (before after : Int → UInt8) (total : Nat) (blocks : Int → Prop) : Prop where
  others : ∀ i : Int, 0 ≤ i → i < total → ¬ blocks i → after i = before i
  own : ∀ i, blocks i → before i = heapBlockTableEntryFree ∧ (after i = heapBlockTableEntryFree ∨ after i = Chunk.entry ⟨0,1⟩ 0)
  below : ∀ i : Int, i < 0 → after i = before i ∨ (after i = heapBlockTableEntryFree ∧ Quiet before total i)

-- A taken block of the table of `before` is free.
def Damaged (before after : Int → UInt8) (total : Nat) : Prop :=
  ∃ j : Int, 0 ≤ j ∧ j < total ∧ before j ≠ heapBlockTableEntryFree ∧ after j = heapBlockTableEntryFree

theorem Handed.start (entries : Int → UInt8) (total : Nat) : Handed entries entries total (fun _ => False) :=
  ⟨fun _ _ _ _ => rfl,fun _ none => none.elim,fun _ _ => .inl rfl⟩

theorem Handed.clear (handed : Handed before after total blocks) (quiet : Quiet before total i) (inside : i < (total : Int)) :
    Handed before (writeEntry after i heapBlockTableEntryFree) total blocks := by
  refine ⟨fun j low high other => ?_,fun j owned => ⟨(handed.own j owned).1,?_⟩,fun j low => ?_⟩
  · unfold writeEntry
    split
    · next same =>
      subst same
      exact ((quiet_inside low high).mp quiet).symm
    · exact handed.others j low high other
  · unfold writeEntry
    split
    · exact .inl rfl
    · exact (handed.own j owned).2
  · unfold writeEntry
    split
    · next same => exact .inr ⟨rfl,same ▸ quiet⟩
    · exact handed.below j low

theorem Handed.grant {start : Nat} (handed : Handed before after total blocks) (inside : start < total)
    (free : after start = heapBlockTableEntryFree) (more : ∀ i : Int, next i ↔ i = start ∨ blocks i) :
    Handed before (setChunk ⟨start,1⟩ (Chunk.entry ⟨start,1⟩) after) total next := by
  have entry : Chunk.entry ⟨start,1⟩ start = Chunk.entry ⟨0,1⟩ 0 := by
    unfold Chunk.entry
    dsimp only
    rw [if_pos rfl,if_pos (by omega)]
    rfl
  have here (i : Int) : Chunk.Covers ⟨start,1⟩ i ↔ i = start := by
    unfold Chunk.Covers
    dsimp only
    omega
  have before_free : before start = heapBlockTableEntryFree := by
    by_cases owned : blocks start
    · exact (handed.own start owned).1
    · rw [← handed.others start (by omega) (by omega) owned]
      exact free
  refine ⟨fun i low high other => ?_,fun i owned => ?_,fun i low => ?_⟩
  · rw [setChunk_other (fun covers => other ((more i).mpr (.inl ((here i).mp covers))))]
    exact handed.others i low high (fun old => other ((more i).mpr (.inr old)))
  · by_cases same : i = start
    · rw [same,setChunk_covered ((here _).mpr rfl)]
      exact ⟨before_free,.inr entry⟩
    · rw [setChunk_other (fun covers => same ((here i).mp covers))]
      exact handed.own i (((more i).mp owned).resolve_left same)
  · rw [setChunk_below _ _ _ low]
    exact handed.below i low

theorem Handed.free (handed : Handed before after total blocks) (quiet : Quiet before total i) (left : ((total : Int)-i).toNat = count) :
    Handed before (markFreeLoop count i after).1 total blocks := by
  induction count generalizing i after with
  | zero => exact handed
  | succ count ih =>
    have cleared := handed.clear quiet (by omega)
    rw [markFreeLoop]
    dsimp only
    split
    · exact cleared
    · next more =>
      refine ih cleared ?_ (by omega)
      rcases Int.lt_or_le i 0 with low | high
      · rcases handed.below i low with same | ⟨free,_⟩
        · rw [same] at more
          exact ((quiet_below low).mp quiet).resolve_left more
        · rw [free] at more
          exact absurd (by decide) more
      · have free := (quiet_inside high (by omega)).mp quiet
        by_cases owned : blocks i
        · rcases (handed.own i owned).2 with gone | held
          · rw [gone] at more
            exact absurd (by decide) more
          · rw [held] at more
            exact absurd (by decide) more
        · rw [handed.others i high (by omega) owned,free] at more
          exact absurd (by decide) more

theorem Handed.damage (handed : Handed before after total blocks) (loud : ¬ Quiet before total i)
    (left : ((total : Int)-i).toNat = count) : Damaged before (markFreeLoop count i after).1 total := by
  induction count generalizing i with
  | zero => exact absurd (quiet_behind (by omega)) loud
  | succ count ih =>
    rw [markFreeLoop]
    dsimp only
    rcases Int.lt_or_le i 0 with low | high
    · have more : ¬ (before i &&& heapBlockHasNext = 0 ∨ Quiet before total (i+1)) := fun quiet => loud ((quiet_below low).mpr quiet)
      have same : after i = before i := by
        rcases handed.below i low with same | ⟨_,quiet⟩
        · exact same
        · exact absurd quiet loud
      rw [same,if_neg (fun stops => more (.inl stops))]
      obtain ⟨j,start,inside,taken,cleared⟩ := ih (fun quiet => more (.inr quiet)) (by omega)
      refine ⟨j,start,inside,taken,?_⟩
      exact (markFreeLoop_congr count (i+1) (fun l behind => if_neg (by omega)) (by omega)).trans cleared
    · have taken : before i ≠ heapBlockTableEntryFree := fun free => loud ((quiet_inside high (by omega)).mpr free)
      refine ⟨i,high,by omega,taken,?_⟩
      split
      · exact if_pos rfl
      · dsimp only
        rw [markFreeLoop_front _ _ _ (by omega)]
        exact if_pos rfl

theorem Damaged.free (damaged : Damaged before after total) (count : Nat) (i : Int) :
    Damaged before (markFreeLoop count i after).1 total := by
  obtain ⟨j,low,inside,taken,free⟩ := damaged
  refine ⟨j,low,inside,taken,?_⟩
  rcases markFreeLoop_frees count i after j with same | cleared
  · rw [same]
    exact free
  · exact cleared

theorem freeAll_frees (heap : Heap) (ptrs : List Nat) (free : heap.table.entries i = heapBlockTableEntryFree) :
    (freeAll heap ptrs).table.entries i = heapBlockTableEntryFree := by
  induction ptrs generalizing heap with
  | nil => exact free
  | cons ptr rest ih =>
    apply ih
    rcases markFreeLoop_frees (heap.table.total-heapAddressToBlock heap ptr).toNat (heapAddressToBlock heap ptr)
      heap.table.entries i with same | cleared
    · exact Eq.trans same free
    · exact cleared

structure SamePool (before after : Heap) : Prop where
  saddr : after.saddr = before.saddr
  total : after.table.total = before.table.total

theorem SamePool.block (pool : SamePool before after) (ptr : Nat) : heapAddressToBlock after ptr = heapAddressToBlock before ptr := by
  unfold heapAddressToBlock
  rw [pool.saddr]

theorem SamePool.freed (pool : SamePool before after) (ptr : Nat) : SamePool before (heapFree after ptr).1 := ⟨pool.saddr,pool.total⟩

theorem freeAll_damaged (heap : Heap) (ptrs : List Nat) (damaged : Damaged before heap.table.entries total) :
    Damaged before (freeAll heap ptrs).table.entries total := by
  induction ptrs generalizing heap with
  | nil => exact damaged
  | cons ptr rest ih => exact ih _ (damaged.free _ _)

theorem Handed.sweep {before after : Heap} (pool : SamePool before after)
    (handed : Handed before.table.entries after.table.entries before.table.total blocks) (ptrs : List Nat) :
    ((∀ ptr ∈ ptrs, Harmless before ptr) ∧
      Handed before.table.entries (freeAll after ptrs).table.entries before.table.total blocks) ∨
    (¬ (∀ ptr ∈ ptrs, Harmless before ptr) ∧ Damaged before.table.entries (freeAll after ptrs).table.entries before.table.total) := by
  induction ptrs generalizing after with
  | nil => exact .inl ⟨fun _ member => (List.not_mem_nil member).elim,handed⟩
  | cons ptr rest ih =>
    have loop : (heapFree after ptr).1.table.entries =
        (markFreeLoop ((before.table.total : Int)-heapAddressToBlock before ptr).toNat (heapAddressToBlock before ptr)
        after.table.entries).1 := by
      rw [← pool.block ptr,← pool.total]
      rfl
    by_cases harmless : Harmless before ptr
    · have next : Handed before.table.entries (heapFree after ptr).1.table.entries before.table.total blocks := by
        rw [loop]
        exact handed.free harmless rfl
      rcases ih (pool.freed ptr) next with ⟨all,kept⟩ | ⟨some,damaged⟩
      · exact .inl ⟨List.forall_mem_cons.mpr ⟨harmless,all⟩,kept⟩
      · exact .inr ⟨fun all => some (List.forall_mem_cons.mp all).2,damaged⟩
    · refine .inr ⟨fun all => harmless (List.forall_mem_cons.mp all).1,freeAll_damaged _ rest ?_⟩
      rw [loop]
      exact handed.damage harmless rfl

theorem Handed.given {before after : Heap} {i : Int} (pool : SamePool before after)
    (handed : Handed before.table.entries after.table.entries before.table.total blocks)
    (inside : i < before.table.total) (harmless : ∀ ptr ∈ ptrs, Harmless before ptr) (member : ptr ∈ ptrs)
    (block : heapAddressToBlock before ptr = i) : (freeAll after ptrs).table.entries i = heapBlockTableEntryFree := by
  induction ptrs generalizing after with
  | nil => cases member
  | cons first rest ih =>
    have loop : (heapFree after first).1.table.entries =
        (markFreeLoop ((before.table.total : Int)-heapAddressToBlock before first).toNat (heapAddressToBlock before first)
        after.table.entries).1 := by
      rw [← pool.block first,← pool.total]
      rfl
    rcases List.mem_cons.mp member with rfl | later
    · show (freeAll (heapFree after ptr).1 rest).table.entries i = _
      apply freeAll_frees
      rw [loop,block]
      obtain ⟨count,left⟩ : ∃ count, ((before.table.total : Int)-i).toNat = count+1 := ⟨((before.table.total : Int)-i).toNat-1,by omega⟩
      rw [left,markFreeLoop]
      dsimp only
      split
      · exact if_pos rfl
      · dsimp only
        rw [markFreeLoop_front _ _ _ (by omega)]
        exact if_pos rfl
    · refine ih (pool.freed first) ?_ (fun p among => harmless p (List.mem_cons_of_mem _ among)) later
      rw [loop]
      exact handed.free (harmless first List.mem_cons_self) rfl

-- When every block handed out is among the pointers: the table is the one of
-- before exactly when each pointer would have been harmless then.
theorem freeAll_restores (ptrs : List Nat) {before after : Heap} (pool : SamePool before after)
    (handed : Handed before.table.entries after.table.entries before.table.total blocks)
    (given : ∀ i, blocks i → 0 ≤ i ∧ i < before.table.total ∧ ∃ ptr ∈ ptrs, heapAddressToBlock before ptr = i) :
    SameTable before (freeAll after ptrs) ↔ ∀ ptr ∈ ptrs, Harmless before ptr := by
  rcases handed.sweep pool ptrs with ⟨harmless,kept⟩ | ⟨some,j,low,inside,taken,free⟩
  · refine ⟨fun _ => harmless,fun _ i low inside => ?_⟩
    by_cases owned : blocks i
    · obtain ⟨_,_,ptr,member,block⟩ := given i owned
      rw [handed.given pool inside harmless member block,(handed.own i owned).1]
    · exact kept.others i low inside owned
  · refine ⟨fun same => ?_,fun harmless => absurd harmless some⟩
    rw [same j low inside] at free
    exact absurd free taken

end NutsOS.HeapAlloc
