import NutsOS.Fat16.Frame
import NutsOS.Kernel.State

-- Calls that allocate, read the disk and give back only what they allocated.
namespace NutsOS
open Word32 HeapAlloc Fat16

-- The objects of `before` are untouched, and no static variable but the disk's
-- streams has changed.
structure Grown (before after : Kernel) : Prop where
  valid : HeapValid after
  rest : after = {before with heap := after.heap, objs := after.objs, disk := after.disk}
  volume : SameVolume before.disk after.disk
  kept : ∀ ptr, (before.objs ptr).isSome → after.objs ptr = before.objs ptr

theorem Grown.refl (valid : HeapValid k) : Grown k k := ⟨valid,rfl,.refl _,fun _ _ => rfl⟩

theorem Grown.trans (one : Grown before middle) (two : Grown middle after) : Grown before after := by
  refine ⟨two.valid,by rw [two.rest,one.rest],one.volume.trans two.volume,?_⟩
  intro ptr live
  have kept := one.kept ptr live
  rw [two.kept ptr (by rw [kept]; exact live)]
  exact kept

theorem Grown.held (grown : Grown before after) (held : before.objs ptr = some obj) : after.objs ptr = some obj := by
  rw [grown.kept ptr (by simp [held])]
  exact held

theorem Grown.fresh (grown : Grown before after) (empty : after.objs ptr = none) : before.objs ptr = none := by
  cases held : before.objs ptr with
  | none => rfl
  | some obj =>
    rw [grown.held held] at empty
    cases empty

theorem Grown.place (grown : Grown before after) (fresh : before.objs ptr = none) (held : (after.objs ptr).isSome)
    (obj : Obj) : Grown before (after.place ptr obj) := by
  refine ⟨grown.valid.place held obj,?_,grown.volume,?_⟩
  · rw [grown.rest]
    rfl
  · intro a live
    have different : a ≠ ptr := by
      intro same
      rw [same,fresh] at live
      cases live
    rw [Kernel.place_other different]
    exact grown.kept a live

theorem Grown.frees (grown : Grown before middle) (fresh : before.objs ptr = none) (freeable : Freeable middle ptr)
    (ran : kfree ptr middle = .ok ((),after)) : Grown before after ∧ Frees middle after (· = ptr) := by
  obtain ⟨freed,ran',valid,frees⟩ := kfree_run grown.valid freeable
  rw [ran'] at ran
  cases ran
  have same : after.disk = middle.disk := by rw [frees.rest]
  refine ⟨⟨valid,by rw [frees.rest,grown.rest],by rw [same]; exact grown.volume,?_⟩,frees⟩
  intro a live
  have different : a ≠ ptr := by
    intro equal
    rw [equal,fresh] at live
    cases live
  rw [frees.kept a different]
  exact grown.kept a live

theorem HeapValid.no_object {k : Kernel} (valid : HeapValid k) (block : FreeBlock k ptr) : k.objs ptr = none := by
  obtain ⟨chunks,holds⟩ := valid
  obtain ⟨start,inside,rfl,free⟩ := block
  cases held : k.objs (k.heap.saddr+start*4096) with
  | none => rfl
  | some obj =>
    obtain ⟨c,member,equal⟩ := holds.owned _ (by simp [held] : (k.objs (k.heap.saddr+start*4096)).isSome)
    have same : start = c.start := by omega
    have length := holds.tiled.positive c member
    have covers : Chunk.Covers c (start : Nat) := by
      unfold Chunk.Covers
      omega
    refine absurd ?_ (holds.tiled.covered_taken member covers inside)
    unfold IsFree
    rw [free]
    decide

-- Giving memory back keeps every free block free.
def KeepsFree (k after : Kernel) : Prop := ∀ ptr, FreeBlock k ptr → FreeBlock after ptr

theorem KeepsFree.refl (k : Kernel) : KeepsFree k k := fun _ block => block

theorem KeepsFree.trans (one : KeepsFree k middle) (two : KeepsFree middle after) : KeepsFree k after :=
  fun ptr block => two ptr (one ptr block)

theorem kfree_keeps_free (ptr : Nat) : Prog.Within KeepsFree (kfree ptr) := by
  intro k result after ran a ⟨start,inside,equal,free⟩
  cases ran
  refine ⟨start,inside,equal,?_⟩
  rcases markFreeLoop_frees (k.heap.table.total-heapAddressToBlock k.heap ptr).toNat (heapAddressToBlock k.heap ptr)
    k.heap.table.entries start with same | cleared
  · exact same.trans free
  · exact cleared

theorem loadAs_within {R : Kernel → Kernel → Prop} (refl : ∀ k, R k k) (view : Obj → Option α) (ptr : Nat) :
    Prog.Within R (loadAs view ptr) := by
  intro k value after ran
  obtain ⟨_,rfl⟩ := loadAs_ok.mp ran
  exact refl _

theorem Zalloc.grown (valid : HeapValid k) (allocated : Zalloc k zero ptr after) : Grown k after := by
  have grows := allocated.grows
  have disk : after.disk = k.disk := by rw [grows.rest]
  refine ⟨?_,by rw [grows.rest],by rw [disk]; exact .refl _,grows.objs⟩
  cases allocated with
  | null => exact valid
  | fresh _ _ _ _ kept => exact kept

theorem Zalloc.fresh_object (allocated : Zalloc k zero ptr after) (some : ptr ≠ 0) :
    k.objs ptr = none ∧ after.objs ptr = Option.some zero := by
  cases allocated with
  | null => exact absurd rfl some
  | fresh _ _ empty => exact ⟨empty,Kernel.place_same _ _ _⟩

-- What a kzalloc that returned may have done, whatever its size.
inductive Kzalloc (k : Kernel) (size : Nat) (zero : Obj) (ptr : Nat) (after : Kernel) : Prop where
  | null (none : ptr = 0) (same : after = k)
  | empty (none : size = 0) (nonnull : ptr ≠ 0) (same : after = k) (block : FreeBlock k ptr)
  | fresh (positive : 1 ≤ size) (nonnull : ptr ≠ 0) (fresh : k.objs ptr = none) (held : after.objs ptr = some zero)

theorem HeapHolds.free_block {k : Kernel} (valid : HeapHolds k chunks) (inside : start < k.heap.table.total)
    (free : IsFree k.heap.table.entries start) : FreeBlock k (k.heap.saddr+start*4096) := by
  refine ⟨start,inside,rfl,valid.tiled.free start (by omega) (by omega) ?_⟩
  intro c member covers
  exact valid.tiled.covered_taken member covers inside free

theorem kzalloc_ok {k : Kernel} (valid : HeapValid k) (ran : kzalloc size zero k = .ok (ptr,after)) :
    Grown k after ∧ Kzalloc k size zero ptr after := by
  have refused (none : heapMalloc k.heap size = (0,k.heap,[])) : Grown k after ∧ Kzalloc k size zero ptr after := by
    unfold kzalloc at ran
    rw [Prog.bind_run (kmalloc_run none)] at ran
    cases ran
    exact ⟨.refl valid,.null rfl rfl⟩
  have overrun {address heap written} (some : address ≠ 0) (called : heapMalloc k.heap size = (address,heap,written))
      (short : heapAlignValueToUpper size < size) : False := by
    unfold kzalloc at ran
    rw [Prog.bind_run (kmalloc_run called),if_neg some,if_pos short] at ran
    cases ran
  by_cases blocks : 0 < blocksFor size
  · rcases heapMalloc_cases _ k.heap blocks with none | ⟨start,inside,free,called⟩
    · exact refused none
    · have address := valid.pool.address inside
      have low := valid.pool.low
      by_cases short : heapAlignValueToUpper size < size
      · exact False.elim (overrun (by dsimp only; rw [address]; omega) called short)
      · obtain ⟨ran',allocated⟩ := kzalloc_granted _ valid zero blocks short inside free called
        rw [ran'] at ran
        cases ran
        have some : k.heap.saddr+start*4096 ≠ 0 := by omega
        obtain ⟨empty,held⟩ := allocated.fresh_object some
        exact ⟨allocated.grown valid,.fresh (blocksFor_positive blocks) some empty held⟩
  · have zero : blocksFor size = 0 := by omega
    rcases heapMalloc_none k.heap zero with none | ⟨start,inside,free,called⟩
    · exact refused none
    · have address := valid.pool.address inside
      have low := valid.pool.low
      have some : heapBlockToAddress k.heap (start : Nat) ≠ 0 := by rw [address]; omega
      by_cases short : heapAlignValueToUpper size < size
      · exact False.elim (overrun some called short)
      · have none := blocksFor_zero zero short
        unfold kzalloc at ran
        rw [Prog.bind_run (kmalloc_run called),if_neg some,if_neg short,if_pos none] at ran
        cases ran
        obtain ⟨chunks,holds⟩ := id valid
        refine ⟨.refl valid,.empty none some rfl ?_⟩
        rw [address]
        exact holds.free_block inside free

theorem kzalloc_fresh {k : Kernel} (valid : HeapValid k) (positive : 1 ≤ size)
    (ran : kzalloc size zero k = .ok (ptr,after)) :
    Grown k after ∧ ((ptr = 0 ∧ after = k) ∨ (ptr ≠ 0 ∧ k.objs ptr = none ∧ after.objs ptr = some zero)) := by
  obtain ⟨grown,result⟩ := kzalloc_ok valid ran
  refine ⟨grown,?_⟩
  cases result with
  | null none same => exact .inl ⟨none,same⟩
  | empty none => exact absurd (none ▸ positive) (by decide)
  | fresh _ nonnull fresh held => exact .inr ⟨nonnull,fresh,held⟩

theorem kzalloc_exhausted {k : Kernel} (positive : 0 < blocksFor size) (none : Exhausted k.heap (blocksFor size)) (zero : Obj) :
    kzalloc size zero k = .ok (0,k) := by
  rcases heapMalloc_exact size k.heap positive with ⟨_,refused⟩ | ⟨some,_⟩
  · unfold kzalloc
    rw [Prog.bind_run (kmalloc_run refused)]
    rfl
  · exact absurd none some

theorem kzalloc_unexhausted {k : Kernel} (valid : HeapValid k) (positive : 0 < blocksFor size)
    (whole : ¬ heapAlignValueToUpper size < size) (some : ¬ Exhausted k.heap (blocksFor size)) (zero : Obj) :
    ∃ ptr after, kzalloc size zero k = .ok (ptr,after) ∧ ptr ≠ 0 ∧ Grown k after ∧ k.objs ptr = none ∧ after.objs ptr = .some zero := by
  rcases heapMalloc_exact size k.heap positive with ⟨none,_⟩ | ⟨_,start,inside,free,called⟩
  · exact absurd none some
  · obtain ⟨ran,allocated⟩ := kzalloc_granted size valid zero positive whole inside free called
    have low := valid.pool.low
    have nonnull : k.heap.saddr+start*4096 ≠ 0 := by omega
    exact ⟨_,_,ran,nonnull,allocated.grown valid,allocated.fresh_object nonnull⟩

structure Served (k : Kernel) (zero : Obj) (rest : Nat) (ptr : Nat) (after : Kernel) : Prop where
  grown : Grown k after
  nonnull : ptr ≠ 0
  fresh : k.objs ptr = none
  held : after.objs ptr = some zero
  room : Room after.heap rest

theorem kzalloc_served (size rest : Nat) {k : Kernel} (valid : HeapValid k) (zero : Obj) (positive : 1 ≤ size) (bounded : size ≤ 4294963200)
    (room : Room k.heap (blocksFor size+rest)) : ∃ ptr after, kzalloc size zero k = .ok (ptr,after) ∧ Served k zero rest ptr after := by
  obtain ⟨ptr,after,ran,allocated,serves⟩ := kzalloc_run _ valid zero positive bounded
  obtain ⟨nonnull,_,left⟩ := serves rest room
  obtain ⟨fresh,held⟩ := allocated.fresh_object nonnull
  exact ⟨ptr,after,ran,allocated.grown valid,nonnull,fresh,held,left⟩

theorem kzalloc_some (size : Nat) {k : Kernel} (valid : HeapValid k) (zero : Obj) (bounded : size ≤ 4294963200)
    (room : Room k.heap (blocksFor size+1)) :
    ∃ ptr after, kzalloc size zero k = .ok (ptr,after) ∧ ptr ≠ 0 ∧ (size ≠ 0 → k.objs ptr = none ∧ after.objs ptr = some zero) := by
  by_cases empty : size = 0
  · subst empty
    obtain ⟨start,inside,answered⟩ := Room.malloc_none (room.less (Nat.le_add_left 1 _)) (rfl : blocksFor 0 = 0)
    have address := valid.pool.address inside
    have low := valid.pool.low
    have nonnull : heapBlockToAddress k.heap (start : Nat) ≠ 0 := by rw [address]; omega
    have ran : kzalloc 0 zero k = .ok (heapBlockToAddress k.heap (start : Nat),k.withHeap k.heap) := by
      unfold kzalloc
      rw [Prog.bind_run (kmalloc_run answered),if_neg nonnull,if_neg (by decide),if_pos rfl]
      rfl
    exact ⟨_,_,ran,nonnull,fun positive => absurd rfl positive⟩
  · obtain ⟨ptr,after,ran,served⟩ := kzalloc_served size 1 valid zero (by omega) bounded room
    exact ⟨ptr,after,ran,served.nonnull,fun _ => ⟨served.fresh,served.held⟩⟩

theorem kfree_room {k : Kernel} (room : Room k.heap n) (ran : kfree ptr k = .ok ((),after)) : Room after.heap n := by
  cases ran
  exact room.free ptr

-- A measure of free blocks under which a request for a single block is served.
structure Stock where
  has : Heap → Nat → Prop
  serves : ∀ {k after : Kernel} {size ptr : Nat} {zero : Obj} {rest : Nat}, HeapValid k → 1 ≤ size → size ≤ 4096 →
    has k.heap (1+rest) → kzalloc size zero k = .ok (ptr,after) → ptr ≠ 0 ∧ has after.heap rest
  frees : ∀ {heap : Heap} {n : Nat} (ptr : Nat), has heap n → has (heapFree heap ptr).1 n

def roomStock : Stock where
  has := Room
  serves := by
    intro k after size ptr zero rest valid positive small room ran
    obtain ⟨ptr',after',ran',_,serves⟩ := kzalloc_run _ valid zero positive (by omega)
    rw [ran'] at ran
    cases ran
    obtain ⟨nonnull,_,left⟩ := serves rest (by rw [blocksFor_single positive small]; exact room)
    exact ⟨nonnull,left⟩
  frees := fun ptr room => room.free ptr

def spareStock : Stock where
  has := Spare
  serves := by
    intro k after size ptr zero rest valid positive small spare ran
    have single := blocksFor_single positive small
    obtain ⟨start,inside,free,called,left⟩ := spare.malloc single
    obtain ⟨ran',_⟩ := kzalloc_granted _ valid zero (by omega) (align_bounds (by omega)) inside free called
    rw [ran'] at ran
    cases ran
    have low := valid.pool.low
    exact ⟨by omega,left⟩
  frees := fun ptr spare => spare.free ptr

theorem kzalloc_stocked (size : Nat) {k : Kernel} (stock : Stock) (valid : HeapValid k) (zero : Obj) (positive : 1 ≤ size)
    (small : size ≤ 4096) (left : stock.has k.heap (1+rest)) :
    ∃ ptr after, kzalloc size zero k = .ok (ptr,after) ∧ ptr ≠ 0 ∧ Grown k after ∧ after.objs ptr = some zero ∧
      stock.has after.heap rest := by
  obtain ⟨ptr,after,ran,allocated,_⟩ := kzalloc_run size valid zero positive (by omega)
  obtain ⟨nonnull,served⟩ := stock.serves valid positive small left ran
  exact ⟨ptr,after,ran,nonnull,allocated.grown valid,(allocated.fresh_object nonnull).2,served⟩

theorem kfree_stocked {k : Kernel} (stock : Stock) (left : stock.has k.heap n) (ran : kfree ptr k = .ok ((),after)) :
    stock.has after.heap n := by
  cases ran
  exact stock.frees ptr left

theorem onDisk_grown {k : Kernel} {x : DiskProg α} (reads : Reads x) (valid : HeapValid k)
    (ran : onDisk x k = .ok (a,after)) : Grown k after ∧ after.heap = k.heap ∧ after.objs = k.objs := by
  obtain ⟨disk,read,rfl⟩ := Prog.focus_ok.mp ran
  exact ⟨⟨valid.congr rfl (fun _ live => live),rfl,reads _ _ _ read,fun _ _ => rfl⟩,rfl,rfl⟩

end NutsOS
