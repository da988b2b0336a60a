import NutsOS.Heap.Extents
import NutsOS.Kernel.Boot
import NutsOS.Kernel.Growth
import NutsOS.Lib.Frame

-- Every object lies in the chunk it starts, however the kernel's code goes on; and
-- the rules by which a relation is seen to hold across all of that code.
namespace NutsOS
open HeapAlloc Prog

-- sizeof the C type, or of the array.
def Obj.size : Obj → Nat
  | .chars bytes => bytes.length
  | .pathRoot _ => 8
  | .pathPart _ => 8
  | .fatItem _ => 8
  | .fatDirectory _ => 16
  | .directoryItems items => 32*items.length
  | .fatFileDescriptor _ => 8
  | .fileDescriptor _ => 20
  | .pagingChunk _ => 12
  | .words array => 4*array.count
  | .task _ => 64
  | .process _ => 4384

@[simp] theorem chars_size (bytes : List UInt8) : (Obj.chars bytes).size = bytes.length := rfl
@[simp] theorem directoryItems_size (items : List FatDirectoryItem) : (Obj.directoryItems items).size = 32*items.length := rfl
@[simp] theorem words_size (array : Words) : (Obj.words array).size = 4*array.count := rfl

def Obj.blocks (obj : Obj) : Nat := (obj.size+4095)/4096

theorem blocks_single {obj : Obj} (small : obj.size ≤ 4096) : obj.blocks ≤ 1 := by
  unfold Obj.blocks
  omega

theorem blocks_less {one two : Obj} (less : one.size ≤ two.size) : one.blocks ≤ two.blocks := by
  unfold Obj.blocks
  omega

theorem blocks_cover {obj : Obj} (less : obj.blocks ≤ n) : obj.size ≤ n*4096 := by
  unfold Obj.blocks at less
  omega

theorem blocks_fit {obj : Obj} (fits : obj.size ≤ size) (whole : ¬ heapAlignValueToUpper size < size) : obj.blocks ≤ blocksFor size := by
  unfold Obj.blocks blocksFor heapAlignValueToUpper nutsosHeapBlockSize Word32.toUint32 at *
  split at whole
  · rw [if_pos ‹_›]
    omega
  · rw [if_neg ‹_›]
    omega

-- The chunk at an object, where the table still marks it as one, is as long as the
-- object.
structure Backed (k : Kernel) : Prop where
  pool : Pool k.heap
  runs : ∀ start obj, k.objs (k.heap.saddr+start*4096) = some obj →
    RunsOn k.heap.table.entries k.heap.table.total start obj.blocks

theorem Backed.inside {k : Kernel} (backed : Backed k) (valid : HeapHolds k chunks) (held : k.objs ptr = some obj) :
    ∃ c ∈ chunks, ptr = k.heap.saddr+c.start*4096 ∧ (obj.blocks ≤ c.len ∨ k.heap.table.total < c.start+c.len) := by
  obtain ⟨c,member,rfl⟩ := valid.owned ptr (by simp [held])
  exact ⟨c,member,rfl,valid.tiled.runs member (backed.runs c.start obj held)⟩

theorem Backed.congr {k l : Kernel} (backed : Backed k) (heap : l.heap = k.heap) (objs : l.objs = k.objs) : Backed l := by
  refine ⟨heap ▸ backed.pool,fun start obj held => ?_⟩
  rw [heap,objs] at held
  rw [heap]
  exact backed.runs start obj held

def Extent (ptr : Nat) (obj : Obj) (byte : Nat) : Prop := ptr ≤ byte ∧ byte < ptr+obj.blocks*4096

theorem boot_backed (entries : Int → UInt8) (disk : Fat16.Disk) : Backed (bootKernel entries disk) := by
  refine ⟨?_,fun _ _ held => by cases held⟩
  rw [boot_heap]
  exact ⟨by norm_num,by norm_num,by norm_num⟩

theorem Backed.taken {k : Kernel} (backed : Backed k) (valid : HeapValid k) (held : k.objs ptr = some obj) (inPool : start < k.heap.table.total)
    (here : Extent ptr obj (k.heap.saddr+start*4096)) : ¬ IsFree k.heap.table.entries start := by
  obtain ⟨chunks,holds⟩ := valid
  obtain ⟨c,member,rfl,long⟩ := backed.inside holds held
  refine holds.tiled.covered_taken member ?_ inPool
  unfold Extent at here
  unfold Chunk.Covers
  omega

theorem Backed.disjoint {k : Kernel} (backed : Backed k) (valid : HeapValid k) (one : k.objs a = some first) (two : k.objs b = some second)
    (different : a ≠ b) (here : Extent a first byte) : ¬ Extent b second byte := by
  intro there
  obtain ⟨chunks,holds⟩ := valid
  obtain ⟨c,memberC,rfl,longC⟩ := backed.inside holds one
  obtain ⟨d,memberD,rfl,longD⟩ := backed.inside holds two
  have startC := holds.tiled.starts c memberC
  have startD := holds.tiled.starts d memberD
  have apart : c.Apart d := holds.tiled.apart c memberC d memberD (fun same => different (by rw [same]))
  unfold Chunk.Apart at apart
  unfold Extent at here there
  omega

theorem Backed.place {k : Kernel} (backed : Backed k)
    (fits : ∀ start, ptr = k.heap.saddr+start*4096 → RunsOn k.heap.table.entries k.heap.table.total start obj.blocks) :
    Backed (k.place ptr obj) := by
  refine ⟨backed.pool,fun start found held => ?_⟩
  by_cases here : k.heap.saddr+start*4096 = ptr
  · have same : (k.place ptr obj).objs ptr = some found := here ▸ held
    rw [Kernel.place_same] at same
    cases same
    exact fits start here.symm
  · exact backed.runs start found ((Kernel.place_other here).symm.trans held)

theorem Backed.granted {k : Kernel} (backed : Backed k) (start : Nat) (fits : obj.blocks ≤ n) :
    Backed ((k.withHeap (k.heap.granted ⟨start,n⟩).2.1).place (k.heap.saddr+start*4096) obj) := by
  refine ⟨backed.pool.grown _,fun start' found held => ?_⟩
  change (if k.heap.saddr+start'*4096 = k.heap.saddr+start*4096 then some obj else k.objs (k.heap.saddr+start'*4096)) = some found at held
  by_cases same : start' = start
  · rw [same,if_pos rfl] at held
    cases held
    rw [same]
    exact (runsOn_granted _ _ _ _).shorter fits
  · rw [if_neg (by omega)] at held
    exact (backed.runs start' found held).granted (fun equal => same equal.symm)

theorem kzalloc_backed {k : Kernel} (backed : Backed k) (fits : zero.size ≤ size) (ran : kzalloc size zero k = .ok (ptr,after)) : Backed after := by
  unfold kzalloc at ran
  by_cases blocks : 0 < blocksFor size
  · rcases heapMalloc_cases size k.heap blocks with refused | ⟨start,inside,_,called⟩
    · rw [bind_run (kmalloc_run refused),if_pos rfl] at ran
      cases ran
      exact backed
    · have low := backed.pool.low
      have address := backed.pool.granted inside (blocksFor size)
      have whole : heapMalloc k.heap size = (k.heap.saddr+start*4096,(k.heap.granted ⟨start,blocksFor size⟩).2) := by
        rw [← address]
        exact called
      have nonnull : k.heap.saddr+start*4096 ≠ 0 := by omega
      have positive : size ≠ 0 := Nat.one_le_iff_ne_zero.mp (blocksFor_positive blocks)
      rw [bind_run (kmalloc_run whole),if_neg nonnull] at ran
      by_cases short : heapAlignValueToUpper size < size
      · rw [if_pos short] at ran
        cases ran
      · rw [if_neg short,if_neg positive] at ran
        cases ran
        exact backed.granted start (blocks_fit fits short)
  · have unmarked : ∃ address, heapMalloc k.heap size = (address,k.heap,[]) := by
      rcases heapMalloc_none k.heap (by omega : blocksFor size = 0) with refused | ⟨_,_,_,called⟩
      · exact ⟨_,refused⟩
      · exact ⟨_,called⟩
    obtain ⟨address,called⟩ := unmarked
    rw [bind_run (kmalloc_run called)] at ran
    by_cases null : address = 0
    · rw [if_pos null] at ran
      cases ran
      exact backed
    · rw [if_neg null] at ran
      by_cases short : heapAlignValueToUpper size < size
      · rw [if_pos short] at ran
        cases ran
      · rw [if_neg short,if_pos (blocksFor_zero (by omega) short)] at ran
        cases ran
        exact backed

theorem kfree_backed {k : Kernel} (backed : Backed k) (ran : kfree ptr k = .ok ((),after)) : Backed after := by
  cases ran
  refine ⟨⟨backed.pool.aligned,backed.pool.low,backed.pool.high⟩,fun start obj held => ?_⟩
  change (if k.heap.saddr+start*4096 = ptr then none else k.objs (k.heap.saddr+start*4096)) = some obj at held
  by_cases here : k.heap.saddr+start*4096 = ptr
  · rw [if_pos here] at held
    cases held
  · rw [if_neg here] at held
    exact (backed.runs start obj held).cleared (fun i => markFreeLoop_frees _ _ _ i)

-- A relation that the allocator, a store that keeps the sizes and the disk keep.
structure Discipline (R : Kernel → Kernel → Prop) : Prop where
  refl : ∀ k, R k k
  trans : ∀ {k l m}, R k l → R l m → R k m
  kzalloc : ∀ size zero, zero.size ≤ size → Within R (kzalloc size zero)
  kfree : ∀ ptr, Within R (kfree ptr)
  small : ∀ k ptr obj, obj.size ≤ 4096 → R k (k.place ptr obj)
  same : ∀ k ptr old new, k.objs ptr = some old → new.size ≤ old.size → R k (k.place ptr new)
  disk : ∀ k disk, R k {k with disk := disk}

-- And that the static variables of the tasks keep.
structure TaskDiscipline (R : Kernel → Kernel → Prop) : Prop extends Discipline R where
  tasks : ∀ k head tail current, R k {k with taskHead := head, taskTail := tail, currentTask := current}

def KeepsBacked (k after : Kernel) : Prop := Backed k → Backed after

theorem backed_discipline : TaskDiscipline KeepsBacked where
  refl := fun _ backed => backed
  trans := fun one two backed => two (one backed)
  kzalloc := fun _ _ fits _ _ _ ran backed => kzalloc_backed backed fits ran
  kfree := fun _ _ _ _ ran backed => kfree_backed backed ran
  small := fun _ _ _ small backed => backed.place (fun _ _ => runsOn_single _ _ _ (blocks_single small))
  same := fun _ _ old _ held less backed => backed.place (fun start here => (backed.runs start old (here ▸ held)).shorter (blocks_less less))
  disk := fun _ _ backed => backed.congr rfl rfl
  tasks := fun _ _ _ _ backed => backed.congr rfl rfl

theorem view_discipline (view : Kernel → α) (keeps : ∀ k heap objs disk, view {k with heap := heap, objs := objs, disk := disk} = view k) :
    Discipline (fun k after => view after = view k) where
  refl := fun _ => rfl
  trans := fun one two => two.trans one
  kzalloc := by
    intro size zero _ k ptr after ran
    obtain ⟨granted,one,allocated,ran⟩ := bind_ok.mp ran
    have first : view one = view k := by
      cases allocated
      exact keeps k _ k.objs k.disk
    by_cases null : granted = 0
    · rw [if_pos null] at ran
      cases ran
      exact first
    rw [if_neg null] at ran
    by_cases short : heapAlignValueToUpper size < size
    · rw [if_pos short] at ran
      cases ran
    rw [if_neg short] at ran
    by_cases empty : size = 0
    · rw [if_pos empty] at ran
      cases ran
      exact first
    · rw [if_neg empty] at ran
      cases ran
      exact (keeps one one.heap _ one.disk).trans first
  kfree := by
    intro ptr k _ after ran
    cases ran
    exact keeps k _ _ k.disk
  small := fun k _ _ _ => keeps k k.heap _ k.disk
  same := fun k _ _ _ _ _ => keeps k k.heap _ k.disk
  disk := fun k disk => keeps k k.heap k.objs disk

theorem static_discipline (view : Kernel → α) (keeps : ∀ k heap objs disk head tail current, view {k with
    heap := heap, objs := objs, disk := disk, taskHead := head, taskTail := tail, currentTask := current} = view k) :
    TaskDiscipline (fun k after => view after = view k) where
  toDiscipline := view_discipline view (fun k heap objs disk => keeps k heap objs disk k.taskHead k.taskTail k.currentTask)
  tasks := fun k => keeps k k.heap k.objs k.disk

namespace Discipline

variable {R : Kernel → Kernel → Prop} (rules : Discipline R)
include rules

theorem pure (a : α) : Within R (Pure.pure a : KernelProg α) := within_pure rules.refl a

theorem bind {x : KernelProg α} {f : α → KernelProg β} (first : Within R x) (rest : ∀ a, Within R (f a)) : Within R (x >>= f) :=
  within_bind (R := R) (fun one two => rules.trans one two) first rest

theorem get {f : Kernel → KernelProg α} (rest : ∀ k, Within R (f k)) : Within R (Prog.get >>= f) :=
  rules.bind (within_get rules.refl) rest

theorem when {c : Prop} [Decidable c] {x : KernelProg Unit} (kept : Within R x) : Within R (Prog.when c x) :=
  within_ite kept (rules.pure _)

theorem loadAs (view : Obj → Option α) (ptr : Nat) : Within R (loadAs view ptr) := loadAs_within rules.refl view ptr

theorem store (ptr : Nat) (obj : Obj) (small : Nat.ble obj.size 4096 = true) : Within R (store ptr obj) :=
  within_modify (fun k => rules.small k ptr obj (Nat.le_of_ble_eq_true small))

theorem onDisk (x : Fat16.DiskProg α) : Within R (onDisk x) := by
  intro k value after ran
  obtain ⟨disk,_,rfl⟩ := focus_ok.mp ran
  exact rules.disk k disk

theorem update {view : Obj → Option α} {make : α → Obj} (typed : ∀ obj value, view obj = some value → obj = make value)
    {f : α → KernelProg Unit} (stores : ∀ value k after, f value k = .ok ((),after) → ∃ new, after = k.place ptr new ∧ new.size ≤ (make value).size) :
    Within R (NutsOS.loadAs view ptr >>= f) := by
  intro k _ after ran
  obtain ⟨value,middle,loaded,stored⟩ := bind_ok.mp ran
  obtain ⟨rfl,held⟩ := load_held typed loaded
  obtain ⟨new,rfl,less⟩ := stores value k after stored
  exact rules.same k ptr _ new held less

end Discipline

end NutsOS
