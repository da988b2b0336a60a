import NutsOS.Fat16.Cluster
import NutsOS.Heap.Pool

-- The kernel's memory as its C code sees it: the heap of heap.c, the objects
-- that live in its chunks, and the static variables.
namespace NutsOS
open HeapAlloc Fat16 Word32

structure PathRoot where
  driveNo : Int
  first : Nat

structure PathPart where
  part : Nat
  next : Nat

inductive FileMode where
  | read
  | write
  | append
  | invalid
  deriving DecidableEq

inductive FatItemType where
  | directory
  | file
  deriving DecidableEq

structure FatDirectoryItem where
  filename : List UInt8
  ext : List UInt8
  attributeBits : UInt8
  low16BitsFirstCluster : Nat
  filesize : Nat
  deriving DecidableEq

-- `target` is the union: a directory entry or a directory, as `type` says.
structure FatItem where
  target : Nat
  type : FatItemType

structure FatFileDescriptor where
  item : Nat
  pos : Nat

inductive DiskId where
  | disk
  deriving DecidableEq

structure FileDescriptor where
  index : Int
  filesystem : Option Filesystem
  fprivate : Nat
  mode : FileMode
  disk : Option DiskId

structure Registers where
  edi : Nat
  esi : Nat
  ebp : Nat
  ebx : Nat
  edx : Nat
  ecx : Nat
  eax : Nat
  ip : Nat
  cs : Nat
  flags : Nat
  esp : Nat
  ss : Nat
  deriving DecidableEq

structure Task where
  pageDirectory : Nat
  registers : Registers
  process : Nat
  next : Nat
  prev : Nat
  deriving DecidableEq

structure Process where
  id : Nat
  filename : List UInt8
  task : Nat
  ptr : Nat
  ptrVirt : Nat
  stack : Nat
  stackVirt : Nat
  stackSize : Nat
  size : Nat

structure PagingChunk where
  directoryEntry : Nat
  dirCount : Int
  entriesCount : Int

structure Words where
  count : Nat
  word : Nat → Nat

inductive Obj where
  | chars (bytes : List UInt8)
  | pathRoot (root : PathRoot)
  | pathPart (part : PathPart)
  | fatItem (item : FatItem)
  | fatDirectory (directory : FatDirectory)
  | directoryItems (items : List FatDirectoryItem)
  | fatFileDescriptor (descriptor : FatFileDescriptor)
  | fileDescriptor (descriptor : FileDescriptor)
  | pagingChunk (chunk : PagingChunk)
  | words (words : Words)
  | task (task : Task)
  | process (process : Process)

structure Kernel where
  heap : Heap
  objs : Nat → Option Obj
  disk : Disk
  fileDescriptors : Nat → Nat
  errno : Int
  processes : Nat → Nat
  currentTask : Nat
  taskHead : Nat
  taskTail : Nat
  currentDirectory : Nat

abbrev KernelProg := Prog Fault Kernel

namespace Kernel

def withHeap (k : Kernel) (heap : Heap) : Kernel := {k with heap := heap}

def place (k : Kernel) (ptr : Nat) (obj : Obj) : Kernel :=
  {k with objs := fun a => if a = ptr then some obj else k.objs a}

def drop (k : Kernel) (ptr : Nat) : Kernel :=
  {k with objs := fun a => if a = ptr then none else k.objs a}

@[simp] theorem place_same (k : Kernel) (ptr : Nat) (obj : Obj) : (k.place ptr obj).objs ptr = some obj := if_pos rfl
@[simp] theorem drop_same (k : Kernel) (ptr : Nat) : (k.drop ptr).objs ptr = none := if_pos rfl

theorem place_other {k : Kernel} {obj : Obj} (different : a ≠ ptr) : (k.place ptr obj).objs a = k.objs a :=
  if_neg different

theorem drop_other {k : Kernel} (different : a ≠ ptr) : (k.drop ptr).objs a = k.objs a := if_neg different

@[simp] theorem place_place (k : Kernel) (ptr : Nat) (one two : Obj) :
    (k.place ptr one).place ptr two = k.place ptr two := by
  have objs : ((k.place ptr one).place ptr two).objs = (k.place ptr two).objs := by
    funext a
    by_cases same : a = ptr <;> simp [place,same]
  exact congrArg (fun f => {k with objs := f}) objs

@[simp] theorem withHeap_objs (k : Kernel) (heap : Heap) : (k.withHeap heap).objs = k.objs := rfl

end Kernel

-- A pointer that carries an error code.
def errToPtr (e : Int) : Nat := toUint32 e

-- A dereference that expects an object of one type.
def loadAs (view : Obj → Option α) (ptr : Nat) : KernelProg α := do
  match (← Prog.get).objs ptr >>= view with
  | none => Prog.fault (Fault.deref ptr)
  | some value => pure value

def store (ptr : Nat) (obj : Obj) : KernelProg Unit := Prog.modify (fun k => k.place ptr obj)

def onDisk (x : DiskProg α) : KernelProg α :=
  Prog.focus Kernel.disk (fun k disk => {k with disk := disk}) x

def kmalloc (size : Nat) : KernelProg Nat := do
  let (ptr,heap,_) := heapMalloc (← Prog.get).heap size
  Prog.modify (fun k => k.withHeap heap)
  pure ptr

-- The object that the zeroed bytes are read as; a block of no bytes holds none.
-- A size within one block of 2^32 is rounded to no block at all, and memset
-- then runs over the whole of memory.
def kzalloc (size : Nat) (zero : Obj) : KernelProg Nat := do
  let ptr ← kmalloc size
  if ptr = 0 then return 0
  if heapAlignValueToUpper size < size then Prog.fault (.outOfBounds size) else
  if size = 0 then return ptr
  store ptr zero
  return ptr

def kfree (ptr : Nat) : KernelProg Unit := do
  let (heap,_) := heapFree (← Prog.get).heap ptr
  Prog.modify (fun k => (k.withHeap heap).drop ptr)

theorem onDisk_run {k : Kernel} {x : DiskProg α} (ran : x k.disk = .ok (a,disk)) :
    onDisk x k = .ok (a,{k with disk := disk}) := Prog.focus_run ran

theorem onDisk_fault {k : Kernel} {x : DiskProg α} (failed : x k.disk = .error e) : onDisk x k = .error e := Prog.focus_fault failed

theorem kzalloc_disk {k : Kernel} (ran : kzalloc size zero k = .ok (ptr,after)) : after.disk = k.disk := by
  obtain ⟨ptr,one,allocated,ran⟩ := Prog.bind_ok.mp ran
  have first : one.disk = k.disk := by
    cases allocated
    rfl
  split at ran
  · cases ran
    exact first
  · split at ran
    · cases ran
    · split at ran
      · cases ran
        exact first
      · cases ran
        exact first

theorem loadAs_run {k : Kernel} (view : Obj → Option α) (held : k.objs ptr = some obj) (typed : view obj = some value) :
    loadAs view ptr k = .ok (value,k) := by
  unfold loadAs
  simp [held,typed]

theorem loadAs_ok {k : Kernel} : loadAs view ptr k = .ok (value,after) ↔
    (∃ obj, k.objs ptr = some obj ∧ view obj = some value) ∧ after = k := by
  constructor
  · intro ran
    unfold loadAs at ran
    cases held : k.objs ptr with
    | none => simp [held] at ran
    | some obj =>
      cases typed : view obj with
      | none => simp [held,typed] at ran
      | some found =>
        simp [held,typed] at ran
        exact ⟨⟨obj,rfl,by rw [typed,ran.1]⟩,ran.2.symm⟩
  · intro ⟨⟨obj,held,typed⟩,same⟩
    rw [same]
    exact loadAs_run _ held typed

theorem load_held {view : Obj → Option α} {make : α → Obj} (typed : ∀ obj value, view obj = some value → obj = make value)
    {k : Kernel} (ran : loadAs view ptr k = .ok (value,after)) : k = after ∧ k.objs ptr = some (make value) := by
  obtain ⟨⟨obj,held,seen⟩,same⟩ := loadAs_ok.mp ran
  exact ⟨same.symm,by rw [held,typed obj value seen]⟩

theorem loadAs_null {k : Kernel} (empty : k.objs 0 = none) (view : Obj → Option α) :
    loadAs view 0 k = .error .nullDeref := by
  unfold loadAs
  simp [empty,Fault.deref]

-- The heap's table is a set of chunks, and every object starts one of them.
structure HeapHolds (k : Kernel) (chunks : Set Chunk) : Prop where
  pool : Pool k.heap
  tiled : Tiled k.heap.table.entries k.heap.table.total chunks
  stops : StopsBelow k.heap.table.entries k.heap.saddr
  owned : ∀ ptr, (k.objs ptr).isSome → Owns k.heap chunks ptr

def HeapValid (k : Kernel) : Prop := ∃ chunks, HeapHolds k chunks

theorem HeapValid.pool {k : Kernel} (valid : HeapValid k) : Pool k.heap := by
  obtain ⟨_,valid⟩ := valid
  exact valid.pool

theorem HeapValid.congr {k l : Kernel} (valid : HeapValid k) (heap : l.heap = k.heap)
    (objs : ∀ ptr, (l.objs ptr).isSome → (k.objs ptr).isSome) : HeapValid l := by
  obtain ⟨chunks,valid⟩ := valid
  refine ⟨chunks,heap ▸ valid.pool,heap ▸ valid.tiled,heap ▸ valid.stops,fun ptr held => ?_⟩
  rw [heap]
  exact valid.owned ptr (objs ptr held)

-- Only objects at the touched addresses change, and no static variable does.
structure SameBut (before after : Kernel) (touched : Nat → Prop) : Prop where
  rest : after = {before with objs := after.objs}
  objs : ∀ ptr, ¬ touched ptr → after.objs ptr = before.objs ptr

theorem SameBut.refl (k : Kernel) (touched : Nat → Prop) : SameBut k k touched := ⟨rfl,fun _ _ => rfl⟩

theorem SameBut.trans (one : SameBut before middle touched) (two : SameBut middle after touched) :
    SameBut before after touched := by
  refine ⟨?_,fun ptr free => (two.objs ptr free).trans (one.objs ptr free)⟩
  rw [two.rest,one.rest]

theorem SameBut.place {k : Kernel} {touched : Nat → Prop} (here : touched ptr) (obj : Obj) :
    SameBut k (k.place ptr obj) touched :=
  ⟨rfl,fun _ free => Kernel.place_other (fun same => free (same ▸ here))⟩

theorem HeapValid.place {k : Kernel} (valid : HeapValid k) (held : (k.objs ptr).isSome) (obj : Obj) :
    HeapValid (k.place ptr obj) := by
  apply HeapValid.congr (k := k) (l := k.place ptr obj) valid rfl
  intro a present
  by_cases same : a = ptr
  · rw [same]
    exact held
  · rw [Kernel.place_other same] at present
    exact present

theorem HeapHolds.low {k : Kernel} (valid : HeapHolds k chunks) (owned : Owns k.heap chunks ptr) :
    ptr ≠ 0 ∧ ptr%4096 = 0 ∧ ptr+4096 ≤ 2147483648 := by
  obtain ⟨c,member,rfl⟩ := owned
  have starts := valid.tiled.starts c member
  obtain ⟨aligned,low,high⟩ := valid.pool
  omega

theorem HeapValid.low {k : Kernel} (valid : HeapValid k) (held : (k.objs ptr).isSome) :
    ptr ≠ 0 ∧ ptr%4096 = 0 ∧ ptr+4096 ≤ 2147483648 := by
  obtain ⟨chunks,valid⟩ := valid
  exact valid.low (valid.owned ptr held)

theorem HeapValid.replace {k : Kernel} (valid : HeapValid (k.place ptr one)) (two : Obj) :
    HeapValid (k.place ptr two) := by
  rw [← Kernel.place_place k ptr one two]
  exact valid.place (by simp) two

theorem HeapValid.null {k : Kernel} (valid : HeapValid k) : k.objs 0 = none := by
  cases held : k.objs 0 with
  | none => rfl
  | some obj => exact absurd rfl (valid.low (by simp [held] : (k.objs 0).isSome)).1

-- kzalloc returns NULL, or a page-aligned block that no object is in.
inductive Zalloc (k : Kernel) (zero : Obj) : Nat → Kernel → Prop where
  | null : Zalloc k zero 0 k
  | fresh (ptr : Nat) (heap : Heap) (empty : k.objs ptr = none)
      (low : ptr ≠ 0 ∧ ptr%4096 = 0 ∧ ptr+4096 ≤ 2147483648)
      (valid : HeapValid ((k.withHeap heap).place ptr zero)) :
      Zalloc k zero ptr ((k.withHeap heap).place ptr zero)

-- Allocation keeps every object and every static variable.
structure Extends (before after : Kernel) : Prop where
  rest : after = {before with heap := after.heap, objs := after.objs}
  objs : ∀ ptr, (before.objs ptr).isSome → after.objs ptr = before.objs ptr

theorem Extends.refl (k : Kernel) : Extends k k := ⟨rfl,fun _ _ => rfl⟩

theorem Extends.held (grown : Extends before after) (held : before.objs ptr = some obj) :
    after.objs ptr = some obj := by
  rw [grown.objs ptr (by simp [held])]
  exact held

theorem Extends.trans (one : Extends before middle) (two : Extends middle after) : Extends before after := by
  refine ⟨by rw [two.rest,one.rest],?_⟩
  intro ptr live
  have kept := one.objs ptr live
  rw [two.objs ptr (by rw [kept]; exact live)]
  exact kept

theorem Extends.place (grown : Extends before after) (fresh : before.objs ptr = none) (obj : Obj) :
    Extends before (after.place ptr obj) := by
  refine ⟨by rw [grown.rest]; rfl,?_⟩
  intro a live
  have different : a ≠ ptr := by
    intro same
    rw [same,fresh] at live
    cases live
  rw [Kernel.place_other different]
  exact grown.objs a live

theorem Zalloc.grows (allocated : Zalloc k zero ptr after) : Extends k after := by
  cases allocated with
  | null => exact .refl k
  | fresh _ heap empty =>
    exact (show Extends k (k.withHeap heap) from ⟨rfl,fun _ _ => rfl⟩).place empty zero

theorem kmalloc_run {k : Kernel} (ran : heapMalloc k.heap size = (ptr,heap,written)) :
    kmalloc size k = .ok (ptr,k.withHeap heap) := by
  unfold kmalloc
  rw [Prog.get_bind,ran]
  rfl

theorem align_bounds (bounded : size ≤ 4294963200) : ¬ heapAlignValueToUpper size < size := by
  unfold heapAlignValueToUpper nutsosHeapBlockSize toUint32
  split <;> omega

theorem HeapHolds.granted {k : Kernel} (valid : HeapHolds k chunks) (positive : 0 < n) (inside : start < k.heap.table.total)
    (free : FreeIn k.heap.table.entries k.heap.table.total start n) (obj : Obj) :
    HeapHolds ((k.withHeap (k.heap.granted ⟨start,n⟩).2.1).place (k.heap.saddr+start*4096) obj) (insert ⟨start,n⟩ chunks) := by
  generalize granted : (k.heap.granted ⟨start,n⟩).2.1 = heap
  have base : heap.saddr = k.heap.saddr := by rw [← granted]; rfl
  have total : heap.table.total = k.heap.table.total := by rw [← granted]; rfl
  have pool : Pool heap := by
    obtain ⟨aligned,low,high⟩ := valid.pool
    rw [← base] at aligned low
    rw [← base,← total] at high
    exact ⟨aligned,low,high⟩
  have tiled : Tiled heap.table.entries heap.table.total (insert ⟨start,n⟩ chunks) := by
    rw [← granted]
    exact valid.tiled.insert positive inside free
  have stops : StopsBelow heap.table.entries heap.saddr := by
    rw [base,← granted]
    exact valid.stops.congr (fun i below => setChunk_below _ _ _ below)
  refine ⟨pool,tiled,stops,?_⟩
  intro a held
  by_cases same : a = k.heap.saddr+start*4096
  · exact ⟨_,Set.mem_insert _ _,by rw [same]; exact congrArg (·+_) base.symm⟩
  · rw [Kernel.place_other same] at held
    obtain ⟨d,member,equal⟩ := valid.owned a held
    exact ⟨d,Set.mem_insert_of_mem _ member,by rw [equal]; exact congrArg (·+_) base.symm⟩

theorem kzalloc_total (size : Nat) (bounded : size ≤ 4294963200) (zero : Obj) (k : Kernel) :
    ∃ ptr after, kzalloc size zero k = .ok (ptr,after) := by
  unfold kzalloc
  rcases called : heapMalloc k.heap size with ⟨ptr,heap,written⟩
  rw [Prog.bind_run (kmalloc_run called)]
  by_cases null : ptr = 0
  · rw [if_pos null]
    exact ⟨_,_,rfl⟩
  rw [if_neg null,if_neg (align_bounds bounded)]
  by_cases empty : size = 0
  · rw [if_pos empty]
    exact ⟨_,_,rfl⟩
  · rw [if_neg empty]
    exact ⟨_,_,rfl⟩

theorem kzalloc_granted (size : Nat) {k : Kernel} (valid : HeapValid k) (zero : Obj) (positive : 0 < blocksFor size)
    (whole : ¬ heapAlignValueToUpper size < size)
    (inside : start < k.heap.table.total)
    (free : FreeIn k.heap.table.entries k.heap.table.total start (blocksFor size))
    (ran : heapMalloc k.heap size = k.heap.granted ⟨start,blocksFor size⟩) :
    kzalloc size zero k = .ok (k.heap.saddr+start*4096,
      (k.withHeap (k.heap.granted ⟨start,blocksFor size⟩).2.1).place (k.heap.saddr+start*4096) zero) ∧
    Zalloc k zero (k.heap.saddr+start*4096)
      ((k.withHeap (k.heap.granted ⟨start,blocksFor size⟩).2.1).place (k.heap.saddr+start*4096) zero) := by
  obtain ⟨chunks,valid⟩ := valid
  have fresh := valid.tiled.granted_fresh positive inside free
  have address := valid.pool.address inside
  have kept := valid.granted positive inside free zero
  generalize granted : (k.heap.granted ⟨start,blocksFor size⟩).2.1 = heap at *
  generalize place : k.heap.saddr+start*4096 = ptr at *
  have empty : k.objs ptr = none := by
    cases held : k.objs ptr with
    | none => rfl
    | some obj => exact absurd (valid.owned ptr (by simp [held])) fresh
  have low := kept.low (kept.owned ptr (by simp))
  have allocated : kmalloc size k = .ok (ptr,k.withHeap heap) := by
    rw [← address,← granted]
    exact kmalloc_run ran
  have some : size ≠ 0 := by
    intro zero
    rw [zero] at positive
    exact absurd positive (by decide)
  refine ⟨?_,.fresh ptr heap empty low ⟨_,kept⟩⟩
  unfold kzalloc store
  rw [Prog.bind_run allocated,if_neg low.1,if_neg whole,if_neg some]
  rfl

-- With room the block is there, it lies in the pool as a whole, and the rest
-- of the room is left.
def Serves (k : Kernel) (size ptr : Nat) (after : Kernel) : Prop :=
  ∀ rest, Room k.heap (blocksFor size+rest) →
    ptr ≠ 0 ∧ ptr+blocksFor size*4096 ≤ k.heap.saddr+k.heap.table.total*4096 ∧ Room after.heap rest

theorem kzalloc_run (size : Nat) {k : Kernel} (valid : HeapValid k) (zero : Obj) (positive : 1 ≤ size)
    (bounded : size ≤ 4294963200) :
    ∃ ptr after, kzalloc size zero k = .ok (ptr,after) ∧ Zalloc k zero ptr after ∧ Serves k size ptr after := by
  have blocks := (blocksFor_bounds positive bounded).1
  obtain ⟨chunks,holds⟩ := valid
  have low := holds.pool.low
  rcases heapMalloc_cases _ k.heap blocks with refused | ⟨start,inside,free,ran⟩
  · refine ⟨0,k,?_,.null,?_⟩
    · unfold kzalloc
      rw [Prog.bind_run (kmalloc_run refused)]
      rfl
    · intro rest room
      obtain ⟨start,_,_,served,_⟩ := room.malloc blocks
      have address := congrArg Prod.fst (refused.symm.trans served)
      have fits : start < k.heap.table.total := by omega
      rw [holds.pool.granted fits] at address
      omega
  · obtain ⟨allocated,result⟩ := kzalloc_granted _ ⟨chunks,holds⟩ zero blocks (align_bounds bounded) inside free ran
    refine ⟨_,_,allocated,result,?_⟩
    intro rest room
    obtain ⟨start',fits,_,served,left⟩ := room.malloc blocks
    have address := congrArg Prod.fst (ran.symm.trans served)
    have fits' : start' < k.heap.table.total := by omega
    rw [holds.pool.granted inside,holds.pool.granted fits'] at address
    obtain rfl : start = start' := by omega
    exact ⟨by omega,by omega,left⟩

-- Freeing takes objects away and keeps the others and every static variable.
structure Frees (before after : Kernel) (gone : Nat → Prop) : Prop where
  rest : after = {before with heap := after.heap, objs := after.objs}
  erased : ∀ ptr, gone ptr → after.objs ptr = none
  kept : ∀ ptr, ¬ gone ptr → after.objs ptr = before.objs ptr

theorem Frees.trans {one two : Nat → Prop} (first : Frees before middle one) (second : Frees middle after two) :
    Frees before after (fun ptr => one ptr ∨ two ptr) := by
  refine ⟨by rw [second.rest,first.rest],?_,?_⟩
  · intro ptr gone
    by_cases later : two ptr
    · exact second.erased ptr later
    · rw [second.kept ptr later]
      exact first.erased ptr (gone.resolve_right later)
  · intro ptr held
    rw [second.kept ptr (fun later => held (.inr later)),first.kept ptr (fun early => held (.inl early))]

theorem Frees.congr {one two : Nat → Prop} (frees : Frees before after one) (same : ∀ ptr, one ptr ↔ two ptr) :
    Frees before after two :=
  ⟨frees.rest,fun ptr gone => frees.erased ptr ((same ptr).mpr gone),
    fun ptr held => frees.kept ptr (fun gone => held ((same ptr).mp gone))⟩

def FreeBlock (k : Kernel) (ptr : Nat) : Prop :=
  ∃ start, start < k.heap.table.total ∧ ptr = k.heap.saddr+start*4096 ∧
    k.heap.table.entries (start : Nat) = heapBlockTableEntryFree

-- What the kernel may pass to kfree: an object, NULL, or a block that is free.
inductive Freeable (k : Kernel) : Nat → Prop where
  | object (held : (k.objs ptr).isSome) : Freeable k ptr
  | null : Freeable k 0
  | free (block : FreeBlock k ptr) : Freeable k ptr

theorem kfree_frees {k : Kernel} (ran : heapFree k.heap ptr = (heap,written)) :
    kfree ptr k = .ok ((),(k.withHeap heap).drop ptr) ∧ Frees k ((k.withHeap heap).drop ptr) (· = ptr) := by
  refine ⟨?_,rfl,fun a same => same ▸ Kernel.drop_same _ _,fun a different => Kernel.drop_other different⟩
  unfold kfree
  rw [Prog.get_bind,ran]
  rfl

theorem HeapHolds.dropped {k : Kernel} (valid : HeapHolds k chunks) (base : heap.saddr = k.heap.saddr)
    (total : heap.table.total = k.heap.table.total) (tiled : Tiled heap.table.entries heap.table.total left)
    (stops : StopsBelow heap.table.entries heap.saddr)
    (kept : ∀ d ∈ chunks, k.heap.saddr+d.start*4096 ≠ ptr → d ∈ left) :
    HeapHolds ((k.withHeap heap).drop ptr) left := by
  have pool : Pool heap := by
    obtain ⟨aligned,low,high⟩ := valid.pool
    rw [← base] at aligned low
    rw [← base,← total] at high
    exact ⟨aligned,low,high⟩
  refine ⟨pool,tiled,stops,?_⟩
  intro a live
  have different : a ≠ ptr := by
    intro same
    rw [same,Kernel.drop_same] at live
    cases live
  rw [Kernel.drop_other different] at live
  obtain ⟨d,old,equal⟩ := valid.owned a live
  refine ⟨d,kept d old (fun same => different (equal.trans same)),?_⟩
  rw [equal]
  exact congrArg (·+_) base.symm

theorem kfree_chunk {k : Kernel} (valid : HeapHolds k chunks) (member : c ∈ chunks) (address : ptr = k.heap.saddr+c.start*4096) :
    ∃ after, kfree ptr k = .ok ((),after) ∧ HeapHolds after (chunks \ {c}) ∧ Frees k after (· = ptr) ∧
      after.heap.saddr = k.heap.saddr ∧ after.heap.table.total = k.heap.table.total := by
  obtain ⟨written,ran⟩ := valid.tiled.kfree valid.pool member
  rw [← address] at ran
  obtain ⟨freed,frees⟩ := kfree_frees ran
  have stops := valid.stops.congr (fun i below => setChunk_below (c.clip k.heap.table.total)
    (fun _ => heapBlockTableEntryFree) k.heap.table.entries below)
  refine ⟨_,freed,valid.dropped rfl rfl (valid.tiled.remove member) stops ?_,frees,rfl,rfl⟩
  intro d old different
  refine ⟨old,fun same => different ?_⟩
  rw [Set.mem_singleton_iff.mp same]
  exact address.symm

theorem kfree_run {k : Kernel} (valid : HeapValid k) (freeable : Freeable k ptr) :
    ∃ after, kfree ptr k = .ok ((),after) ∧ HeapValid after ∧ Frees k after (· = ptr) := by
  have null := valid.null
  obtain ⟨chunks,valid⟩ := valid
  cases freeable with
  | object held =>
    obtain ⟨c,member,address⟩ := valid.owned ptr held
    obtain ⟨after,freed,left,frees,_⟩ := kfree_chunk valid member address
    exact ⟨after,freed,⟨_,left⟩,frees⟩
  | null =>
    obtain ⟨heap,written,ran,base,total,same,stops⟩ := valid.pool.free_null valid.stops
    obtain ⟨freed,frees⟩ := kfree_frees ran
    have tiled : Tiled heap.table.entries heap.table.total chunks := by
      rw [total]
      exact valid.tiled.congr (fun i low _ => same i low)
    exact ⟨_,freed,⟨_,valid.dropped base total tiled stops (fun d old _ => old)⟩,frees⟩
  | free block =>
    obtain ⟨start,inside,rfl,free⟩ := block
    obtain ⟨written,ran⟩ := valid.pool.free_free inside free
    obtain ⟨freed,frees⟩ := kfree_frees ran
    exact ⟨_,freed,⟨_,valid.dropped rfl rfl valid.tiled valid.stops (fun d old _ => old)⟩,frees⟩

end NutsOS
