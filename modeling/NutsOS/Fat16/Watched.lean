import NutsOS.Fat16.Driver
import NutsOS.Lib.Watch

-- The driver over its calls to the allocator and the directory loader, and the
-- instance that watches these calls.
namespace NutsOS.Fat16
open Word32 DiskStreams Files Prog

inductive Member where
  | item
  | directory
  deriving DecidableEq

-- What the driver calls, how the statements in between run, and how one that
-- takes a member of an item's union does.
structure Services (ε : Type) where
  run : {α : Type} → KernelProg α → Prog ε Kernel α
  kzalloc : Nat → Obj → Prog ε Kernel Nat
  kfree : Nat → Prog ε Kernel Unit
  loadFatDirectory : FatDirectoryItem → Prog ε Kernel Nat
  reading : {α : Type} → FatItem → Member → Prog ε Kernel α → Prog ε Kernel α := fun _ _ x => x

section
variable {ε : Type} (services : Services ε)

def freeDirectoryWith (directory : Nat) : Prog ε Kernel Unit := do
  if directory = 0 then return ()
  let found ← services.run (loadAs asFatDirectory directory)
  Prog.when (found.item ≠ 0) (services.kfree found.item)
  services.kfree directory

def fatItemFreeWith (item : Nat) : Prog ε Kernel Unit := do
  if item = 0 then return ()
  let found ← services.run (loadAs asFatItem item)
  match found.type with
  | .directory => services.reading found .directory (freeDirectoryWith services found.target)
  | .file => services.reading found .item (services.kfree found.target)
  services.kfree item

def copyDirectoryItemWith (item : FatDirectoryItem) : Prog ε Kernel Nat := do
  let copy ← services.kzalloc 32 (.directoryItems [zeroDirectoryItem])
  if copy = 0 then return 0
  services.run (store copy (.directoryItems [item]))
  return copy

def newFatItemWith (item : FatDirectoryItem) : Prog ε Kernel Nat := do
  let fatItem ← services.kzalloc 8 (.fatItem ⟨0,.directory⟩)
  if fatItem = 0 then return 0
  if FatDirectoryItem.isSubdirectory item then
    let directory ← services.loadFatDirectory item
    services.run (store fatItem (.fatItem ⟨directory,.directory⟩))
    return fatItem
  else
    let copy ← copyDirectoryItemWith services item
    services.run (store fatItem (.fatItem ⟨copy,.file⟩))
    return fatItem

def findItemWith (directory : FatDirectory) (name : List UInt8) : Nat → Nat → Prog ε Kernel Nat
  | 0,_ => pure 0
  | count+1,i => do
    let items ← services.run (loadAs asDirectoryItems directory.item)
    match items[i]? with
    | none => services.run (Prog.fault (.outOfBounds i))
    | some item =>
      if entryMatches item name then newFatItemWith services item
      else findItemWith directory name count (i+1)

def findItemInDirectoryWith (directory : FatDirectory) (name : List UInt8) : Prog ε Kernel Nat :=
  findItemWith services directory name directory.total.toNat 0

def walkPartsWith : Nat → Nat → Nat → Prog ε Kernel Nat
  | 0,_,_ => services.run (Prog.fault .unbounded)
  | fuel+1,currentItem,nextPart => do
    if nextPart = 0 then return currentItem
    let current ← services.run (loadAs asFatItem currentItem)
    if current.type ≠ .directory then
      fatItemFreeWith services currentItem
      return 0
    let (name,next) ← services.run (loadPart nextPart)
    let directory ← services.reading current .directory (services.run (loadAs asFatDirectory current.target))
    let nextItem ← findItemInDirectoryWith services directory name
    fatItemFreeWith services currentItem
    if nextItem = 0 then return 0
    walkPartsWith fuel nextItem next

def getDirectoryEntryWith (path : Nat) : Prog ε Kernel Nat := do
  let fatPrivate ← services.run (onDisk loadPrivate)
  let (name,next) ← services.run (loadPart path)
  let rootItem ← findItemInDirectoryWith services fatPrivate.rootDirectory name
  if rootItem = 0 then return 0
  walkPartsWith services 4294967296 rootItem next

def openWith (path : Nat) (mode : FileMode) : Prog ε Kernel Nat := do
  if mode ≠ .read then return errToPtr (-ereadonly)
  let descriptor ← services.kzalloc 8 (.fatFileDescriptor ⟨0,0⟩)
  if descriptor = 0 then return errToPtr (-enomem)
  let item ← getDirectoryEntryWith services path
  services.run (store descriptor (.fatFileDescriptor ⟨item,0⟩))
  if item = 0 then
    services.kfree descriptor
    return errToPtr (-eio)
  return descriptor

def closeWith (descriptor : Nat) : Prog ε Kernel Int := do
  let desc ← services.run (loadAs asFatFileDescriptor descriptor)
  fatItemFreeWith services desc.item
  services.kfree descriptor
  return 0

def readWith (dev : BlockDevice) (descriptor size nmemb : Nat) : Prog ε Kernel (Nat × List UInt8) := do
  let fatDesc ← services.run (loadAs asFatFileDescriptor descriptor)
  let fatItem ← services.run (loadAs asFatItem fatDesc.item)
  let item ← services.reading fatItem .item (services.run (loadAs asDirectoryItem fatItem.target))
  services.run (readItems dev item size nmemb (toInt32 fatDesc.pos))

def seekWith (descriptor offset : Nat) (seekMode : FileSeekMode) : Prog ε Kernel Int := do
  let desc ← services.run (loadAs asFatFileDescriptor descriptor)
  let descItem ← services.run (loadAs asFatItem desc.item)
  if descItem.type ≠ .file then return -einvarg
  let ritem ← services.reading descItem .item (services.run (loadAs asDirectoryItem descItem.target))
  match seekMode with
  | .set =>
    if offset ≥ ritem.filesize then return -eio
    services.run (store descriptor (.fatFileDescriptor {desc with pos := offset}))
    return eok
  | .seekEnd => return -1
  | .cur =>
    if toUint32 (desc.pos+offset) ≥ ritem.filesize then return -eio
    services.run (store descriptor (.fatFileDescriptor {desc with pos := toUint32 (desc.pos+offset)}))
    return eok
  | .other => return -einvarg

def statWith (descriptor : Nat) : Prog ε Kernel (Int × Option FileStat) := do
  let desc ← services.run (loadAs asFatFileDescriptor descriptor)
  let descItem ← services.run (loadAs asFatItem desc.item)
  if descItem.type ≠ .file then return (-einvarg,none)
  let ritem ← services.reading descItem .item (services.run (loadAs asDirectoryItem descItem.target))
  let flags := if ritem.attributeBits &&& fatFileReadOnly ≠ 0 then fileStatRo else 0
  return (0,some ⟨flags,ritem.filesize⟩)

end

def plain (dev : BlockDevice) : Services Fault where
  run x := x
  kzalloc := NutsOS.kzalloc
  kfree := NutsOS.kfree
  loadFatDirectory := fat16LoadFatDirectory dev

theorem newFatItemWith_plain (dev : BlockDevice) : newFatItemWith (plain dev) = fat16NewFatItemForDirectoryItem dev := rfl

theorem fatItemFreeWith_plain (dev : BlockDevice) : fatItemFreeWith (plain dev) = fat16FatItemFree := rfl

theorem findItemWith_plain (dev : BlockDevice) (directory : FatDirectory) (name : List UInt8) (count i : Nat) :
    findItemWith (plain dev) directory name count i = findItem dev directory name count i := by
  induction count generalizing i with
  | zero => rfl
  | succ count ih =>
    unfold findItemWith findItem
    rw [newFatItemWith_plain,ih]
    rfl

theorem walkPartsWith_plain (dev : BlockDevice) (fuel item next : Nat) :
    walkPartsWith (plain dev) fuel item next = walkParts dev fuel item next := by
  induction fuel generalizing item next with
  | zero => rfl
  | succ fuel ih =>
    unfold walkPartsWith walkParts findItemInDirectoryWith
    simp only [findItemWith_plain,fatItemFreeWith_plain,ih]
    rfl

theorem getDirectoryEntryWith_plain (dev : BlockDevice) : getDirectoryEntryWith (plain dev) = fat16GetDirectoryEntry dev := by
  funext path
  unfold getDirectoryEntryWith findItemInDirectoryWith
  simp only [findItemWith_plain,walkPartsWith_plain]
  rfl

theorem openWith_plain (dev : BlockDevice) : openWith (plain dev) = fat16Open dev := by
  funext path mode
  unfold openWith
  rw [getDirectoryEntryWith_plain]
  rfl

theorem closeWith_plain (dev : BlockDevice) : closeWith (plain dev) = fat16Close := rfl

theorem readWith_plain (dev : BlockDevice) : readWith (plain dev) dev = fat16Read dev := rfl

theorem seekWith_plain (dev : BlockDevice) : seekWith (plain dev) = fat16Seek := rfl

theorem statWith_plain (dev : BlockDevice) : statWith (plain dev) = fat16Stat := rfl

-- Where a watched call stops: at a fault of the driver, for want of memory, at
-- a directory that is not loaded or is empty, at a block that is not allocated.
inductive Stop where
  | fault (fault : Fault)
  | full
  | load
  | freed

def loadedAt (k : Kernel) (ptr : Nat) : Bool :=
  match k.objs ptr with
  | some (.fatDirectory directory) => 0 < directory.total
  | _ => false

def watched (dev : BlockDevice) : Services Stop where
  run := embed .fault
  kzalloc size zero := do
    let ptr ← embed .fault (NutsOS.kzalloc size zero)
    if ptr = 0 then Prog.fault .full else return ptr
  kfree ptr := do
    if ((← Prog.get).objs ptr).isNone then Prog.fault .freed else embed .fault (NutsOS.kfree ptr)
  loadFatDirectory item := do
    let ptr ← embed .fault (fat16LoadFatDirectory dev item)
    if loadedAt (← Prog.get) ptr then return ptr else Prog.fault .load

-- Calls that do what the driver's do, until they stop.
structure Watching {ε : Type} (lift : Fault → ε) (services : Services ε) (dev : BlockDevice) : Prop where
  run : ∀ {α : Type} (x : KernelProg α), Watches lift (services.run x) x
  kzalloc : ∀ size zero, Watches lift (services.kzalloc size zero) (NutsOS.kzalloc size zero)
  kfree : ∀ ptr, Watches lift (services.kfree ptr) (NutsOS.kfree ptr)
  loadFatDirectory : ∀ item, Watches lift (services.loadFatDirectory item) (fat16LoadFatDirectory dev item)
  reading : ∀ {α : Type} {x : Prog ε Kernel α} {y : KernelProg α} (found : FatItem) (member : Member),
    Watches lift x y → Watches lift (services.reading found member x) y

theorem watched_watching (dev : BlockDevice) : Watching Stop.fault (watched dev) dev where
  run x := watches_embed x
  kzalloc size zero := by
    refine watches_check (watches_embed _) (fun ptr => ?_)
    by_cases null : ptr = 0
    · rw [if_pos null]
      exact watches_stop (fun _ same => by cases same) _
    · rw [if_neg null]
      exact watches_pure ptr
  kfree ptr := by
    intro k
    show Matches _ ((if (k.objs ptr).isNone then fault .freed else embed .fault (kfree ptr) : Prog Stop Kernel Unit) k) _
    by_cases empty : (k.objs ptr).isNone = true
    · rw [if_pos empty]
      exact watches_stop (fun _ same => by cases same) _ k
    · rw [if_neg empty]
      exact watches_embed _ k
  loadFatDirectory item := by
    refine watches_check (watches_embed _) (fun ptr k => ?_)
    show Matches _ ((if loadedAt k ptr then pure ptr else fault .load : Prog Stop Kernel Nat) k) _
    by_cases loaded : loadedAt k ptr = true
    · rw [if_pos loaded]
      exact watches_pure ptr k
    · rw [if_neg loaded]
      exact watches_stop (fun _ same => by cases same) _ k
  reading _ _ same := same

-- And so does the driver over them.
section
variable {ε : Type} {lift : Fault → ε} {services : Services ε} {dev : BlockDevice} (watching : Watching lift services dev)
include watching

theorem freeDirectory_watches (directory : Nat) :
    Watches lift (freeDirectoryWith services directory) (freeDirectoryWith (plain dev) directory) := by
  refine watches_ite (watches_pure _) (watches_bind (watching.run _) (fun found => ?_))
  refine watches_bind (watches_ite (watching.kfree _) (watches_pure _)) (fun _ => watching.kfree _)

theorem fatItemFree_watches (item : Nat) :
    Watches lift (fatItemFreeWith services item) (fatItemFreeWith (plain dev) item) := by
  refine watches_ite (watches_pure _) (watches_bind (watching.run _) (fun found => ?_))
  cases found.type with
  | directory => exact watches_bind (watching.reading _ _ (freeDirectory_watches watching _)) (fun _ => watching.kfree _)
  | file => exact watches_bind (watching.reading _ _ (watching.kfree _)) (fun _ => watching.kfree _)

theorem newFatItem_watches (item : FatDirectoryItem) :
    Watches lift (newFatItemWith services item) (newFatItemWith (plain dev) item) := by
  have copied : Watches lift (copyDirectoryItemWith services item) (copyDirectoryItemWith (plain dev) item) := by
    refine watches_bind (watching.kzalloc _ _) (fun copy => watches_ite (watches_pure _) ?_)
    exact watches_bind (watching.run _) (fun _ => watches_pure _)
  refine watches_bind (watching.kzalloc _ _) (fun fatItem => watches_ite (watches_pure _) ?_)
  refine watches_ite ?_ ?_
  · refine watches_bind (watching.loadFatDirectory item) (fun directory => ?_)
    exact watches_bind (watching.run _) (fun _ => watches_pure _)
  · exact watches_bind copied (fun copy => watches_bind (watching.run _) (fun _ => watches_pure _))

theorem findItem_watches (directory : FatDirectory) (name : List UInt8) (count i : Nat) :
    Watches lift (findItemWith services directory name count i) (findItemWith (plain dev) directory name count i) := by
  induction count generalizing i with
  | zero => exact watches_pure _
  | succ count ih =>
    refine watches_bind (watching.run _) (fun items => ?_)
    cases items[i]? with
    | none => exact watching.run _
    | some item => exact watches_ite (newFatItem_watches watching item) (ih (i+1))

theorem walkParts_watches (fuel item next : Nat) :
    Watches lift (walkPartsWith services fuel item next) (walkPartsWith (plain dev) fuel item next) := by
  induction fuel generalizing item next with
  | zero => exact watching.run _
  | succ fuel ih =>
    refine watches_ite (watches_pure _) (watches_bind (watching.run _) (fun current => ?_))
    refine watches_ite (watches_bind (fatItemFree_watches watching item) (fun _ => watches_pure _)) ?_
    refine watches_bind (watching.run _) (fun part => watches_bind (watching.reading _ _ (watching.run _)) (fun directory => ?_))
    refine watches_bind (findItem_watches watching directory part.1 _ 0) (fun found => ?_)
    refine watches_bind (fatItemFree_watches watching item) (fun _ => watches_ite (watches_pure _) ?_)
    exact ih found part.2

theorem getDirectoryEntry_watches (path : Nat) :
    Watches lift (getDirectoryEntryWith services path) (fat16GetDirectoryEntry dev path) := by
  rw [← getDirectoryEntryWith_plain]
  refine watches_bind (watching.run _) (fun fatPrivate => watches_bind (watching.run _) (fun part => ?_))
  refine watches_bind (findItem_watches watching _ part.1 _ 0) (fun root => watches_ite (watches_pure _) ?_)
  exact walkParts_watches watching _ root part.2

theorem openWith_watches (path : Nat) (mode : FileMode) :
    Watches lift (openWith services path mode) (fat16Open dev path mode) := by
  refine watches_ite (watches_pure _) (watches_bind (watching.kzalloc _ _) (fun descriptor => ?_))
  refine watches_ite (watches_pure _) (watches_bind (getDirectoryEntry_watches watching path) (fun item => ?_))
  refine watches_bind (watching.run _) (fun _ => watches_ite ?_ (watches_pure _))
  exact watches_bind (watching.kfree _) (fun _ => watches_pure _)

theorem closeWith_watches (descriptor : Nat) :
    Watches lift (closeWith services descriptor) (fat16Close descriptor) := by
  rw [← closeWith_plain dev]
  refine watches_bind (watching.run _) (fun desc => ?_)
  refine watches_bind (fatItemFree_watches watching desc.item) (fun _ => ?_)
  exact watches_bind (watching.kfree _) (fun _ => watches_pure _)

theorem readWith_watches (descriptor size nmemb : Nat) :
    Watches lift (readWith services dev descriptor size nmemb) (fat16Read dev descriptor size nmemb) := by
  rw [← readWith_plain]
  refine watches_bind (watching.run _) (fun fatDesc => watches_bind (watching.run _) (fun fatItem => ?_))
  exact watches_bind (watching.reading _ _ (watching.run _)) (fun item => watching.run _)

theorem seekWith_watches (descriptor offset : Nat) (mode : FileSeekMode) :
    Watches lift (seekWith services descriptor offset mode) (fat16Seek descriptor offset mode) := by
  rw [← seekWith_plain dev]
  refine watches_bind (watching.run _) (fun desc => watches_bind (watching.run _) (fun descItem => watches_ite (watches_pure _) ?_))
  refine watches_bind (watching.reading _ _ (watching.run _)) (fun ritem => ?_)
  cases mode with
  | set => exact watches_ite (watches_pure _) (watches_bind (watching.run _) (fun _ => watches_pure _))
  | seekEnd => exact watches_pure _
  | cur => exact watches_ite (watches_pure _) (watches_bind (watching.run _) (fun _ => watches_pure _))
  | other => exact watches_pure _

theorem statWith_watches (descriptor : Nat) : Watches lift (statWith services descriptor) (fat16Stat descriptor) := by
  rw [← statWith_plain dev]
  refine watches_bind (watching.run _) (fun desc => watches_bind (watching.run _) (fun descItem => watches_ite (watches_pure _) ?_))
  exact watches_bind (watching.reading _ _ (watching.run _)) (fun ritem => watches_pure _)

end

end NutsOS.Fat16
