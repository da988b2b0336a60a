import NutsOS.File.PathParser
import NutsOS.Fat16.Directory

-- fat16.c: the operations of the file system driver.
namespace NutsOS.Fat16
open Word32 DiskStreams Files

def asFatFileDescriptor : Obj → Option FatFileDescriptor
  | .fatFileDescriptor descriptor => some descriptor
  | _ => none

theorem asFatFileDescriptor_eq (obj : Obj) (descriptor : FatFileDescriptor) (typed : asFatFileDescriptor obj = some descriptor) :
    obj = .fatFileDescriptor descriptor := by
  cases obj <;> cases typed
  rfl

def asDirectoryItem : Obj → Option FatDirectoryItem
  | .directoryItems (item::_) => some item
  | _ => none

def loadPart (path : Nat) : KernelProg (List UInt8 × Nat) := do
  let part ← loadAs asPathPart path
  let name ← loadAs asChars part.part
  return (name,part.next)

-- The loop over the parts behind the first; a list that does not run in a
-- circle has no 2^32 of them.
def walkParts (dev : BlockDevice) : Nat → Nat → Nat → KernelProg Nat
  | 0,_,_ => Prog.fault .unbounded
  | fuel+1,currentItem,nextPart => do
    if nextPart = 0 then return currentItem
    let current ← loadAs asFatItem currentItem
    if current.type ≠ .directory then
      fat16FatItemFree currentItem
      return 0
    let (name,next) ← loadPart nextPart
    let directory ← loadAs asFatDirectory current.target
    let nextItem ← fat16FindItemInDirectory dev directory name
    fat16FatItemFree currentItem
    if nextItem = 0 then return 0
    walkParts dev fuel nextItem next

def fat16GetDirectoryEntry (dev : BlockDevice) (path : Nat) : KernelProg Nat := do
  let fatPrivate ← onDisk loadPrivate
  let (name,next) ← loadPart path
  let rootItem ← fat16FindItemInDirectory dev fatPrivate.rootDirectory name
  if rootItem = 0 then return 0
  walkParts dev 4294967296 rootItem next

def fat16Open (dev : BlockDevice) (path : Nat) (mode : FileMode) : KernelProg Nat := do
  if mode ≠ .read then return errToPtr (-ereadonly)
  let descriptor ← kzalloc 8 (.fatFileDescriptor ⟨0,0⟩)
  if descriptor = 0 then return errToPtr (-enomem)
  let item ← fat16GetDirectoryEntry dev path
  store descriptor (.fatFileDescriptor ⟨item,0⟩)
  if item = 0 then
    kfree descriptor
    return errToPtr (-eio)
  return descriptor

-- The loop of fat16_read: the items read and the bytes stored from out_ptr on,
-- those of an item that failed half-way included.
def itemsLoop (readItem : Int → KernelProg (Int × List UInt8)) (filesize size : Nat) :
    Nat → Int → KernelProg (Nat × List UInt8)
  | 0,_ => pure (0,[])
  | nmemb+1,offset => do
    if size > toUint32 (filesize-offset) then return (0,[])
    let (res,bytes) ← readItem offset
    if res < 0 then return (0,bytes)
    let (read,rest) ← itemsLoop readItem filesize size nmemb (toInt32 (offset+size))
    return (read+1,bytes++rest)

def readItems (dev : BlockDevice) (item : FatDirectoryItem) (size : Nat) :
    Nat → Int → KernelProg (Nat × List UInt8) :=
  itemsLoop (fun offset => onDisk (fat16ReadInternal dev item.low16BitsFirstCluster offset (toInt32 size)))
    item.filesize size

def fat16Read (dev : BlockDevice) (descriptor size nmemb : Nat) : KernelProg (Nat × List UInt8) := do
  let fatDesc ← loadAs asFatFileDescriptor descriptor
  let fatItem ← loadAs asFatItem fatDesc.item
  let item ← loadAs asDirectoryItem fatItem.target
  readItems dev item size nmemb (toInt32 fatDesc.pos)

-- `other` is any value but the three of the enumeration.
inductive FileSeekMode where
  | set
  | cur
  | seekEnd
  | other

def fat16Seek (descriptor offset : Nat) (seekMode : FileSeekMode) : KernelProg Int := do
  let desc ← loadAs asFatFileDescriptor descriptor
  let descItem ← loadAs asFatItem desc.item
  if descItem.type ≠ .file then return -einvarg
  let ritem ← loadAs asDirectoryItem descItem.target
  match seekMode with
  | .set =>
    if offset ≥ ritem.filesize then return -eio
    store descriptor (.fatFileDescriptor {desc with pos := offset})
    return eok
  | .seekEnd => return -1
  | .cur =>
    if toUint32 (desc.pos+offset) ≥ ritem.filesize then return -eio
    store descriptor (.fatFileDescriptor {desc with pos := toUint32 (desc.pos+offset)})
    return eok
  | .other => return -einvarg

structure FileStat where
  flags : Nat
  filesize : Nat
  deriving DecidableEq

def fileStatRo : Nat := 0

def fat16Stat (descriptor : Nat) : KernelProg (Int × Option FileStat) := do
  let desc ← loadAs asFatFileDescriptor descriptor
  let descItem ← loadAs asFatItem desc.item
  if descItem.type ≠ .file then return (-einvarg,none)
  let ritem ← loadAs asDirectoryItem descItem.target
  let flags := if ritem.attributeBits &&& fatFileReadOnly ≠ 0 then fileStatRo else 0
  return (0,some ⟨flags,ritem.filesize⟩)

def fat16Close (descriptor : Nat) : KernelProg Int := do
  let desc ← loadAs asFatFileDescriptor descriptor
  fat16FatItemFree desc.item
  kfree descriptor
  return 0

end NutsOS.Fat16
