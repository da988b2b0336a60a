import NutsOS.Kernel.State
import NutsOS.Stdutil.String

-- fat16.c: directory entries, their names, and the search for one.
namespace NutsOS.Fat16
open Word32 DiskStreams Stdutil

def nutsosFat16UnusedEntry : UInt8 := 0xE5
def nutsosFat16NomoreEntry : UInt8 := 0x00
def fatFileReadOnly : UInt8 := 0x01
def fatFileSubdirectory : UInt8 := 0x10

def asFatItem : Obj → Option FatItem
  | .fatItem item => some item
  | _ => none

def asFatDirectory : Obj → Option FatDirectory
  | .fatDirectory directory => some directory
  | _ => none

def asDirectoryItems : Obj → Option (List FatDirectoryItem)
  | .directoryItems items => some items
  | _ => none

theorem asFatItem_eq (obj : Obj) (item : FatItem) (typed : asFatItem obj = some item) : obj = .fatItem item := by
  cases obj <;> cases typed
  rfl

theorem asFatDirectory_eq (obj : Obj) (directory : FatDirectory) (typed : asFatDirectory obj = some directory) :
    obj = .fatDirectory directory := by
  cases obj <;> cases typed
  rfl

theorem asDirectoryItems_eq (obj : Obj) (items : List FatDirectoryItem) (typed : asDirectoryItems obj = some items) :
    obj = .directoryItems items := by
  cases obj <;> cases typed
  rfl

def zeroDirectoryItem : FatDirectoryItem := ⟨List.replicate 8 0,List.replicate 3 0,0,0,0⟩

def littleEndian : List UInt8 → Nat
  | [] => 0
  | b::rest => b.toNat+256*littleEndian rest

-- The fields the driver uses of the 32 bytes of an entry.
def directoryItem (bytes : List UInt8) : FatDirectoryItem :=
  ⟨bytes.take 8,(bytes.drop 8).take 3,bytes.getD 11 0,littleEndian ((bytes.drop 26).take 2),
    littleEndian ((bytes.drop 28).take 4)⟩

def directoryItems : Nat → List UInt8 → List FatDirectoryItem
  | 0,_ => []
  | count+1,bytes => directoryItem (bytes.take 32)::directoryItems count (bytes.drop 32)

theorem directoryItems_length (count : Nat) (bytes : List UInt8) : (directoryItems count bytes).length = count := by
  induction count generalizing bytes with
  | zero => rfl
  | succ count ih => rw [directoryItems,List.length_cons,ih]

def FatDirectoryItem.isSubdirectory (item : FatDirectoryItem) : Bool :=
  item.attributeBits &&& fatFileSubdirectory != 0

-- The counting loop. No 2^26 entries fit below the 2^31 bytes that a stream
-- can be moved over, and a read from behind them fails.
def countItems (dev : BlockDevice) (stream : Nat) : Nat → Int → DiskProg Int
  | 0,_ => Prog.fault .unbounded
  | fuel+1,res => do
    let (read,bytes) ← readStream dev stream 32
    if read ≠ 0 then return -eio
    if charOf bytes = nutsosFat16UnusedEntry then countItems dev stream fuel res else
    if charOf bytes = nutsosFat16NomoreEntry then return res else
    countItems dev stream fuel (res+1)

def fat16GetTotalItemsForDirectory (dev : BlockDevice) (directoryStartSector : Nat) : DiskProg Int := do
  let fprivate ← loadPrivate
  let directoryStartPos := toInt32 (directoryStartSector * (← Prog.get).sectorSize)
  let stream := fprivate.directoryStream
  if (← seekStream stream directoryStartPos) ≠ 0 then return -eio
  countItems dev stream 67108872 0

def fat16FreeDirectory (directory : Nat) : KernelProg Unit := do
  if directory = 0 then return ()
  let found ← loadAs asFatDirectory directory
  Prog.when (found.item ≠ 0) (kfree found.item)
  kfree directory

def fat16FatItemFree (item : Nat) : KernelProg Unit := do
  if item = 0 then return ()
  let found ← loadAs asFatItem item
  match found.type with
  | .directory => fat16FreeDirectory found.target
  | .file => kfree found.target
  kfree item

def fat16LoadFatDirectory (dev : BlockDevice) (item : FatDirectoryItem) : KernelProg Nat := do
  if ¬ FatDirectoryItem.isSubdirectory item then return errToPtr (-einvarg)
  let directory ← kzalloc 16 (.fatDirectory ⟨0,0,0,0⟩)
  if directory = 0 then return errToPtr (-enomem)
  let cluster := item.low16BitsFirstCluster
  let clusterSector := fat16ClusterToSector (← onDisk loadPrivate) cluster
  let res ← onDisk (fat16GetTotalItemsForDirectory dev (toUint32 clusterSector))
  if res < 0 then
    fat16FreeDirectory directory
    return errToPtr res
  let directorySize := toInt32 (res*32)
  let items ← kzalloc (toUint32 directorySize) (.directoryItems (List.replicate res.toNat zeroDirectoryItem))
  store directory (.fatDirectory ⟨items,res,0,0⟩)
  if items = 0 then
    fat16FreeDirectory directory
    return errToPtr (-enomem)
  let (res,bytes) ← onDisk (fat16ReadInternal dev cluster 0 directorySize)
  if res < 0 then
    fat16FreeDirectory directory
    return errToPtr res
  Prog.when (directorySize ≠ 0) do
    let old ← loadAs asDirectoryItems items
    store items (.directoryItems (directoryItems old.length bytes))
  return directory

def fat16CopyDirectoryItem (item : FatDirectoryItem) : KernelProg Nat := do
  let copy ← kzalloc 32 (.directoryItems [zeroDirectoryItem])
  if copy = 0 then return 0
  store copy (.directoryItems [item])
  return copy

def fat16NewFatItemForDirectoryItem (dev : BlockDevice) (item : FatDirectoryItem) : KernelProg Nat := do
  let fatItem ← kzalloc 8 (.fatItem ⟨0,.directory⟩)
  if fatItem = 0 then return 0
  if FatDirectoryItem.isSubdirectory item then
    let directory ← fat16LoadFatDirectory dev item
    store fatItem (.fatItem ⟨directory,.directory⟩)
    return fatItem
  else
    let copy ← fat16CopyDirectoryItem item
    store fatItem (.fatItem ⟨copy,.file⟩)
    return fatItem

-- One loop of fat16_get_full_filename: the characters stored, and what is left
-- of max_len, which is also non-zero when it is negative.
def copyUntilSpace : List UInt8 → Int → List UInt8 × Int
  | [],maxLen => ([],maxLen)
  | c::rest,maxLen =>
    if maxLen = 0 then ([],maxLen) else
    if c = asciiTerm ∨ isspace c then ([],maxLen) else
    let (out,left) := copyUntilSpace rest (maxLen-1)
    (c::out,left)

def dot : UInt8 := 0x2E

-- The bytes stored from `out` on.
def fat16GetFullFilename (item : FatDirectoryItem) (maxLen : Int) : List UInt8 :=
  let (name,left) := copyUntilSpace item.filename (maxLen-1)
  if FatDirectoryItem.isSubdirectory item then name++[asciiTerm] else
  let left := left-1
  if left = 0 then name else
  let (ext,_) := copyUntilSpace item.ext left
  name++[dot]++ext++[asciiTerm]

def entryMatches (item : FatDirectoryItem) (name : List UInt8) : Bool :=
  istrncmp (fat16GetFullFilename item nutsosMaxPath) name nutsosMaxPath == 0

-- The search from index i over `count` more entries.
def findItem (dev : BlockDevice) (directory : FatDirectory) (name : List UInt8) : Nat → Nat → KernelProg Nat
  | 0,_ => pure 0
  | count+1,i => do
    let items ← loadAs asDirectoryItems directory.item
    match items[i]? with
    | none => Prog.fault (.outOfBounds i)
    | some item =>
      if entryMatches item name then fat16NewFatItemForDirectoryItem dev item
      else findItem dev directory name count (i+1)

def fat16FindItemInDirectory (dev : BlockDevice) (directory : FatDirectory) (name : List UInt8) : KernelProg Nat :=
  findItem dev directory name directory.total.toNat 0

def fat16SectorToAbsAddress (disk : Disk) (sector : Int) : Int := toInt32 (sector*disk.sectorSize)

-- The result with directory_out; an array that is not read in full is lost.
def fat16GetRootDirectory (dev : BlockDevice) (directoryOut : FatDirectory) : KernelProg (Int × FatDirectory) := do
  let fatPrivate ← onDisk loadPrivate
  let primaryHeader := fatPrivate.primaryHeader
  let rootDirSectorPos := primaryHeader.fatCopies*primaryHeader.sectorsPerFat+primaryHeader.reservedSectors
  let rootDirEntries := primaryHeader.rootDirEntries
  let rootDirSize := rootDirEntries*32
  let disk := (← Prog.get).disk
  if disk.sectorSize = 0 then Prog.fault .divideByZero else
  let totalRootSectors := (rootDirSize : Int).tdiv disk.sectorSize
  let totalRootSectors :=
    if (rootDirSize : Int).tmod disk.sectorSize ≠ 0 then totalRootSectors+1 else totalRootSectors
  let totalItems ← onDisk (fat16GetTotalItemsForDirectory dev rootDirSectorPos)
  let dir ← kzalloc rootDirSize (.directoryItems (List.replicate rootDirEntries zeroDirectoryItem))
  if dir = 0 then return (-enomem,directoryOut)
  let stream := fatPrivate.directoryStream
  if (← onDisk (seekStream stream (fat16SectorToAbsAddress disk rootDirSectorPos))) ≠ 0 then
    return (-eio,directoryOut)
  let (res,bytes) ← onDisk (readStream dev stream rootDirSize)
  if res ≠ 0 then return (-eio,directoryOut)
  Prog.when (rootDirSize ≠ 0) do
    let old ← loadAs asDirectoryItems dir
    store dir (.directoryItems (directoryItems old.length bytes))
  return (0,⟨dir,totalItems,rootDirSectorPos,rootDirSectorPos+totalRootSectors⟩)

end NutsOS.Fat16
