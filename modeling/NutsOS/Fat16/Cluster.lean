import NutsOS.Lib.Prog
import NutsOS.Disk.Stream

-- fat16.c: the mounted volume, the cluster chain and the cluster reader.
namespace NutsOS.Fat16
open Word32 DiskStreams

def nutsosFat16FatEntrySize : Int := 0x02
def nutsosFat16FreeCluster : Int := 0x0000
def nutsosFat16BadSector : Int := 0xFFF7
def nutsosFat16IsLastSector (x : Int) : Bool := x == 0xFFFF || x == 0xFFF8
def nutsosFat16IsReservedSector (x : Int) : Bool := x == 0xFFF0 || x == 0xFFF5 || x == 0xFFF6

structure FatHeaderMain where
  sectorsPerCluster : Nat
  reservedSectors : Nat
  fatCopies : Nat
  rootDirEntries : Nat
  sectorsPerFat : Nat

-- `item` points to the entries of the directory.
structure FatDirectory where
  item : Nat
  total : Int
  sectorPos : Int
  endingSectorPos : Int

-- The stream fields are pointers into the streams of the disk below.
structure FatPrivate where
  primaryHeader : FatHeaderMain
  rootDirectory : FatDirectory
  fatTableAddress : Nat
  bytesPerCluster : Int
  clusterReadStream : Nat
  fatReadStream : Nat
  directoryStream : Nat

inductive Filesystem where
  | fat16
  deriving DecidableEq

-- struct disk with the objects that only the driver reaches through it.
structure Disk where
  sectorSize : Int
  filesystem : Option Filesystem
  fsPrivate : Option FatPrivate
  streams : Nat → Option DiskStream

abbrev DiskProg := Prog Fault Disk

def Disk.withStream (disk : Disk) (ptr : Nat) (stream : DiskStream) : Disk :=
  {disk with streams := fun a => if a = ptr then some stream else disk.streams a}

def loadPrivate : DiskProg FatPrivate := do
  match (← Prog.get).fsPrivate with
  | none => Prog.fault .nullDeref
  | some fprivate => pure fprivate

theorem loadPrivate_known (known : disk.fsPrivate = some fprivate) : loadPrivate disk = .ok (fprivate,disk) := by
  unfold loadPrivate
  simp [known]

def loadStream (ptr : Nat) : DiskProg DiskStream := do
  match (← Prog.get).streams ptr with
  | none => Prog.fault (Fault.deref ptr)
  | some stream => pure stream

theorem loadStream_run {disk : Disk} (found : disk.streams ptr = some stream) : loadStream ptr disk = .ok (stream,disk) := by
  unfold loadStream
  simp [found]

def seekStream (ptr : Nat) (pos : Int) : DiskProg Int := do
  let (res,stream) := diskstreamSeek (← loadStream ptr) pos
  Prog.modify (fun disk => disk.withStream ptr stream)
  pure res

def readStream (dev : BlockDevice) (ptr : Nat) (total : Int) : DiskProg (Int × List UInt8) := do
  match diskstreamRead dev (← loadStream ptr) total with
  | .error e => Prog.fault e
  | .ok (res,bytes,stream) =>
    Prog.modify (fun disk => disk.withStream ptr stream)
    pure (res,bytes)

def fat16ClusterToSector (fprivate : FatPrivate) (cluster : Int) : Int :=
  let clusterIdx := toInt32 (cluster-2)
  toInt32 (fprivate.rootDirectory.endingSectorPos +
    toInt32 (clusterIdx * fprivate.primaryHeader.sectorsPerCluster))

-- A uint16_t that is zero where nothing was read.
def word16 (bytes : List UInt8) : Int := (bytes.getD 0 0).toNat + 256*(bytes.getD 1 0).toNat

def fat16GetFatEntryForCluster (dev : BlockDevice) (cluster : Int) : DiskProg Int := do
  let fprivate ← loadPrivate
  let stream := fprivate.fatReadStream
  if stream = 0 then return -eio
  let res ← seekStream stream (toInt32 (fprivate.fatTableAddress + toInt32 (cluster * nutsosFat16FatEntrySize)))
  if res < 0 then return res
  let (res,result) ← readStream dev stream 2
  if res < 0 then return res
  return word16 result

-- The walk of fat16_get_cluster_for_offset along `count` entries.
def walkChain (dev : BlockDevice) : Nat → Int → DiskProg Int
  | 0,targetCluster => pure targetCluster
  | count+1,targetCluster => do
    let entry ← fat16GetFatEntryForCluster dev targetCluster
    if nutsosFat16IsLastSector entry then return -eio
    if entry = nutsosFat16BadSector then return -eio
    if nutsosFat16IsReservedSector entry then return -eio
    if entry = nutsosFat16FreeCluster then return -eio
    walkChain dev count entry

def fat16GetClusterForOffset (dev : BlockDevice) (fromCluster offset : Int) : DiskProg Int := do
  let fprivate ← loadPrivate
  if fprivate.bytesPerCluster = 0 then Prog.fault .divideByZero else
  let offsetToCluster := offset.tdiv fprivate.bytesPerCluster
  walkChain dev offsetToCluster.toNat fromCluster

-- One level of the recursion for each unit of fuel. The bytes are those
-- stored from `out` on, also when the result is an error.
def readInternalLevel (dev : BlockDevice) : Nat → Int → Int → Int → DiskProg (Int × List UInt8)
  | 0,_,_,_ => Prog.fault .unbounded
  | fuel+1,startingCluster,offset,total => do
    let fprivate ← loadPrivate
    let stream := fprivate.clusterReadStream
    let targetCluster ← fat16GetClusterForOffset dev startingCluster offset
    if targetCluster < 0 then return (targetCluster,[])
    let offsetFromCluster := offset.tmod fprivate.bytesPerCluster
    let startingSector := fat16ClusterToSector fprivate targetCluster
    let startingPos := toInt32 (toInt32 (startingSector * (← Prog.get).sectorSize) + offsetFromCluster)
    let bytesLeftToReadInCluster := toInt32 (fprivate.bytesPerCluster - offsetFromCluster)
    let totalToRead := if total > bytesLeftToReadInCluster then bytesLeftToReadInCluster else total
    let res ← seekStream stream startingPos
    if res < 0 then return (res,[])
    let (res,bytes) ← readStream dev stream totalToRead
    if res < 0 then return (res,bytes)
    if total > totalToRead then
      let (res,rest) ← readInternalLevel dev fuel targetCluster (toInt32 (offset + totalToRead))
        (toInt32 (total - totalToRead))
      return (res,bytes++rest)
    return (res,bytes)

def fat16ReadInternal (dev : BlockDevice) (startingCluster offset total : Int) :
    DiskProg (Int × List UInt8) :=
  readInternalLevel dev (total.toNat+1) startingCluster offset total

end NutsOS.Fat16
