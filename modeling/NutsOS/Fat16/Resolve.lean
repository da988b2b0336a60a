import NutsOS.Fat16.Directory
import NutsOS.Lib.Bytes

-- fat16.c: mounting a volume from its boot sector.
namespace NutsOS.Fat16
open Word32 Bytes DiskStreams Prog

def nutosFat16Signature : UInt8 := 0x29

-- The fields of the 62 bytes of struct fat_header that the driver uses.
def fatHeaderMain (bytes : List UInt8) : FatHeaderMain :=
  ⟨(bytes.getD 13 0).toNat,littleEndian ((bytes.drop 14).take 2),(bytes.getD 16 0).toNat,
    littleEndian ((bytes.drop 17).take 2),littleEndian ((bytes.drop 22).take 2)⟩

def fatSignature (bytes : List UInt8) : UInt8 := bytes.getD 38 0

def FatPrivate.zero (clusterRead fatRead directory : Nat) : FatPrivate :=
  ⟨⟨0,0,0,0,0⟩,⟨0,0,0,0⟩,0,0,clusterRead,fatRead,directory⟩

-- A stream is written to as soon as it is allocated.
def diskstreamNew : KernelProg Nat := do
  let stream ← kzalloc 8 (.chars (List.replicate 8 0))
  if stream = 0 then Prog.fault .nullDeref else
  onDisk (Prog.modify (fun disk => disk.withStream stream ⟨0⟩))
  return stream

def diskstreamClose (stream : Nat) : KernelProg Unit := do
  onDisk (Prog.modify (fun disk => {disk with streams := fun a => if a = stream then none else disk.streams a}))
  kfree stream

def setPrivate (fprivate : Option FatPrivate) : KernelProg Unit :=
  onDisk (Prog.modify (fun disk => {disk with fsPrivate := fprivate}))

theorem setPrivate_run (fprivate : Option FatPrivate) (k : Kernel) :
    setPrivate fprivate k = .ok ((),{k with disk := {k.disk with fsPrivate := fprivate}}) := rfl

-- Between the labels: from the first read of the volume to `out`.
def resolveVolume (dev : BlockDevice) (stream : Nat) : KernelProg Int := do
  let (res,bytes) ← onDisk (readStream dev stream 62)
  if res ≠ 0 then return -eio
  let fprivate ← onDisk loadPrivate
  let fprivate := {fprivate with primaryHeader := fatHeaderMain bytes}
  setPrivate (some fprivate)
  if fatSignature bytes ≠ nutosFat16Signature then return -einvalid
  let sectorSize := (← Prog.get).disk.sectorSize
  let fprivate := {fprivate with
    fatTableAddress := toUint32 (fprivate.primaryHeader.reservedSectors*sectorSize)
    bytesPerCluster := toInt32 (fprivate.primaryHeader.sectorsPerCluster*sectorSize)}
  setPrivate (some fprivate)
  let (res,directory) ← fat16GetRootDirectory dev fprivate.rootDirectory
  if res ≠ 0 then return -eio
  setPrivate (some {fprivate with rootDirectory := directory})
  return 0

def fat16Resolve (dev : BlockDevice) : KernelProg Int := do
  let fatPrivate ← kzalloc 104 (.chars (List.replicate 104 0))
  if fatPrivate = 0 then Prog.fault .nullDeref else
  let clusterRead ← diskstreamNew
  let fatRead ← diskstreamNew
  let directory ← diskstreamNew
  onDisk (Prog.modify (fun disk => {disk with
    fsPrivate := some (FatPrivate.zero clusterRead fatRead directory)
    filesystem := some .fat16}))
  let stream ← diskstreamNew
  let res ← resolveVolume dev stream
  diskstreamClose stream
  Prog.when (res < 0) do
    kfree fatPrivate
    setPrivate none
  return res

end NutsOS.Fat16
