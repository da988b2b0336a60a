import NutsOS.Fat16.Driver

-- file.c: the descriptor table and the calls on it.
namespace NutsOS.Files
open Word32 DiskStreams Stdutil Fat16

def asFileDescriptor : Obj → Option FileDescriptor
  | .fileDescriptor descriptor => some descriptor
  | _ => none

def zeroFileDescriptor : FileDescriptor := ⟨0,none,0,.read,none⟩

def setErrno (e : Int) : KernelProg Unit := Prog.modify (fun k => {k with errno := e})

def setSlot (i desc : Nat) : KernelProg Unit :=
  Prog.modify (fun k => {k with fileDescriptors := fun j => if j = i then desc else k.fileDescriptors j})

-- The search of file_descriptor_new over `count` more slots.
def newDescriptorFrom : Nat → Nat → KernelProg (Int × Nat)
  | 0,_ => pure (-enomem,0)
  | count+1,i => do
    if (← Prog.get).fileDescriptors i = 0 then
      let desc ← kzalloc 20 (.fileDescriptor zeroFileDescriptor)
      let found ← loadAs asFileDescriptor desc
      store desc (.fileDescriptor {found with index := i+1})
      setSlot i desc
      return (0,desc)
    else newDescriptorFrom count (i+1)

def fileDescriptorNew : KernelProg (Int × Nat) := newDescriptorFrom nutsosMaxFileDescriptors 0

def fileGetDescriptor (k : Kernel) (fd : Int) : Nat :=
  if fd ≤ 0 ∨ fd ≥ nutsosMaxFileDescriptors then 0 else k.fileDescriptors (fd-1).toNat

def charR : UInt8 := 0x72
def charW : UInt8 := 0x77
def charA : UInt8 := 0x61

def fileModeFromString (str : List UInt8) : FileMode :=
  if strncmp str [charR] 1 = 0 then .read
  else if strncmp str [charW] 1 = 0 then .write
  else if strncmp str [charA] 1 = 0 then .append
  else .invalid

-- disk_get: the only disk is drive 0.
def diskGet (index : Int) : Option DiskId := if index ≠ 0 then none else some .disk

-- ISERR compares the pointer with 0, and no pointer is below it.
def isErrPtr (ptr : Nat) : Bool := ptr < 0

-- fopen up to the point where it takes a slot: the driver's private data, or
-- what errno becomes.
def openPath (dev : BlockDevice) (filename modeStr : List UInt8) : KernelProg (Except Int Nat) := do
  let rootPath ← pathparserParse filename
  if rootPath = 0 then return .error (-einvarg)
  let root ← loadAs asPathRoot rootPath
  if root.first = 0 then return .error (-einvarg)
  if diskGet root.driveNo = none then return .error (-eio)
  if (← Prog.get).disk.filesystem = none then return .error (-eio)
  let mode := fileModeFromString modeStr
  if mode = .invalid then return .error (-einvarg)
  let descriptorPrivateData ← fat16Open dev root.first mode
  if isErrPtr descriptorPrivateData then return .error (toInt32 descriptorPrivateData)
  return .ok descriptorPrivateData

-- The rest of fopen; the path has been resolved on drive 0 by the only driver.
def openDescriptor (descriptorPrivateData : Nat) (mode : FileMode) : KernelProg Nat := do
  let (res,fdesc) ← fileDescriptorNew
  setErrno res
  if res < 0 then return 0
  let found ← loadAs asFileDescriptor fdesc
  store fdesc (.fileDescriptor {found with
    filesystem := some .fat16, fprivate := descriptorPrivateData, mode := mode, disk := some .disk})
  return fdesc

def fopen (dev : BlockDevice) (filename modeStr : List UInt8) : KernelProg Nat := do
  match ← openPath dev filename modeStr with
  | .error e =>
    setErrno e
    return 0
  | .ok descriptorPrivateData => openDescriptor descriptorPrivateData (fileModeFromString modeStr)

def loadFilesystem (desc : FileDescriptor) : KernelProg Filesystem :=
  match desc.filesystem with
  | none => Prog.fault .nullDeref
  | some filesystem => pure filesystem

-- A size_t: the number of items, or an error code; with the bytes stored.
def fread (dev : BlockDevice) (size nmemb : Nat) (fd : Int) : KernelProg (Nat × List UInt8) := do
  if size = 0 ∨ nmemb = 0 ∨ fd < 1 then return (toUint32 (-einvarg),[])
  let desc := fileGetDescriptor (← Prog.get) fd
  if desc = 0 then return (toUint32 (-einvarg),[])
  let found ← loadAs asFileDescriptor desc
  match ← loadFilesystem found with
  | .fat16 => fat16Read dev found.fprivate size nmemb

def fseek (fd offset : Int) (mode : FileSeekMode) : KernelProg Int := do
  let desc := fileGetDescriptor (← Prog.get) fd
  if desc = 0 then return -eio
  let found ← loadAs asFileDescriptor desc
  match ← loadFilesystem found with
  | .fat16 => fat16Seek found.fprivate (toUint32 offset) mode

def fstat (fd : Int) : KernelProg (Int × Option FileStat) := do
  let desc := fileGetDescriptor (← Prog.get) fd
  if desc = 0 then return (-eio,none)
  let found ← loadAs asFileDescriptor desc
  match ← loadFilesystem found with
  | .fat16 => fat16Stat found.fprivate

def fclose (fd : Int) : KernelProg Int := do
  let desc := fileGetDescriptor (← Prog.get) fd
  if desc = 0 then return -eio
  let found ← loadAs asFileDescriptor desc
  match ← loadFilesystem found with
  | .fat16 =>
    let _ ← fat16Close found.fprivate
    return 0

end NutsOS.Files
