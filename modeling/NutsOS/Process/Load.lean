import NutsOS.File.File
import NutsOS.Process.Pointer
import NutsOS.Task.List

-- process.c: how a file becomes a process.
namespace NutsOS.Processes
open Word32 DiskStreams Stdutil Files Paging Tasks

def zeroProcess : NutsOS.Process := ⟨0,List.replicate nutsosMaxPath 0,0,0,0,0,0,0,0⟩

def updateProcess (ptr : Nat) (f : NutsOS.Process → NutsOS.Process) : KernelProg Unit := do
  let process ← loadAs asProcess ptr
  store ptr (.process (f process))

def setProcess (slot ptr : Nat) : KernelProg Unit :=
  Prog.modify (fun k => {k with processes := fun i => if i = slot then ptr else k.processes i})

def processGet (k : Kernel) (processId : Int) : Nat :=
  if processId < 0 ∨ processId ≥ nutsosMaxProcesses then errToPtr (-einvarg) else k.processes processId.toNat

def storeBytes (buf : Nat) (bytes : List UInt8) : KernelProg Unit :=
  Prog.when (bytes ≠ []) (storeChars buf bytes)

-- The common exit of process_load_binary reads the index through fd.
def closeFile (fd : Nat) (res : Int) : KernelProg Int := do
  let found ← loadAs asFileDescriptor fd
  let _ ← fclose found.index
  return res

def processLoadBinary (dev : BlockDevice) (filename : List UInt8) (process : Nat) : KernelProg Int := do
  let fd ← fopen dev filename [charR]
  if fd = 0 then closeFile fd (-eio) else
  let found ← loadAs asFileDescriptor fd
  let (res,stat) ← fstat found.index
  if res < 0 then closeFile fd res else
  let filesize := (stat.getD ⟨0,0⟩).filesize
  let programDataPtr ← kzalloc filesize (.chars (List.replicate filesize 0))
  if programDataPtr = 0 then closeFile fd (-enomem) else
  let found ← loadAs asFileDescriptor fd
  let (read,bytes) ← fread dev filesize 1 found.index
  storeBytes programDataPtr bytes
  if read ≠ 1 then closeFile fd (-eio) else
  updateProcess process (fun p => {p with ptr := programDataPtr, size := filesize, ptrVirt := nutsosProgramVirtualAddress})
  closeFile fd res

def processLoadData (dev : BlockDevice) (filename : List UInt8) (process : Nat) : KernelProg Int :=
  processLoadBinary dev filename process

def programFlags : Nat := pagingIsPresent ||| pagingAccessFromAll ||| pagingIsWriteable

-- process->task->page_directory->directory_entry
def processDirectory (process : NutsOS.Process) : KernelProg Nat := do
  let task ← loadAs asTask process.task
  let chunk ← loadAs asPagingChunk task.pageDirectory
  return chunk.directoryEntry

def processMapBinary (ptr : Nat) : KernelProg Int := do
  let process ← loadAs asProcess ptr
  let directory ← processDirectory process
  pagingMapTo directory nutsosProgramVirtualAddress process.ptr
    (pagingAlignAddress (toUint32 ((process.ptr+process.size : Nat) : Int))) programFlags

def processMapMemory (ptr : Nat) : KernelProg Int := do
  let res ← processMapBinary ptr
  if res < 0 then return res
  let process ← loadAs asProcess ptr
  let directory ← processDirectory process
  pagingMapTo directory nutsosProgramVirtualStackAddressEnd process.stack
    (pagingAlignAddress (toUint32 ((process.stack+nutsosUserProgramStackSize : Nat) : Int))) programFlags

-- strncpy stores one character more than the size it is given: behind the name
-- that is padding, which nothing reads.
def setFilename (filename : List UInt8) (process : NutsOS.Process) : NutsOS.Process :=
  let stored := strncpy filename nutsosMaxPath
  {process with filename := (stored++process.filename.drop stored.length).take nutsosMaxPath}

def loadFailed (ptr : Nat) (res : Int) : KernelProg (Int × Option Nat) := do
  let process ← loadAs asProcess ptr
  Prog.when (process.task ≠ 0) (taskFree process.task)
  return (res,none)

-- The result, and what is stored through the out parameter. The error that
-- ISERR looks for in the task pointer would be overwritten by the mapping.
def processLoadForSlot (dev : BlockDevice) (filename : List UInt8) (slot : Nat) : KernelProg (Int × Option Nat) := do
  if processGet (← Prog.get) slot ≠ 0 then return (-etaken,none)
  let process ← kzalloc 4384 (.process zeroProcess)
  if process = 0 then return (-enomem,none)
  updateProcess process (fun _ => zeroProcess)
  let res ← processLoadData dev filename process
  if res < 0 then loadFailed process res else
  let programStackPtr ← kzalloc nutsosUserProgramStackSize (.chars (List.replicate nutsosUserProgramStackSize 0))
  if programStackPtr = 0 then loadFailed process (-enomem) else
  updateProcess process (fun p => {setFilename filename p with
    stack := programStackPtr, stackVirt := nutsosProgramVirtualStackAddressEnd, stackSize := nutsosUserProgramStackSize, id := slot})
  let task ← taskNew process
  updateProcess process (fun p => {p with task := task})
  let res ← processMapMemory process
  if res < 0 then loadFailed process res else
  setProcess slot process
  return (res,some process)

-- The search of process_load over `count` more slots.
def freeSlotFrom (k : Kernel) : Nat → Nat → Int
  | 0,_ => -1
  | count+1,i => if k.processes i = 0 then i else freeSlotFrom k count (i+1)

def processLoad (dev : BlockDevice) (filename : List UInt8) : KernelProg (Int × Option Nat) := do
  let processSlot := freeSlotFrom (← Prog.get) nutsosMaxProcesses 0
  if processSlot < 0 then return (-enomem,none)
  processLoadForSlot dev filename processSlot.toNat

end NutsOS.Processes
