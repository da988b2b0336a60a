import NutsOS.Paging.Chunk

-- task.c: the task list and its operations.
namespace NutsOS.Tasks
open Word32 Paging

def gdtUserCodeOffset : Nat := 3*8
def gdtUserDataOffset : Nat := 4*8
def gdtPrivilegeRing3 : Nat := 3

def zeroRegisters : Registers := ⟨0,0,0,0,0,0,0,0,0,0,0,0⟩
def zeroTask : NutsOS.Task := ⟨0,zeroRegisters,0,0,0⟩

def asTask : Obj → Option NutsOS.Task
  | .task task => some task
  | _ => none

def updateTask (ptr : Nat) (f : NutsOS.Task → NutsOS.Task) : KernelProg Unit := do
  let task ← loadAs asTask ptr
  store ptr (.task (f task))

def setCurrentTask (ptr : Nat) : KernelProg Unit := Prog.modify (fun k => {k with currentTask := ptr})
def setTaskHead (ptr : Nat) : KernelProg Unit := Prog.modify (fun k => {k with taskHead := ptr})
def setTaskTail (ptr : Nat) : KernelProg Unit := Prog.modify (fun k => {k with taskTail := ptr})

def taskGetNext : KernelProg Nat := do
  let current ← loadAs asTask (← Prog.get).currentTask
  if current.next = 0 then return (← Prog.get).taskHead
  return current.next

-- task_list_remove, in two parts: the neighbours' links, then the variables
-- that may name the task.
def taskListUnlink (ptr : Nat) : KernelProg Unit := do
  let task ← loadAs asTask ptr
  Prog.when (task.prev ≠ 0) do
    updateTask task.prev (fun p => {p with next := task.next})
    let task ← loadAs asTask ptr
    updateTask task.next (fun n => {n with prev := task.prev})

def taskListRetarget (ptr : Nat) : KernelProg Unit := do
  Prog.when (ptr = (← Prog.get).taskHead) do
    setTaskHead (← loadAs asTask ptr).next
  Prog.when (ptr = (← Prog.get).taskTail) do
    setTaskTail (← loadAs asTask ptr).prev
  Prog.when (ptr = (← Prog.get).currentTask) do
    setCurrentTask (← taskGetNext)

def taskListRemove (ptr : Nat) : KernelProg Unit := do
  taskListUnlink ptr
  taskListRetarget ptr

def taskFree (ptr : Nat) : KernelProg Unit := do
  let task ← loadAs asTask ptr
  pagingChunkFree task.pageDirectory
  taskListRemove ptr
  kfree ptr

def taskInit (ptr process : Nat) : KernelProg Int := do
  updateTask ptr (fun _ => zeroTask)
  let pageDirectory ← pagingChunkNew pagingTotalDirEntries pagingTotalEntriesPerTable
    (pagingIsPresent ||| pagingAccessFromAll)
  updateTask ptr (fun task => {task with pageDirectory := pageDirectory})
  if pageDirectory = 0 then return -eio
  updateTask ptr (fun task => {task with
    registers := {task.registers with
      ip := nutsosProgramVirtualAddress
      ss := gdtUserDataOffset ||| gdtPrivilegeRing3
      cs := gdtUserCodeOffset ||| gdtPrivilegeRing3
      esp := nutsosProgramVirtualStackAddressStart}
    process := process})
  return 0

def taskNew (process : Nat) : KernelProg Nat := do
  let ptr ← kzalloc 64 (.task zeroTask)
  if ptr = 0 then
    taskFree ptr
    return errToPtr (-enomem)
  let res ← taskInit ptr process
  if res < 0 then
    taskFree ptr
    return errToPtr res
  if (← Prog.get).taskHead = 0 then
    setTaskHead ptr
    setTaskTail ptr
    return ptr
  let tail := (← Prog.get).taskTail
  updateTask tail (fun t => {t with next := ptr})
  updateTask ptr (fun t => {t with prev := tail})
  setTaskTail ptr
  return ptr

def taskSwitch (ptr : Nat) : KernelProg Int := do
  setCurrentTask ptr
  let task ← loadAs asTask ptr
  let chunk ← loadAs asPagingChunk task.pageDirectory
  pagingSwitch chunk.directoryEntry
  return 0

end NutsOS.Tasks
