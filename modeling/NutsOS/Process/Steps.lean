import NutsOS.File.Steps
import NutsOS.Process.Load
import NutsOS.Task.Creation

-- The same for the page directories, the tasks and the processes.
namespace NutsOS.Discipline
open Word32 HeapAlloc DiskStreams Paging Tasks Processes Prog

variable {R : Kernel → Kernel → Prop} (rules : Discipline R)
include rules

theorem getWord (ptr i : Nat) : Within R (Paging.getWord ptr i) :=
  rules.bind (rules.loadAs _ _) (fun _ => within_ite (within_fault _) (rules.pure _))

theorem setWord (ptr i value : Nat) : Within R (Paging.setWord ptr i value) := by
  refine rules.update asWords_eq (fun words k after ran => ?_)
  by_cases outside : words.count ≤ i
  · rw [if_pos outside] at ran
    cases ran
  · rw [if_neg outside] at ran
    cases ran
    exact ⟨_,rfl,Nat.le_refl _⟩

theorem fillTable (entry : Nat) (offset : Int) (flags count b : Nat) : Within R (Paging.fillTable entry offset flags count b) := by
  induction count generalizing b with
  | zero => exact rules.pure _
  | succ count ih => exact rules.bind (rules.setWord _ _ _) (fun _ => ih _)

-- The bytes that are asked for hold the words they are used as.
def WordsFit (count : Int) : Prop := 4*count.toNat ≤ toUint32 (4*count)

omit rules in
theorem zeroWords_fit (fit : WordsFit count) : (zeroWords count).size ≤ toUint32 (4*count) := fit

theorem fillDirectory (directory : Nat) (fit : WordsFit pageEntries) (flags count i : Nat) (offset : Int) :
    Within R (Paging.fillDirectory directory pageEntries flags count i offset) := by
  induction count generalizing i offset with
  | zero => exact rules.pure _
  | succ count ih =>
    refine rules.bind (rules.kzalloc _ _ (zeroWords_fit fit)) (fun entry => rules.bind (rules.fillTable _ _ _ _ _) (fun _ => ?_))
    exact rules.bind (rules.setWord _ _ _) (fun _ => ih _ _)

theorem pagingChunkNew (dirs : WordsFit dirEntries) (pages : WordsFit pageEntries) (flags : Nat) :
    Within R (Paging.pagingChunkNew dirEntries pageEntries flags) := by
  refine rules.bind (rules.kzalloc _ _ (zeroWords_fit dirs)) (fun directory => rules.bind (rules.fillDirectory _ pages _ _ _ _) (fun _ => ?_))
  refine rules.bind (rules.kzalloc _ _ (by decide)) (fun chunk => rules.bind (rules.loadAs _ _) (fun _ => ?_))
  exact rules.bind (rules.store _ _ rfl) (fun _ => rules.pure _)

theorem freeTables (directory count i : Nat) : Within R (Paging.freeTables directory count i) := by
  induction count generalizing i with
  | zero => exact rules.pure _
  | succ count ih => exact rules.bind (rules.getWord _ _) (fun _ => rules.bind (rules.kfree _) (fun _ => ih _))

theorem pagingChunkFree (chunk : Nat) : Within R (Paging.pagingChunkFree chunk) := by
  refine rules.bind (rules.loadAs _ _) (fun c => rules.bind (rules.freeTables _ _ _) (fun _ => ?_))
  exact rules.bind (rules.kfree _) (fun _ => rules.kfree _)

theorem pagingMap (directory virt phys : Nat) (flags : Int) : Within R (Paging.pagingMap directory virt phys flags) := by
  refine within_ite (rules.pure _) (within_ite (rules.pure _) ?_)
  cases pagingGetIndexes virt with
  | error res => exact rules.pure _
  | ok indexes => exact rules.bind (rules.getWord _ _) (fun _ => rules.bind (rules.setWord _ _ _) (fun _ => rules.pure _))

theorem mapRangeLoop (directory : Nat) (flags : Int) (count virt phys : Nat) (res : Int) :
    Within R (Paging.mapRangeLoop directory flags count virt phys res) := by
  induction count generalizing virt phys res with
  | zero => exact rules.pure _
  | succ count ih => exact rules.bind (rules.pagingMap _ _ _ _) (fun res => within_ite (rules.pure _) (ih _ _ _))

theorem pagingMapTo (directory virt phys physEnd : Nat) (flags : Int) : Within R (Paging.pagingMapTo directory virt phys physEnd flags) :=
  within_ite (rules.pure _) (within_ite (rules.pure _) (rules.mapRangeLoop _ _ _ _ _ _))

end NutsOS.Discipline

namespace NutsOS.TaskDiscipline
open Word32 HeapAlloc DiskStreams Paging Tasks Processes Prog Discipline

variable {R : Kernel → Kernel → Prop} (rules : TaskDiscipline R)
include rules

theorem updateTask (ptr : Nat) (f : NutsOS.Task → NutsOS.Task) : Within R (Tasks.updateTask ptr f) :=
  rules.bind (rules.loadAs _ _) (fun _ => rules.store _ _ rfl)

theorem setTaskHead (ptr : Nat) : Within R (Tasks.setTaskHead ptr) := within_modify (fun k => rules.tasks k ptr k.taskTail k.currentTask)
theorem setTaskTail (ptr : Nat) : Within R (Tasks.setTaskTail ptr) := within_modify (fun k => rules.tasks k k.taskHead ptr k.currentTask)
theorem setCurrentTask (ptr : Nat) : Within R (Tasks.setCurrentTask ptr) := within_modify (fun k => rules.tasks k k.taskHead k.taskTail ptr)

theorem taskGetNext : Within R Tasks.taskGetNext :=
  rules.get (fun _ => rules.bind (rules.loadAs _ _) (fun _ => within_ite (rules.get (fun _ => rules.pure _)) (rules.pure _)))

theorem taskListRemove (ptr : Nat) : Within R (Tasks.taskListRemove ptr) := by
  refine rules.bind (rules.bind (rules.loadAs _ _) (fun task => rules.when ?_)) (fun _ => ?_)
  · exact rules.bind (rules.updateTask _ _) (fun _ => rules.bind (rules.loadAs _ _) (fun _ => rules.updateTask _ _))
  · refine rules.get (fun k => rules.bind (rules.when ?_) (fun _ => ?_))
    · exact rules.bind (rules.loadAs _ _) (fun _ => rules.setTaskHead _)
    · refine rules.get (fun k => rules.bind (rules.when ?_) (fun _ => ?_))
      · exact rules.bind (rules.loadAs _ _) (fun _ => rules.setTaskTail _)
      · exact rules.get (fun k => rules.when (rules.bind rules.taskGetNext (fun _ => rules.setCurrentTask _)))

theorem taskFree (ptr : Nat) : Within R (Tasks.taskFree ptr) := by
  refine rules.bind (rules.loadAs _ _) (fun task => rules.bind (rules.pagingChunkFree _) (fun _ => ?_))
  exact rules.bind (rules.taskListRemove _) (fun _ => rules.kfree _)

theorem taskInit (ptr process : Nat) : Within R (Tasks.taskInit ptr process) := by
  have fit : WordsFit 1024 := by
    unfold WordsFit
    decide
  refine rules.bind (rules.updateTask _ _) (fun _ => rules.bind (rules.pagingChunkNew fit fit _) (fun chunk => ?_))
  refine rules.bind (rules.updateTask _ _) (fun _ => within_ite (rules.pure _) ?_)
  exact rules.bind (rules.updateTask _ _) (fun _ => rules.pure _)

theorem taskNew (process : Nat) : Within R (Tasks.taskNew process) := by
  have failed (ptr : Nat) (code : Int) : Within R (do
      Tasks.taskFree ptr
      return errToPtr code) := rules.bind (rules.taskFree _) (fun _ => rules.pure _)
  refine rules.bind (rules.kzalloc _ _ (by decide)) (fun ptr => within_ite (failed _ _) ?_)
  refine rules.bind (rules.taskInit _ _) (fun res => within_ite (failed _ _) (rules.get (fun k => ?_)))
  refine within_ite ?_ (rules.get (fun k => rules.bind (rules.updateTask _ _) (fun _ => ?_)))
  · refine rules.bind (rules.setTaskHead _) (fun _ => ?_)
    exact rules.bind (rules.setTaskTail _) (fun _ => rules.pure _)
  · refine rules.bind (rules.updateTask _ _) (fun _ => ?_)
    exact rules.bind (rules.setTaskTail _) (fun _ => rules.pure _)

-- A process is larger than a block, so it is stored where one was read.
theorem updateProcess (ptr : Nat) (f : NutsOS.Process → NutsOS.Process) : Within R (Processes.updateProcess ptr f) := by
  refine rules.update asProcess_eq (fun process k after ran => ?_)
  cases ran
  exact ⟨_,rfl,Nat.le_refl _⟩

theorem closeFile (fd : Nat) (res : Int) : Within R (Processes.closeFile fd res) :=
  rules.bind (rules.loadAs _ _) (fun _ => rules.bind (rules.fclose _) (fun _ => rules.pure _))

theorem processDirectory (process : NutsOS.Process) : Within R (Processes.processDirectory process) :=
  rules.bind (rules.loadAs _ _) (fun _ => rules.bind (rules.loadAs _ _) (fun _ => rules.pure _))

theorem processMapMemory (ptr : Nat) : Within R (Processes.processMapMemory ptr) := by
  have part (f : NutsOS.Process → Nat → KernelProg Int) (mapped : ∀ process directory, Within R (f process directory)) :
      Within R (do
        let process ← NutsOS.loadAs asProcess ptr
        let directory ← Processes.processDirectory process
        f process directory) :=
    rules.bind (rules.loadAs _ _) (fun _ => rules.bind (rules.processDirectory _) (fun _ => mapped _ _))
  refine rules.bind (part _ (fun _ _ => rules.pagingMapTo _ _ _ _ _)) (fun res => within_ite (rules.pure _) ?_)
  exact part _ (fun _ _ => rules.pagingMapTo _ _ _ _ _)

theorem loadFailed (ptr : Nat) (res : Int) : Within R (Processes.loadFailed ptr res) :=
  rules.bind (rules.loadAs _ _) (fun _ => rules.bind (rules.when (rules.taskFree _)) (fun _ => rules.pure _))

theorem binaryOpened (dev : BlockDevice) (fd process : Nat) : Within R (do
    let found ← NutsOS.loadAs Files.asFileDescriptor fd
    let (res,stat) ← Files.fstat found.index
    if res < 0 then Processes.closeFile fd res else
    let filesize := (stat.getD ⟨0,0⟩).filesize
    let programDataPtr ← NutsOS.kzalloc filesize (.chars (List.replicate filesize 0))
    if programDataPtr = 0 then Processes.closeFile fd (-enomem) else
    let found ← NutsOS.loadAs Files.asFileDescriptor fd
    let (read,bytes) ← Files.fread dev filesize 1 found.index
    storeBytes programDataPtr bytes
    if read ≠ 1 then Processes.closeFile fd (-eio) else
    Processes.updateProcess process (fun p => {p with ptr := programDataPtr, size := filesize, ptrVirt := nutsosProgramVirtualAddress})
    Processes.closeFile fd res) := by
  refine rules.bind (rules.loadAs _ _) (fun found => rules.bind (rules.fstat _) (fun told => ?_))
  refine within_ite (rules.closeFile _ _) (rules.bind (rules.kzalloc _ _ (by simp)) (fun programDataPtr => ?_))
  refine within_ite (rules.closeFile _ _) (rules.bind (rules.loadAs _ _) (fun found => ?_))
  refine rules.bind (rules.fread _ _ _ _) (fun result => rules.bind (rules.when (rules.storeChars _ _)) (fun _ => ?_))
  exact within_ite (rules.closeFile _ _) (rules.bind (rules.updateProcess _ _) (fun _ => rules.closeFile _ _))

theorem slotLoaded (processes : ∀ k processes, R k {k with processes := processes}) (filename : List UInt8) (slot process : Nat) :
    Within R (do
      let programStackPtr ← NutsOS.kzalloc nutsosUserProgramStackSize (.chars (List.replicate nutsosUserProgramStackSize 0))
      if programStackPtr = 0 then Processes.loadFailed process (-enomem) else
      Processes.updateProcess process (fun p => {setFilename filename p with
        stack := programStackPtr, stackVirt := nutsosProgramVirtualStackAddressEnd, stackSize := nutsosUserProgramStackSize, id := slot})
      let task ← Tasks.taskNew process
      Processes.updateProcess process (fun p => {p with task := task})
      let res ← Processes.processMapMemory process
      if res < 0 then Processes.loadFailed process res else
      setProcess slot process
      return (res,some process)) := by
  refine rules.bind (rules.kzalloc _ _ (by simp)) (fun programStackPtr => within_ite (rules.loadFailed _ _) ?_)
  refine rules.bind (rules.updateProcess _ _) (fun _ => rules.bind (rules.taskNew _) (fun task => ?_))
  refine rules.bind (rules.updateProcess _ _) (fun _ => rules.bind (rules.processMapMemory _) (fun res => ?_))
  exact within_ite (rules.loadFailed _ _) (rules.bind (within_modify (fun k => processes k _)) (fun _ => rules.pure _))

section
variable (table : ∀ k fileDescriptors errno, R k {k with fileDescriptors := fileDescriptors, errno := errno})
include table

theorem processLoadBinary (dev : BlockDevice) (filename : List UInt8) (process : Nat) :
    Within R (Processes.processLoadBinary dev filename process) :=
  rules.bind (rules.fopen table _ _ _) (fun _ => within_ite (rules.closeFile _ _) (rules.binaryOpened _ _ _))

theorem processLoadForSlot (processes : ∀ k processes, R k {k with processes := processes}) (dev : BlockDevice) (filename : List UInt8) (slot : Nat) :
    Within R (Processes.processLoadForSlot dev filename slot) := by
  refine rules.get (fun k => within_ite (rules.pure _) (rules.bind (rules.kzalloc _ _ (by decide)) (fun process => ?_)))
  refine within_ite (rules.pure _) (rules.bind (rules.updateProcess _ _) (fun _ => ?_))
  refine rules.bind (rules.processLoadBinary table _ _ _) (fun res => within_ite (rules.loadFailed _ _) ?_)
  exact rules.slotLoaded processes _ _ _

theorem processLoad (processes : ∀ k processes, R k {k with processes := processes}) (dev : BlockDevice) (filename : List UInt8) :
    Within R (Processes.processLoad dev filename) :=
  rules.get (fun _ => within_ite (rules.pure _) (rules.processLoadForSlot table processes _ _ _))

end

end NutsOS.TaskDiscipline

namespace NutsOS
open Word32 HeapAlloc Fat16 DiskStreams Paging Tasks Processes Prog

-- The calls that allocate, each with any argument.
inductive KernelCall where
  | mount (dev : BlockDevice)
  | fopen (dev : BlockDevice) (filename modeStr : List UInt8)
  | fread (dev : BlockDevice) (size nmemb : Nat) (fd : Int)
  | fseek (fd offset : Int) (mode : FileSeekMode)
  | fstat (fd : Int)
  | fclose (fd : Int)
  | processLoad (dev : BlockDevice) (filename : List UInt8)
  | taskNew (process : Nat)
  | taskFree (ptr : Nat)
  | mapTo (directory virt phys physEnd : Nat) (flags : Int)
  | kfree (ptr : Nat)

def KernelCall.run : KernelCall → KernelProg Unit
  | .mount dev => fat16Resolve dev >>= fun _ => pure ()
  | .fopen dev filename modeStr => Files.fopen dev filename modeStr >>= fun _ => pure ()
  | .fread dev size nmemb fd => Files.fread dev size nmemb fd >>= fun _ => pure ()
  | .fseek fd offset mode => Files.fseek fd offset mode >>= fun _ => pure ()
  | .fstat fd => Files.fstat fd >>= fun _ => pure ()
  | .fclose fd => Files.fclose fd >>= fun _ => pure ()
  | .processLoad dev filename => Processes.processLoad dev filename >>= fun _ => pure ()
  | .taskNew process => Tasks.taskNew process >>= fun _ => pure ()
  | .taskFree ptr => Tasks.taskFree ptr
  | .mapTo directory virt phys physEnd flags => pagingMapTo directory virt phys physEnd flags >>= fun _ => pure ()
  | .kfree ptr => NutsOS.kfree ptr

def runKernel : List KernelCall → KernelProg Unit
  | [] => pure ()
  | call::rest => do
    call.run
    runKernel rest

theorem call_backed (call : KernelCall) : Within KeepsBacked call.run := by
  have rules := backed_discipline
  have files (k : Kernel) (fileDescriptors : Nat → Nat) (errno : Int) : KeepsBacked k {k with fileDescriptors := fileDescriptors, errno := errno} :=
    fun backed => backed.congr rfl rfl
  have processes (k : Kernel) (table : Nat → Nat) : KeepsBacked k {k with processes := table} := fun backed => backed.congr rfl rfl
  have done {α : Type} {x : KernelProg α} (kept : Within KeepsBacked x) : Within KeepsBacked (x >>= fun _ => pure ()) :=
    rules.bind kept (fun _ => rules.pure _)
  cases call with
  | mount dev => exact done (rules.mount _)
  | fopen dev filename modeStr => exact done (rules.fopen files _ _ _)
  | fread dev size nmemb fd => exact done (rules.fread _ _ _ _)
  | fseek fd offset mode => exact done (rules.fseek _ _ _)
  | fstat fd => exact done (rules.fstat _)
  | fclose fd => exact done (rules.fclose _)
  | processLoad dev filename => exact done (rules.processLoad files processes _ _)
  | taskNew process => exact done (rules.taskNew _)
  | taskFree ptr => exact rules.taskFree _
  | mapTo directory virt phys physEnd flags => exact done (rules.pagingMapTo _ _ _ _ _)
  | kfree ptr => exact rules.kfree _

theorem runKernel_backed (calls : List KernelCall) : Within KeepsBacked (runKernel calls) := by
  induction calls with
  | nil => exact backed_discipline.pure _
  | cons call rest ih => exact backed_discipline.bind (call_backed call) (fun _ => ih)

-- Every object lies in the chunk it starts, unless that was granted over the end
-- of the table. It has its bytes for itself, and its blocks are taken.
structure Housed (k : Kernel) : Prop where
  inside : ∃ chunks, HeapHolds k chunks ∧ ∀ ptr obj, k.objs ptr = some obj →
    ∃ c ∈ chunks, ptr = k.heap.saddr+c.start*4096 ∧ (obj.size ≤ c.len*4096 ∨ k.heap.table.total < c.start+c.len)
  taken : ∀ ptr obj start, k.objs ptr = some obj → start < k.heap.table.total → Extent ptr obj (k.heap.saddr+start*4096) →
    ¬ IsFree k.heap.table.entries start
  apart : ∀ a b one two byte, k.objs a = some one → k.objs b = some two → a ≠ b → Extent a one byte → ¬ Extent b two byte

theorem objects_housed (ran : runKernel calls (bootKernel entries disk) = .ok ((),after)) (valid : HeapValid after) : Housed after := by
  have backed : Backed after := runKernel_backed calls _ _ _ ran (boot_backed entries disk)
  refine ⟨?_,fun _ _ _ held inPool here => backed.taken valid held inPool here,
    fun _ _ _ _ _ one two different here => backed.disjoint valid one two different here⟩
  obtain ⟨chunks,holds⟩ := valid
  refine ⟨chunks,holds,fun ptr obj held => ?_⟩
  obtain ⟨c,member,here,long⟩ := backed.inside holds held
  exact ⟨c,member,here,long.imp_left blocks_cover⟩

theorem runKernel_one {k : Kernel} (call : KernelCall) (ran : call.run k = .ok ((),after)) : runKernel [call] k = .ok ((),after) := bind_run ran

theorem first_task {k : Kernel} (valid : HeapValid k) (first : k.taskHead = 0) (room : Room k.heap 1027) (process : Nat) :
    ∃ after, KernelCall.run (.taskNew process) k = .ok ((),after) ∧ HeapValid after := by
  rcases taskCreate_run valid process with ⟨ptr,middle,created,blocks,allocated,nonnull,init,new,_⟩ | ⟨_,none⟩
  · have head : created.taskHead = 0 := by
      rw [new.grown.rest]
      exact first
    have started : taskNew process k = .ok (ptr,{created with taskHead := ptr, taskTail := ptr}) := by
      unfold taskNew
      rw [bind_run allocated,if_neg nonnull,bind_run init,if_neg (by decide),get_bind,if_pos head]
      rfl
    exact ⟨_,bind_run started,new.valid.congr rfl (fun _ live => live)⟩
  · exact absurd room (none 0)

theorem task_housed : ∃ after, runKernel [.taskNew 0] (bootKernel bootEntries noDisk) = .ok ((),after) ∧ Housed after := by
  obtain ⟨after,ran,valid⟩ := first_task (boot_valid bootEntries noDisk rfl) rfl ((boot_room bootEntries noDisk).less (by decide)) 0
  exact ⟨after,runKernel_one _ ran,objects_housed (runKernel_one _ ran) valid⟩

end NutsOS
