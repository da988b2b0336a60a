import NutsOS.File.Located
import NutsOS.Isr80h.Calls
import NutsOS.Process.Isolation
import NutsOS.Task.Return

-- The end of kmain: from a program on the disk to its first instruction in ring 3.
namespace NutsOS.Processes
open Word32 HeapAlloc Files Fat16 DiskStreams Paging Tasks Stdutil Prog WriteLog Isr80h Ram X86

-- Up to its call of task_return.
def taskRunAsTask0 (task : Nat) : KernelProg Unit := do
  if task ≠ (← Prog.get).taskHead then Prog.fault .panic else
  let _ ← taskSwitch task
  return ()

-- kmain from its process_load on. The result is the task whose registers task_return takes.
def kmainFirstProcess (dev : BlockDevice) (filename : List UInt8) : KernelProg Nat := do
  let (res,process) ← processLoad dev filename
  if res < 0 then Prog.fault .panic else
  let found ← loadAs asProcess (process.getD 0)
  taskRunAsTask0 found.task
  return found.task

-- A program that the volume has under this path, not empty, and that the driver delivers whole.
structure Installed (image : Nat → UInt8) (k : Kernel) (path : List UInt8) (names : List (List UInt8)) (entry : FatDirectoryItem)
    (fprivate : FatPrivate) (chain : List Nat) : Prop where
  named : PathTo path names
  located : Located image k fprivate names entry
  mounted : k.disk.filesystem ≠ none
  volume : FileOn image k.disk fprivate entry chain
  landed : Landed fprivate chain 0 entry.filesize
  positive : 1 ≤ entry.filesize
  small : entry.filesize < 2147483648

theorem Installed.stored {k : Kernel} (installed : Installed image k path names entry fprivate chain) :
    Stored image k path (openBlocks names) entry fprivate chain := by
  refine ⟨fun valid volume kept lowest room => ?_,installed.volume,installed.landed,installed.positive,installed.small⟩
  exact fopen_located _ valid installed.named (installed.located.kept volume kept) (by rw [volume.filesystem]; exact installed.mounted)
    lowest room

-- The machine's memory has the registers of a task as its object has them.
def RegistersAt (mem : Memory) (task : Nat) (registers : Registers) : Prop :=
  ∃ frame, frameRegisters frame = registers ∧ Block mem (BitVec.ofNat 32 task+taskRegisters) frame.registers

-- Ring 3 before the first instruction, with interrupts on.
structure Entered (c : Cpu) : Prop where
  eip : c.eip = 0x00400000#32
  esp : c.esp = 0x003FF000#32
  cs : c.cs = 0x1B#16
  data : c.ss = 0x23#16 ∧ c.ds = 0x23#16 ∧ c.es = 0x23#16 ∧ c.fs = 0x23#16 ∧ c.gs = 0x23#16
  general : c.eax = 0#32 ∧ c.ebx = 0#32 ∧ c.ecx = 0#32 ∧ c.edx = 0#32 ∧ c.esi = 0#32 ∧ c.edi = 0#32 ∧ c.ebp = 0#32
  interrupts : c.eflags.getLsbD 9 = true

def initialFrame : InterruptFrame :=
  ⟨0#32,0#32,0#32,0#32,0#32,0#32,0#32,0#32,0x00400000#32,0x1B#32,0#32,0x003FF000#32,0x23#32⟩

theorem frame_words (same : frameRegisters one = frameRegisters two) : one.registers = two.registers := by
  obtain ⟨edi,esi,ebp,_,ebx,edx,ecx,eax,ip,cs,flags,esp,ss⟩ := one
  obtain ⟨edi',esi',ebp',_,ebx',edx',ecx',eax',ip',cs',flags',esp',ss'⟩ := two
  simp only [frameRegisters,Registers.mk.injEq,BitVec.toNat_inj] at same
  obtain ⟨rfl,rfl,rfl,rfl,rfl,rfl,rfl,rfl,rfl,rfl,rfl,rfl⟩ := same
  rfl

theorem returnFlags_interrupts (flags : Word) : (returnFlags flags).getLsbD 9 = true := by
  unfold returnFlags
  rw [BitVec.getLsbD_or]
  exact Bool.or_true _

theorem task_entered {c : Cpu} (registers : RegistersAt c.mem task initialRegisters)
    (argument : read c.mem (c.esp+4#32) = BitVec.ofNat 32 task+taskRegisters)
    (apart : Apart (c.esp-28#32) 36 (BitVec.ofNat 32 task+taskRegisters) 48) (returnAddress : Word) :
    Entered (taskReturn returnAddress c) := by
  obtain ⟨frame,same,held⟩ := registers
  have initial : frameRegisters initialFrame = initialRegisters := by decide
  rw [frame_words (same.trans initial.symm)] at held
  obtain ⟨stack,returned⟩ := taskReturn_run held argument apart (by decide) returnAddress
  have cs : initialFrame.cs.setWidth 16 = 0x1B#16 := by decide
  have ss : initialFrame.ss.setWidth 16 = 0x23#16 := by decide
  rw [returned]
  exact ⟨rfl,rfl,cs,⟨ss,ss,ss,ss,ss⟩,⟨rfl,rfl,rfl,rfl,rfl,rfl,rfl⟩,returnFlags_interrupts _⟩

-- The kernel has switched to a program with these bytes: they and its stack lie
-- where it looks for them, in blocks of its own.
structure Running (after : Kernel) (task slot : Nat) (bytes : List UInt8) : Prop where
  current : after.currentTask = task
  directory : ∀ virt, walkOf after slot virt = translate after after.currentDirectory virt
  code : ∃ buf, after.objs buf = some (.chars bytes) ∧
    ∀ i < bytes.length, userByte after programFlags slot (nutsosProgramVirtualAddress+i) = some (buf+i)
  stack : ∃ buf bytes, after.objs buf = some (.chars bytes) ∧ bytes.length = nutsosUserProgramStackSize ∧
    ∀ i < nutsosUserProgramStackSize, userByte after programFlags slot (nutsosProgramVirtualStackAddressEnd+i) = some (buf+i)

theorem taskSwitch_run {k : Kernel} (held : k.objs ptr = some (.task task))
    (chunk : k.objs task.pageDirectory = some (.pagingChunk ⟨directory,dirs,entries⟩)) :
    taskSwitch ptr k = .ok (0,{k with currentTask := ptr, currentDirectory := directory}) := by
  have current : setCurrentTask ptr k = .ok ((),{k with currentTask := ptr}) := rfl
  unfold taskSwitch
  rw [bind_run current,bind_run (loadTask_run (k := {k with currentTask := ptr}) held),
    bind_run (loadAs_run (k := {k with currentTask := ptr}) asPagingChunk chunk rfl)]
  rfl

theorem taskRunAsTask0_run {k : Kernel} (head : k.taskHead = ptr) (held : k.objs ptr = some (.task task))
    (chunk : k.objs task.pageDirectory = some (.pagingChunk ⟨directory,dirs,entries⟩)) :
    taskRunAsTask0 ptr k = .ok ((),{k with currentTask := ptr, currentDirectory := directory}) := by
  unfold taskRunAsTask0
  rw [get_bind,if_neg (not_not.mpr head.symm),bind_run (taskSwitch_run held chunk)]
  rfl

theorem Loaded.switched {k : Kernel} (loaded : Loaded k ptr process directory table) (task current : Nat) :
    Loaded {k with currentTask := task, currentDirectory := current} ptr process directory table :=
  ⟨⟨loaded.ready.held,loaded.ready.task,loaded.ready.maps.congr rfl (fun _ _ => rfl)⟩,loaded.image,loaded.stack,loaded.imageLow,
    loaded.stackLow,loaded.imageWindow,loaded.stackWindow,loaded.positive,loaded.whole,loaded.ordered⟩

theorem Launched.running {k : Kernel} {slot : Nat} (launched : Launched k middle ptr process bytes slot) (loaded : Loaded middle ptr process directory table) :
    Running {middle with currentTask := process.task, currentDirectory := directory} process.task slot bytes := by
  have switched := loaded.switched process.task directory
  rw [← launched.slot] at switched
  have space := Loaded.addressSpace (k := {middle with currentTask := process.task, currentDirectory := directory}) switched launched.low
  obtain ⟨stack,held,length⟩ := loaded.stack
  refine ⟨rfl,fun virt => switched.walk switched.ready.held virt,⟨process.ptr,launched.image,fun i inside => ?_⟩,
    ⟨process.stack,stack,held,length,fun i inside => ?_⟩⟩
  · rw [space.image _ (by omega) (by rw [launched.size]; omega),Nat.add_sub_cancel_left]
  · rw [space.stack _ (by omega) (by omega),Nat.add_sub_cancel_left]

theorem first_program_starts {k : Kernel} (valid : HeapValid k) (free : k.processes 0 = 0) (first : k.taskHead = 0)
    (installed : Installed image k path names entry fprivate chain) (lowest : Lowest k i) (number : i+1 < nutsosMaxFileDescriptors)
    (room : Room k.heap (launchBlocks (openBlocks names)+blocksFor entry.filesize+rest)) :
    ∃ task slot after found, kmainFirstProcess (imageDevice image) path k = .ok (task,after) ∧
      Running after task slot (landedBytes image k.disk fprivate chain 0 entry.filesize) ∧ after.objs task = some (.task found) ∧
      ∀ (c : Cpu) (returnAddress : Word), RegistersAt c.mem task found.registers →
        read c.mem (c.esp+4#32) = BitVec.ofNat 32 task+taskRegisters →
        Apart (c.esp-28#32) 36 (BitVec.ofNat 32 task+taskRegisters) 48 → Entered (taskReturn returnAddress c) := by
  obtain ⟨ptr,process,middle,slot,ran,launched,_⟩ := processLoad_run valid (fun taken => taken 0 (by decide) free) installed.stored lowest number
    (.inl first) room
  obtain ⟨_,_,directory,table,same,loaded⟩ := processLoad_ok valid ran (by decide)
  cases same
  cases loaded.ready.held.symm.trans launched.held
  obtain ⟨task,held,chunk⟩ := loaded.ready.task
  obtain ⟨head,_,created⟩ := launched.first first
  cases held.symm.trans created
  refine ⟨_,slot,_,_,?_,launched.running loaded,created,fun c returnAddress registers argument apart =>
    task_entered registers argument apart returnAddress⟩
  unfold kmainFirstProcess
  rw [bind_run ran]
  dsimp only [Option.getD_some]
  rw [if_neg (by decide),bind_run (loadAs_run asProcess launched.held rfl),bind_run (taskRunAsTask0_run head created chunk)]
  rfl

-- The tree's volume again, where D holds the file E.BIN, a loop of one instruction.
def programEntry : FatDirectoryItem := ⟨0x45::List.replicate 7 0x20,[0x42,0x49,0x4E],0x20,3,2⟩

def programTables : List (Nat × List UInt8) :=
  [(512,0xF8::List.replicate 7 0xFF),(33280,programEntry.filename++programEntry.ext++0x20::List.replicate 14 0++[3,0,2,0,0,0]),
    (49664,[0xEB,0xFE])]

def programImage (pos : Nat) : UInt8 :=
  (programTables.find? (fun table => table.1 ≤ pos ∧ pos < table.1+table.2.length)).elim 0 (fun table => table.2.getD (pos-table.1) 0)

def programName : List UInt8 := [0x65,0x2E,0x62,0x69,0x6E]

-- 0:/d/e.bin
def programPath : List UInt8 := [0x30,0x3A,0x2F,0x64,0x2F]++programName

theorem program_path : PathTo programPath [treeName,programName] :=
  ⟨by decide,by decide,by decide,by decide⟩

theorem tree_address (tree : TreeVolume disk (treeRoot item)) (c : Nat) : clusterAddress disk (treeRoot item) c = (65+(c-2)*32)*512 := by
  unfold clusterAddress
  rw [tree.sector]
  rfl

theorem program_folder (tree : TreeVolume disk (treeRoot item)) : Folder programImage disk (treeRoot item) 2 1 := by
  have address : clusterAddress disk (treeRoot item) 2 = 33280 := tree_address tree 2
  refine ⟨by decide,?_,?_,by decide,by decide,show 1*32 ≤ 16384 by decide,?_⟩
  · rw [address]
    refine ⟨fun i less => ?_,by decide⟩
    obtain rfl : i = 0 := by omega
    decide
  · rw [address]
    intro i less
    obtain rfl : i = 0 := by omega
    decide
  · rw [address]
    decide

theorem program_located (start : TreeStart item) : Located programImage treeKernel (treeRoot item) [treeName,programName] programEntry := by
  have tree := start.tree _ (.refl _)
  have address : clusterAddress treeKernel.disk (treeRoot item) 2 = 33280 := tree_address tree 2
  have table : folderItems programImage treeKernel.disk (treeRoot item) 2 1 = [programEntry] := by
    unfold folderItems
    rw [address]
    decide
  refine ⟨tree.mounted,[treeEntry],⟨rfl,fun _ => ⟨[],start.held⟩⟩,?_⟩
  have found : firstMatch [treeEntry] treeName = some treeEntry := by decide
  refine .folder found (by decide) (program_folder tree) (.file ?_ (by decide))
  show firstMatch (folderItems programImage treeKernel.disk (treeRoot item) 2 1) programName = some programEntry
  rw [table]
  decide

theorem program_installed (start : TreeStart item) :
    Installed programImage treeKernel programPath [treeName,programName] programEntry (treeRoot item) [3] := by
  have tree := start.tree _ (.refl _)
  have size : clusterSize (treeRoot item) = 16384 := rfl
  have last : fatEntry programImage (treeRoot item) 3 = 0xFFFF := (by decide : fatEntry programImage treePrivate 3 = 0xFFFF)
  refine ⟨program_path,program_located start,start.filesystem,⟨tree.mounted,⟨[],rfl⟩,⟨?_,by decide,?_⟩,⟨?_,?_⟩,?_⟩,?_,by decide,by decide⟩
  · show nextCluster programImage (treeRoot item) 3 = none
    unfold nextCluster
    rw [last]
    decide
  · intro c member _
    rw [List.mem_singleton.mp member]
    exact .inl last
  · intro c member
    rw [List.mem_singleton.mp member]
    exact (by decide : treePrivate.fatTableAddress+2*3+2 ≤ 2147483648)
  · intro c member
    rw [List.mem_singleton.mp member,tree_address tree,size]
    decide
  · rw [size]
    decide
  · intro pos _ high
    have level : pos/16384 = 0 := by
      have small : programEntry.filesize = 2 := rfl
      omega
    unfold landedIndex
    rw [size,level]
    decide

theorem program_bytes (start : TreeStart item) : landedBytes programImage treeKernel.disk (treeRoot item) [3] 0 2 = [0xEB,0xFE] := by
  have address := tree_address (start.tree _ (.refl _))
  unfold landedBytes landedByte chainAddress
  simp only [address]
  show Bytes.slice (fun pos => programImage ((65+([3].getD (landedIndex treePrivate 0 (0/clusterSize treePrivate) pos) 0-2)*32)*512+
    pos%clusterSize treePrivate)) 0 2 = [0xEB,0xFE]
  decide

theorem nested_program_starts : ∃ task slot after found, kmainFirstProcess (imageDevice programImage) programPath treeKernel = .ok (task,after) ∧
    Running after task slot [0xEB,0xFE] ∧ after.objs task = some (.task found) ∧
      ∀ (c : Cpu) (returnAddress : Word), RegistersAt c.mem task found.registers →
        read c.mem (c.esp+4#32) = BitVec.ofNat 32 task+taskRegisters →
        Apart (c.esp-28#32) 36 (BitVec.ofNat 32 task+taskRegisters) 48 → Entered (taskReturn returnAddress c) := by
  obtain ⟨item,start⟩ := tree_start
  obtain ⟨head,processes⟩ := rootKernel_fresh treeDisk treePrivate treeEntry
  have starts := first_program_starts start.valid (processes 0) head (program_installed start) (first_lowest start.empty) (by decide)
    (show Room treeKernel.heap (launchBlocks (openBlocks [treeName,programName])+blocksFor 2+130023) from start.room)
  rw [show landedBytes programImage treeKernel.disk (treeRoot item) [3] 0 programEntry.filesize = [0xEB,0xFE] from program_bytes start] at starts
  exact starts

end NutsOS.Processes
