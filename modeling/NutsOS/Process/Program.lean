import NutsOS.File.Located
import NutsOS.File.Sequence
import NutsOS.Process.Window

-- A program that process_load does load.
namespace NutsOS.Processes
open Word32 HeapAlloc Files Fat16 DiskStreams Paging Tasks Stdutil Prog WriteLog

-- A file of the root directory, not empty, that the driver delivers whole.
structure Program (image : Nat → UInt8) (k : Kernel) (name : List UInt8) (entry : FatDirectoryItem) (fprivate : FatPrivate)
    (chain : List Nat) : Prop where
  component : Component name
  root : RootFile k (partString name) entry
  mounted : k.disk.filesystem ≠ none
  volume : FileOn image k.disk fprivate entry chain
  landed : Landed fprivate chain 0 entry.filesize
  positive : 1 ≤ entry.filesize
  small : entry.filesize < 2147483648

-- fopen finds the file, here and as long as only objects are added, and takes no
-- more than so many blocks.
def Opens (image : Nat → UInt8) (k : Kernel) (path : List UInt8) (blocks : Nat) (entry : FatDirectoryItem) : Prop :=
  ∀ {after : Kernel} {rest i : Nat}, HeapValid after → SameVolume k.disk after.disk →
    (∀ ptr, (k.objs ptr).isSome → after.objs ptr = k.objs ptr) → Lowest after i → Room after.heap (blocks+rest) →
      ∃ fd last, fopen (imageDevice image) path [charR] after = .ok (fd,last) ∧ FilesGrown after last ∧ fd ≠ 0 ∧
        (∃ fprivate, last.objs fd = some (.fileDescriptor ⟨i+1,some .fat16,fprivate,.read,some .disk⟩) ∧ DriverFile last fprivate 0 entry) ∧
        last.fileDescriptors = (fun j => if j = i then fd else after.fileDescriptors j) ∧ Room last.heap rest

structure Stored (image : Nat → UInt8) (k : Kernel) (path : List UInt8) (blocks : Nat) (entry : FatDirectoryItem) (fprivate : FatPrivate)
    (chain : List Nat) : Prop where
  opens : Opens image k path blocks entry
  volume : FileOn image k.disk fprivate entry chain
  landed : Landed fprivate chain 0 entry.filesize
  positive : 1 ≤ entry.filesize
  small : entry.filesize < 2147483648

theorem Stored.kept {k after : Kernel} (stored : Stored image k path blocks entry fprivate chain) (volume : SameVolume k.disk after.disk)
    (kept : ∀ ptr, (k.objs ptr).isSome → after.objs ptr = k.objs ptr) : Stored image after path blocks entry fprivate chain := by
  refine ⟨fun valid same still => stored.opens valid (volume.trans same) (fun ptr live => ?_),stored.volume.kept volume,stored.landed,
    stored.positive,stored.small⟩
  have there := kept ptr live
  rw [← there] at live
  exact (still ptr live).trans there

theorem Program.stored {k : Kernel} (program : Program image k name entry fprivate chain) :
    Stored image k (pathOf asciiZero name) 8 entry fprivate chain := by
  refine ⟨fun valid volume kept lowest room => ?_,program.volume,program.landed,program.positive,program.small⟩
  exact fopen_file_run _ valid program.component (program.root.kept volume kept) (by rw [volume.filesystem]; exact program.mounted)
    lowest room _

theorem Program.search {k : Kernel} (program : Program image k name entry fprivate chain) : ∃ table, RootSearch k fprivate table := by
  obtain ⟨_,front,back,known,held,total,_⟩ := program.root.mounted
  have mounted := program.volume.mounted
  cases mounted.private_eq.symm.trans known
  exact ⟨.ofItems (front++entry::back),mounted,by rw [total]; rfl,fun _ => held⟩

theorem fread_whole {k : Kernel} (handle : HandleAt k fd h 0) (volume : FileOn image k.disk fprivate h.entry chain)
    (landed : Landed fprivate chain 0 h.entry.filesize) (positive : 1 ≤ h.entry.filesize) (small : h.entry.filesize < 2147483648) :
    ∃ after, fread (imageDevice image) h.entry.filesize 1 fd k =
      .ok ((1,landedBytes image k.disk fprivate chain 0 h.entry.filesize),after) ∧ OnlyDisk k after := by
  obtain ⟨item,at'⟩ := item_read 0 volume positive (by omega)
  have items (i : Nat) (first : i < 1) : ItemAt image k fprivate h.entry chain (0+i*h.entry.filesize) h.entry.filesize
      ((fun _ : Nat => item) i) := by
    obtain rfl : i = 0 := by omega
    rw [Nat.zero_mul]
    exact at'
  obtain ⟨after,ran,only⟩ := fread_delivers handle volume positive (Nat.le_refl 1) (by omega) small items (.refl k)
  have read := at'.read.mpr landed
  rw [deliver_all (fun _ _ _ => read),List.range'_one,List.flatMap_singleton,at'.bytes landed] at ran
  exact ⟨after,ran,only⟩

theorem landedBytes_length : (landedBytes image disk fprivate chain offset total).length = total := Bytes.slice_length

theorem landedBytes_same (same : SameVolume before after) (image : Nat → UInt8) (fprivate : FatPrivate) (chain : List Nat) (offset total : Nat) :
    landedBytes image after fprivate chain offset total = landedBytes image before fprivate chain offset total := by
  unfold landedBytes
  rw [landedByte_same same]

theorem storeBytes_run {k : Kernel} (held : k.objs buf = some (.chars old)) (whole : bytes.length = old.length) :
    storeBytes buf bytes k = .ok ((),k.place buf (.chars bytes)) := by
  unfold storeBytes
  by_cases some : bytes ≠ []
  · rw [when_true some]
    unfold storeChars
    rw [bind_run (loadAs_run asChars held rfl),if_neg (by omega),whole,List.drop_length,List.append_nil]
    rfl
  · have none : old = [] := by
      rw [not_not.mp some] at whole
      exact List.eq_nil_of_length_eq_zero whole.symm
    rw [when_false some,not_not.mp some,← none,place_held held]
    rfl

def RoomKept (n : Nat) (before after : Kernel) : Prop := Room before.heap n → Room after.heap n

theorem roomKept_pure (n : Nat) (a : α) : Within (RoomKept n) (pure a : KernelProg α) := within_pure (fun _ room => room) a

theorem roomKept_bind {x : KernelProg α} {f : α → KernelProg β} (first : Within (RoomKept n) x)
    (rest : ∀ a, Within (RoomKept n) (f a)) : Within (RoomKept n) (x >>= f) :=
  within_bind (R := RoomKept n) (fun one two room => two (one room)) first rest

theorem closeFile_room (fd n : Nat) (res : Int) : Within (RoomKept n) (closeFile fd res) := by
  have loads {α : Type} (view : Obj → Option α) (ptr : Nat) : Within (RoomKept n) (loadAs view ptr) :=
    loadAs_within (fun _ room => room) view ptr
  have driver (descriptor : Nat) : Within (RoomKept n) (fat16Close descriptor) := by
    refine roomKept_bind (loads _ _) (fun desc => roomKept_bind (fatItemFree_room _ n) (fun _ => ?_))
    exact roomKept_bind (fun _ _ _ ran room => kfree_room room ran) (fun _ => roomKept_pure n _)
  refine roomKept_bind (loads _ _) (fun found => roomKept_bind ?_ (fun _ => roomKept_pure n _))
  refine roomKept_bind (within_get (fun _ room => room)) (fun k => within_ite (roomKept_pure n _) (roomKept_bind (loads _ _) (fun desc => ?_)))
  refine roomKept_bind ?_ (fun system => ?_)
  · unfold loadFilesystem
    cases desc.filesystem with
    | none => exact within_fault _
    | some system => exact roomKept_pure n _
  · cases system with
    | fat16 => exact roomKept_bind (driver _) (fun _ => roomKept_pure n _)

-- The file's number stays taken, and the list of tasks is left alone.
structure FileTaken (k after : Kernel) (i : Nat) : Prop where
  volume : SameVolume k.disk after.disk
  files : ∃ fd, fd ≠ 0 ∧ after.fileDescriptors = fun j => if j = i then fd else k.fileDescriptors j
  head : after.taskHead = k.taskHead
  tail : after.taskTail = k.taskTail

theorem processLoadBinary_run (rest : Nat) {k : Kernel} (valid : HeapValid k) (held : k.objs ptr = some (.process process))
    (stored : Stored image k path blocks entry fprivate chain) (lowest : Lowest k i) (number : i+1 < nutsosMaxFileDescriptors)
    (room : Room k.heap (blocks+(blocksFor entry.filesize+rest))) :
    ∃ buf after, processLoadBinary (imageDevice image) path ptr k = .ok (0,after) ∧
      after.objs ptr = some (.process {process with ptr := buf, size := entry.filesize, ptrVirt := nutsosProgramVirtualAddress}) ∧
      after.objs buf = some (.chars (landedBytes image k.disk fprivate chain 0 entry.filesize)) ∧
      buf+entry.filesize ≤ 2147483648 ∧ Room after.heap rest ∧ FileTaken k after i := by
  have positive := stored.positive
  have small := stored.small
  obtain ⟨fd,one,opened,first,nonnull,⟨fprivate',heldFd,file⟩,table,roomOne⟩ :=
    stored.opens valid (.refl _) (fun _ _ => rfl) lowest room
  have slot : one.fileDescriptors i = fd := by
    rw [table]
    exact if_pos rfl
  obtain ⟨h,same,handle⟩ := (openFile_of_slot number (by rw [slot]; exact nonnull)
    (by rw [slot]; exact ⟨_,_,_,heldFd,file⟩) : OpenFile one ((i : Int)+1) 0 entry).handle
  have desc : h.desc = fd := by
    rw [← handle.slot,getDescriptor_at (by rw [handle.slot]; exact handle.nonnull),slot]
  have index : h.index = (i : Int)+1 := by
    have there := handle.descriptor
    rw [desc,heldFd] at there
    exact (congrArg FileDescriptor.index (Obj.fileDescriptor.inj (Option.some.inj there))).symm
  obtain ⟨buf,two,allocated,fresh,serves⟩ := kzalloc_run entry.filesize first.valid (.chars (List.replicate entry.filesize 0))
    positive (by omega)
  obtain ⟨granted,inside,roomTwo⟩ := serves rest roomOne
  obtain ⟨new,array⟩ := fresh.fresh_object granted
  have second := fresh.grown first.valid
  have handleTwo : HandleAt two ((i : Int)+1) h 0 := handle.congr (by rw [second.rest]) (fun a has => second.kept a (handle.live has))
  have volume := first.volume.trans second.volume
  obtain ⟨three,read,only⟩ := fread_whole handleTwo (same ▸ stored.volume.kept volume) (same ▸ stored.landed) (same ▸ positive)
    (same ▸ small)
  rw [same,landedBytes_same volume] at read
  have objsThree : three.objs = two.objs := by rw [only.rest]
  have heldThree : three.objs ptr = some (.process process) := by
    rw [objsThree]
    exact second.held (first.held held)
  have apart : ptr ≠ buf := by
    intro equal
    rw [← equal,first.held held] at new
    cases new
  have imageThree : three.objs buf = some (.chars (List.replicate entry.filesize 0)) := by
    rw [objsThree]
    exact array
  let bytes := landedBytes image k.disk fprivate chain 0 entry.filesize
  have storing : storeBytes buf bytes three = .ok ((),three.place buf (.chars bytes)) :=
    storeBytes_run imageThree (by rw [landedBytes_length,List.length_replicate])
  have validThree : HeapValid three := by
    rw [only.rest]
    exact second.valid.congr rfl (fun _ live => live)
  let four := three.place buf (.chars bytes)
  have heldFour : four.objs ptr = some (.process process) := (Kernel.place_other apart).trans heldThree
  let named := {process with ptr := buf, size := entry.filesize, ptrVirt := nutsosProgramVirtualAddress}
  let five := four.place ptr (.process named)
  obtain ⟨validFive,handleFive⟩ := loaded_handle (handleTwo.only_disk only) validThree heldThree imageThree apart bytes named
  rw [← index] at handleFive
  obtain ⟨last,closed,_,rest',kept⟩ := closeFile_handle validFive handleFive 0
  have imageFive : five.objs buf = some (.chars bytes) := (Kernel.place_other (Ne.symm apart)).trans (Kernel.place_same _ _ _)
  refine ⟨buf,last,?_,kept ptr _ (Kernel.place_same _ _ _) (.inl ⟨_,rfl⟩),kept buf _ imageFive (.inr ⟨_,rfl⟩),?_,?_,?_⟩
  · unfold processLoadBinary
    rw [bind_run opened,if_neg nonnull,bind_run (loadAs_run asFileDescriptor heldFd rfl)]
    dsimp only
    rw [bind_run (fstat_handle handle)]
    dsimp only [Option.getD_some]
    rw [if_neg (by decide),same,bind_run allocated,if_neg granted,bind_run (loadAs_run asFileDescriptor (second.held heldFd) rfl),
      bind_run read]
    dsimp only
    rw [bind_run storing,if_neg (by decide),bind_run (updateProcess_run heldFour _)]
    rw [desc] at closed
    exact closed
  · have high := first.valid.pool.high
    have fits := (blocksFor_bounds positive (show entry.filesize ≤ 4294963200 by omega)).2
    omega
  · have left : Room five.heap rest := by
      show Room three.heap rest
      rw [only.rest]
      exact roomTwo
    exact closeFile_room _ _ _ _ _ _ closed left
  · refine ⟨?_,⟨fd,nonnull,?_⟩,?_,?_⟩
    · rw [rest']
      exact volume.trans only.volume
    · rw [rest',← table]
      show three.fileDescriptors = one.fileDescriptors
      rw [only.rest,second.rest]
    · rw [rest']
      show three.taskHead = k.taskHead
      rw [only.rest,second.rest,first.rest]
    · rw [rest']
      show three.taskTail = k.taskTail
      rw [only.rest,second.rest,first.rest]

theorem mapTo_run {k : Kernel} (ready : Ready k ptr process directory table m) (alignedVirt : virt%4096 = 0) (alignedPhys : phys%4096 = 0)
    (virtWord : virt < 4294967296) (fits : phys+size ≤ 4294963200) :
    ∃ after, pagingMapTo directory virt phys (pagesEnd phys size) programFlags k = .ok (0,after) ∧
      Ready after ptr process directory table (replay m (rangeWrites virt phys ((pagesEnd phys size-phys)/4096) programFlags)) := by
  have ordered : phys ≤ pagesEnd phys size := by
    unfold pagesEnd pagingAlignAddress pagingPageSize
    rw [toUint32_natCast (by omega)]
    dsimp only
    unfold toUint32
    split <;> omega
  obtain ⟨after,ran,maps,same⟩ := pagingMapTo_run ready.maps alignedVirt alignedPhys (alignAddress_aligned _) ordered virtWord
    (alignAddress_word (toUint32_lt _)) (show programFlags < 4096 by decide)
  exact ⟨after,ran,ready.mapped maps (ready.only_words same)⟩

theorem processMapMemory_run {k : Kernel} (ready : Ready k ptr process directory table m) (image : process.ptr%4096 = 0)
    (stack : process.stack%4096 = 0) (imageFits : process.ptr+process.size ≤ 4294963200)
    (stackFits : process.stack+nutsosUserProgramStackSize ≤ 4294963200) :
    ∃ after, processMapMemory ptr k = .ok (0,after) ∧ OnlyWords k after ∧ after = {k with objs := after.objs} := by
  obtain ⟨one,first,half⟩ := mapTo_run ready (show nutsosProgramVirtualAddress%4096 = 0 by decide) image (by decide) imageFits
  obtain ⟨two,second,done⟩ := mapTo_run half (show nutsosProgramVirtualStackAddressEnd%4096 = 0 by decide) stack (by decide) stackFits
  have mapped : processMapBinary ptr k = .ok (0,one) := by
    unfold processMapBinary
    rw [bind_run (loadAs_run asProcess ready.held rfl),bind_run ready.directory_run]
    exact first
  have ran : processMapMemory ptr k = .ok (0,two) := by
    unfold processMapMemory
    rw [bind_run mapped,if_neg (by decide),bind_run (loadAs_run asProcess half.held rfl),bind_run half.directory_run]
    exact second
  obtain ⟨_,same,_⟩ := processMapMemory_ok ready image stack ran (by decide)
  exact ⟨two,ran,ready.only_words same,same.rest⟩

-- The blocks that a load takes beside the image: the process, the path and the
-- file, the stack, and the task with its directory.
def launchBlocks (blocks : Nat) : Nat := 2+blocks+4+1027

def loadBlocks : Nat := 2+8+4+1027

structure Launched (k after : Kernel) (ptr : Nat) (process : NutsOS.Process) (bytes : List UInt8) (slot : Nat) : Prop where
  held : after.objs ptr = some (.process process)
  size : process.size = bytes.length
  low : process.ptr+process.size ≤ 2147483648
  image : after.objs process.ptr = some (.chars bytes)
  first : k.taskHead = 0 → after.taskHead = process.task ∧ ∃ chunk, after.objs process.task = some (.task (initialTask chunk ptr))
  slot : after.processes slot = ptr

-- What it leaves to the next load.
structure Onward (k after : Kernel) (i rest : Nat) : Prop where
  volume : SameVolume k.disk after.disk
  files : ∃ fd, fd ≠ 0 ∧ after.fileDescriptors = fun j => if j = i then fd else k.fileDescriptors j
  tail : TailHeld after
  room : Room after.heap rest

-- The process has its file and its stack, and no task yet.
structure Prepared (k four : Kernel) (ptr : Nat) (process : NutsOS.Process) (bytes : List UInt8) (i rest : Nat) : Prop where
  valid : HeapValid four
  held : four.objs ptr = some (.process process)
  size : process.size = bytes.length
  image : four.objs process.ptr = some (.chars bytes)
  imageLow : process.ptr%4096 = 0 ∧ process.ptr+process.size ≤ 2147483648
  stackLow : process.stack%4096 = 0 ∧ process.stack+4096 ≤ 2147483648
  taken : FileTaken k four i
  tail : TailHeld four
  room : Room four.heap (1027+rest)

-- process_load_for_slot from its call of task_new on.
def startProcess (slot process : Nat) : KernelProg (Int × Option Nat) := do
  let task ← taskNew process
  updateProcess process (fun p => {p with task := task})
  let res ← processMapMemory process
  if res < 0 then loadFailed process res else
  setProcess slot process
  return (res,some process)

theorem processLoadForSlot_prepares (rest : Nat) {k : Kernel} (valid : HeapValid k) (free : k.processes slot = 0) (inside : slot < nutsosMaxProcesses)
    (stored : Stored image k path blocks entry fprivate chain) (lowest : Lowest k i) (number : i+1 < nutsosMaxFileDescriptors)
    (tail : TailHeld k) (room : Room k.heap (launchBlocks blocks+blocksFor entry.filesize+rest)) :
    ∃ ptr process four, Prepared k four ptr process (landedBytes image k.disk fprivate chain 0 entry.filesize) i rest ∧
      processLoadForSlot (imageDevice image) path slot k = startProcess slot ptr four := by
  rw [show launchBlocks blocks+blocksFor entry.filesize+rest = 2+(blocks+(blocksFor entry.filesize+(4+(1027+rest)))) by
    unfold launchBlocks; omega] at room
  obtain ⟨ptr,one,allocated,served⟩ := kzalloc_served 4384 _ valid (.process zeroProcess) (by decide) (by decide) room
  have here := served.held
  have start := updateProcess_run here (fun _ => zeroProcess)
  rw [place_held here] at start
  have table : one.fileDescriptors = k.fileDescriptors := by rw [served.grown.rest]
  obtain ⟨buf,two,loaded,heldTwo,imageTwo,low,roomTwo,taken⟩ := processLoadBinary_run _ served.grown.valid here
    (stored.kept served.grown.volume served.grown.kept)
    ⟨lowest.inside,by rw [table]; exact lowest.free,fun j earlier => by rw [table]; exact lowest.taken j earlier⟩ number served.room
  rw [landedBytes_same served.grown.volume] at imageTwo
  -- the inversion of the load gives the block of the image
  obtain ⟨buf',size',binary,adds,_⟩ := processLoadBinary_loads served.grown.valid here loaded (by decide)
  obtain ⟨rfl,rfl⟩ : buf' = buf ∧ size' = entry.filesize := by
    have named := binary.held.symm.trans heldTwo
    have equal := Obj.process.inj (Option.some.inj named)
    exact ⟨congrArg NutsOS.Process.ptr equal,congrArg NutsOS.Process.size equal⟩
  have imageLow := binary.valid.low (by simp [imageTwo] : (two.objs buf').isSome)
  obtain ⟨stack,three,given,stacked⟩ := kzalloc_served nutsosUserProgramStackSize _ binary.valid
    (.chars (List.replicate nutsosUserProgramStackSize 0)) (by decide) (by decide) roomTwo
  have stackLow := stacked.grown.valid.low (by simp [stacked.held] : (three.objs stack).isSome)
  have heldThree := stacked.grown.held heldTwo
  have imageThree := stacked.grown.held imageTwo
  have apart : buf' ≠ ptr := by
    intro same
    rw [same,heldThree] at imageThree
    cases imageThree
  have head : three.taskHead = k.taskHead := by rw [stacked.grown.rest,taken.head,served.grown.rest]
  have last : three.taskTail = k.taskTail := by rw [stacked.grown.rest,taken.tail,served.grown.rest]
  obtain ⟨fd,nonnull,files⟩ := taken.files
  have filesThree : three.fileDescriptors = two.fileDescriptors := by rw [stacked.grown.rest]
  refine ⟨ptr,_,three.place ptr (.process {setFilename path {zeroProcess with ptr := buf', size := entry.filesize, ptrVirt := nutsosProgramVirtualAddress} with
      stack := stack, stackVirt := nutsosProgramVirtualStackAddressEnd, stackSize := nutsosUserProgramStackSize, id := slot}),
    ⟨stacked.grown.valid.place (by simp [heldThree]) _,Kernel.place_same _ _ _,landedBytes_length.symm,(Kernel.place_other apart).trans imageThree,
      ⟨imageLow.2.1,low⟩,stackLow.2,
      ⟨(served.grown.volume.trans taken.volume).trans stacked.grown.volume,⟨fd,nonnull,filesThree.trans (files.trans (by rw [table]))⟩,head,last⟩,?_,
      stacked.room⟩,?_⟩
  · refine tail.imp (fun empty => head.trans empty) (fun ⟨found,held⟩ => ⟨found,?_⟩)
    have other : k.taskTail ≠ ptr := by
      intro same
      rw [same,served.fresh] at held
      cases held
    have heldOne := served.grown.held held
    have heldTwo := (adds.kept _ other (by simp [heldOne])).trans heldOne
    show (three.place ptr _).objs three.taskTail = _
    rw [last]
    exact (Kernel.place_other other).trans (stacked.grown.held heldTwo)
  · unfold processLoadForSlot
    rw [get_bind,if_neg (by rw [processGet_free free inside]; simp),bind_run allocated,if_neg served.nonnull,bind_run start]
    unfold processLoadData
    rw [bind_run loaded,if_neg (by decide),bind_run given,if_neg stacked.nonnull,bind_run (updateProcess_run heldThree _)]
    rfl

theorem startProcess_run (prepared : Prepared k four ptr process bytes i rest) (slot : Nat) :
    ∃ process after, startProcess slot ptr four = .ok ((eok,some ptr),after) ∧ Launched k after ptr process bytes slot ∧ Onward k after i rest := by
  obtain ⟨task,created,blocks,linked,started,new,joined,left⟩ := taskNew_run prepared.valid prepared.tail prepared.room ptr
  obtain ⟨heldFive,ready⟩ := created_ready new joined.relinked prepared.held (fun p => {p with task := task}) rfl
  have imageLow := prepared.imageLow
  have stackLow := prepared.stackLow
  obtain ⟨six,mapped,only,restSix⟩ := processMapMemory_run ready imageLow.1 stackLow.1 (show process.ptr+process.size ≤ 4294963200 by omega)
    (show process.stack+nutsosUserProgramStackSize ≤ 4294963200 by unfold nutsosUserProgramStackSize; omega)
  obtain ⟨last,heldTask⟩ := joined.held
  have notTask : task ≠ ptr := by
    intro same
    cases (same ▸ heldTask).symm.trans heldFive
  have apart : process.ptr ≠ ptr := by
    intro same
    have image := prepared.image
    rw [same,prepared.held] at image
    cases image
  have image := new.grown.held prepared.image
  have imageFive := (joined.relinked.others _ (fun _ absurd => by cases image.symm.trans absurd)).trans image
  have kept {a : Nat} {obj : Obj} (other : a ≠ ptr) (held : linked.objs a = some obj) (typed : ∀ words, obj ≠ .words words) :
      six.objs a = some obj := only _ _ ((Kernel.place_other other).trans held) typed
  -- task_new and the mapping leave the static variables of files and disk alone
  have disk : six.disk = four.disk := by rw [restSix,Kernel.place,joined.rest,new.grown.rest]
  have files : six.fileDescriptors = four.fileDescriptors := by rw [restSix,Kernel.place,joined.rest,new.grown.rest]
  have tail : six.taskTail = task := by rw [restSix,Kernel.place,joined.rest]
  have head : six.taskHead = if four.taskHead = 0 then task else four.taskHead := by rw [restSix,Kernel.place,joined.rest]
  have room : Room six.heap rest := by
    rw [restSix]
    exact left
  refine ⟨_,{six with processes := fun j => if j = slot then ptr else six.processes j},?_,
    ⟨only _ _ (Kernel.place_same _ _ _) (fun _ absurd => by cases absurd),prepared.size,imageLow.2,kept apart imageFive (fun _ absurd => by cases absurd),fun empty => ?_,if_pos rfl⟩,
    ⟨?_,?_,.inr ⟨last,?_⟩,room⟩⟩
  · unfold startProcess
    rw [bind_run started,bind_run (updateProcess_run heldFive _),bind_run mapped,if_neg (by decide)]
    rfl
  · have none := prepared.taken.head.trans empty
    refine ⟨head.trans (if_pos none),_,kept notTask ((congrFun (joined.first none) task).trans new.held) (fun _ absurd => by cases absurd)⟩
  · show SameVolume k.disk six.disk
    rw [disk]
    exact prepared.taken.volume
  · show ∃ fd, fd ≠ 0 ∧ six.fileDescriptors = _
    rw [files]
    exact prepared.taken.files
  · show six.objs six.taskTail = some (.task last)
    rw [tail]
    exact kept notTask heldTask (fun _ absurd => by cases absurd)

theorem processLoadForSlot_run (rest : Nat) {k : Kernel} (valid : HeapValid k) (free : k.processes slot = 0) (inside : slot < nutsosMaxProcesses)
    (stored : Stored image k path blocks entry fprivate chain) (lowest : Lowest k i) (number : i+1 < nutsosMaxFileDescriptors)
    (tail : TailHeld k) (room : Room k.heap (launchBlocks blocks+blocksFor entry.filesize+rest)) :
    ∃ ptr process after, processLoadForSlot (imageDevice image) path slot k = .ok ((eok,some ptr),after) ∧
      Launched k after ptr process (landedBytes image k.disk fprivate chain 0 entry.filesize) slot ∧ Onward k after i rest := by
  obtain ⟨ptr,process,four,prepared,reached⟩ := processLoadForSlot_prepares rest valid free inside stored lowest number tail room
  obtain ⟨started,after,ran,launched,onward⟩ := startProcess_run prepared slot
  exact ⟨ptr,started,after,reached.trans ran,launched,onward⟩

theorem processLoad_run {k : Kernel} (valid : HeapValid k) (free : ¬ NoSlot k) (stored : Stored image k path blocks entry fprivate chain)
    (lowest : Lowest k i) (number : i+1 < nutsosMaxFileDescriptors) (tail : TailHeld k)
    (room : Room k.heap (launchBlocks blocks+blocksFor entry.filesize+rest)) :
    ∃ ptr process after slot, processLoad (imageDevice image) path k = .ok ((eok,some ptr),after) ∧
      Launched k after ptr process (landedBytes image k.disk fprivate chain 0 entry.filesize) slot ∧ Onward k after i rest := by
  obtain ⟨slot,inside,empty,called⟩ := processLoad_slot free (imageDevice image) path
  rw [called]
  obtain ⟨ptr,process,after,ran,launched,onward⟩ := processLoadForSlot_run rest valid empty inside stored lowest number tail room
  exact ⟨ptr,process,after,slot,ran,launched,onward⟩

-- The volume of boot.asm, on which one file has the clusters 2 to 501 in turn:
-- the FAT starts at sector 200, the data at sector 716.
def runPrivate : FatPrivate := ⟨⟨128,200,2,64,256⟩,⟨0,0,712,716⟩,102400,65536,4096,8192,12288⟩

def runEntry (cluster : Nat) : Nat := if cluster < 501 then cluster+1 else 0xFFFF

def runImage (pos : Nat) : UInt8 :=
  UInt8.ofNat (if pos%2 = 0 then runEntry ((pos-102400)/2)%256 else runEntry ((pos-102400)/2)/256)

def runChain : List Nat := List.range' 2 500

theorem run_fatEntry (small : cluster ≤ 501) (item : Nat) :
    fatEntry runImage {runPrivate with rootDirectory := {runPrivate.rootDirectory with item := item, total := 1}} cluster = runEntry cluster := by
  have bound : runEntry cluster < 65536 := by
    unfold runEntry
    split <;> omega
  show (runImage (102400+2*cluster)).toNat+256*(runImage (102400+2*cluster+1)).toNat = _
  unfold runImage
  rw [if_pos (by omega),if_neg (by omega),show (102400+2*cluster-102400)/2 = cluster by omega,
    show (102400+2*cluster+1-102400)/2 = cluster by omega,UInt8.toNat_ofNat',UInt8.toNat_ofNat']
  omega

theorem run_entry_next (small : cluster < 501) : runEntry cluster = cluster+1 := if_pos small

theorem run_entry_last : runEntry 501 = 0xFFFF := rfl

def runMounted (item : Nat) : FatPrivate := {runPrivate with rootDirectory := {runPrivate.rootDirectory with item := item, total := 1}}

theorem run_chain (item : Nat) : FileChain runImage (runMounted item) runChain := by
  have entries {cluster : Nat} (small : cluster ≤ 501) : fatEntry runImage (runMounted item) cluster = runEntry cluster :=
    run_fatEntry small item
  have inside {c : Nat} (member : c ∈ runChain) : 2 ≤ c ∧ c ≤ 501 := by
    obtain ⟨low,high⟩ := List.mem_range'_1.mp member
    omega
  have next {c : Nat} (low : 2 ≤ c) (high : c < 501) : nextCluster runImage (runMounted item) c = some (c+1) := by
    unfold nextCluster
    rw [entries (by omega),run_entry_next high,if_pos (by omega)]
  refine ⟨Successor.terminates_range 2 499 (fun c low high => next low (by omega)) ?_,?_,?_⟩
  · unfold nextCluster
    rw [entries (Nat.le_refl 501),run_entry_last]
    rfl
  · intro c member
    have bounds := inside member
    omega
  · intro c member ended
    obtain ⟨low,high⟩ := inside member
    by_cases last : c = 501
    · rw [last,entries (Nat.le_refl 501)]
      exact .inl run_entry_last
    · rw [next low (by omega)] at ended
      cases ended

def sizedEntry (size : Nat) : FatDirectoryItem := {sampleEntry with filesize := size}

def sizedKernel (size : Nat) : Kernel := rootKernel sampleDisk runPrivate (sizedEntry size)

-- The fourth cluster already lands further down the chain, the last one here at 496.
theorem run_landed (item : Nat) (small : size ≤ 0x200000) : Landed (runMounted item) runChain 0 size := by
  intro pos _ high
  have level : pos/clusterSize (runMounted item) ≤ 31 := by
    show pos/65536 ≤ 31
    omega
  have index := landing_eq 0 0 (pos/clusterSize (runMounted item))
  unfold landedIndex runChain
  rw [Nat.zero_div,Nat.sub_zero,List.length_range']
  generalize pos/clusterSize (runMounted item) = levels at *
  have product : levels*(levels+1) ≤ 31*32 := Nat.mul_le_mul level (by omega)
  omega

theorem sized_program (size : Nat) (positive : 1 ≤ size) (small : size ≤ 0x200000) :
    HeapValid (sizedKernel size) ∧ Room (sizedKernel size).heap 131071 ∧ (∀ i, (sizedKernel size).fileDescriptors i = 0) ∧
      ∃ fprivate, Program runImage (sizedKernel size) sampleName (sizedEntry size) fprivate runChain := by
  have found : entryMatches (sizedEntry size) (partString sampleName) = true := sample_found
  obtain ⟨item,valid,root,room,empty,disk⟩ := rootKernel_valid sampleDisk runPrivate found
    (show FatDirectoryItem.isSubdirectory sampleEntry = false by decide)
  refine ⟨valid,room,empty,runMounted item,sample_component,root,?_,?_,run_landed item small,positive,?_⟩
  · show (rootKernel sampleDisk runPrivate (sizedEntry size)).disk.filesystem ≠ none
    rw [disk]
    simp [sampleDisk,fatDisk]
  · have address (c : Nat) : clusterAddress (sizedKernel size).disk (runMounted item) c = (716+(c-2)*128)*512 := by
      show clusterAddress (rootKernel sampleDisk runPrivate (sizedEntry size)).disk (runMounted item) c = _
      rw [disk]
      rfl
    have bound {c : Nat} (member : c ∈ runChain) : c ≤ 501 := by
      have high := (List.mem_range'_1.mp member).2
      omega
    refine ⟨?_,⟨List.range' 3 499,rfl⟩,run_chain item,⟨fun c member => ?_,fun c member => ?_⟩,?_⟩
    · show Mounted (rootKernel sampleDisk runPrivate (sizedEntry size)).disk (runMounted item)
      rw [disk]
      exact ⟨rfl,show 8192 ≠ 0 by decide,fun _ _ => rfl,show (0 : Int) < 512 by decide,
        show (65536 : Int) = ((128 : Nat) : Int)*512 by decide,show (65536 : Int) < 2147483648 by decide,show (0 : Int) ≤ 716 by decide⟩
    · have high := bound member
      show 102400+2*c+2 ≤ 2147483648
      omega
    · have high := bound member
      rw [address]
      show (716+(c-2)*128)*512+65536 ≤ 2147483648
      omega
    · unfold runChain
      rw [List.length_range']
      show size ≤ 500*65536
      omega
  · show size < 2147483648
    omega

theorem sized_loaded (size : Nat) (positive : 1 ≤ size) (small : size ≤ 0x200000) :
    ∃ ptr process after directory table,
      processLoad (imageDevice runImage) (pathOf asciiZero sampleName) (sizedKernel size) = .ok ((eok,some ptr),after) ∧
      Loaded after ptr process directory table ∧ process.size = size ∧ process.ptr+process.size ≤ 2147483648 := by
  obtain ⟨valid,room,empty,_,program⟩ := sized_program size positive small
  have blocks : blocksFor size ≤ 513 := by
    unfold blocksFor heapAlignValueToUpper nutsosHeapBlockSize toUint32
    split <;> omega
  obtain ⟨head,processes⟩ := rootKernel_fresh sampleDisk runPrivate (sizedEntry size)
  have spare : loadBlocks+blocksFor (sizedEntry size).filesize+(131071-(loadBlocks+blocksFor size)) = 131071 := by
    show loadBlocks+blocksFor size+(131071-(loadBlocks+blocksFor size)) = 131071
    unfold loadBlocks
    omega
  obtain ⟨ptr,process,after,_,ran,launched,_⟩ := processLoad_run valid (fun taken => taken 0 (by decide) (processes 0)) program.stored
    (first_lowest empty) (by decide) (.inl head) (by
      rw [show launchBlocks 8 = loadBlocks from rfl,spare]
      exact room)
  obtain ⟨_,_,directory,table,same,loaded⟩ := processLoad_ok valid ran (by decide)
  cases same
  cases loaded.ready.held.symm.trans launched.held
  exact ⟨ptr,process,after,directory,table,ran,loaded,launched.size.trans landedBytes_length,launched.low⟩

theorem page_program_reached : ∃ ptr process after directory,
    processLoad (imageDevice runImage) (pathOf asciiZero sampleName) (sizedKernel 4096) = .ok ((eok,some ptr),after) ∧
    after.objs ptr = some (.process process) ∧ process.size = 4096 ∧ Reaches after process directory 0x400000 (ownByte process 0x400000) ∧
    Reaches after process directory 0x400FFF (ownByte process 0x400FFF) ∧ Reaches after process directory 0x3FB000 (ownByte process 0x3FB000) := by
  obtain ⟨valid,_⟩ := sized_program 4096 (by decide) (by decide)
  obtain ⟨ptr,process,after,_,_,ran,loaded,size,low⟩ := sized_loaded 4096 (by decide) (by decide)
  obtain ⟨_,_,directory,same,held,_,reach⟩ := accepted_pointers_reach valid ran
  cases same
  cases loaded.ready.held.symm.trans held
  have accepted (p : Nat) : processValidatePointer process p =
      ((0x400000 ≤ p && p < toUint32 ((0x400000+4096 : Nat) : Int)) || (0x3FB000 ≤ p && p < toUint32 ((0x3FB000+16384 : Nat) : Int))) := by
    unfold processValidatePointer
    rw [loaded.imageWindow,loaded.stackWindow.1,loaded.stackWindow.2,size]
    rfl
  refine ⟨ptr,process,after,directory,ran,held,size,?_,?_,?_⟩
  · exact reach low _ (by decide) (by rw [accepted]; decide)
  · exact reach low _ (by decide) (by rw [accepted]; decide)
  · exact reach low _ (by decide) (by rw [accepted]; decide)

theorem page_program_apart : ∃ ptr process after directory fprivate table entry,
    processLoad (imageDevice runImage) (pathOf asciiZero sampleName) (sizedKernel 4096) = .ok ((eok,some ptr),after) ∧
    after.objs ptr = some (.process process) ∧ processDirectory process after = .ok (directory,after) ∧
    RootSearch (sizedKernel 4096) fprivate table ∧
    (volumeOf (imageDevice runImage) (sizedKernel 4096).disk).resolve table (parts sampleName) = .ok (some (.file entry)) ∧
    entry.filesize = 4096 ∧ KernelMapped after directory 0x5FF000 := by
  obtain ⟨valid,_,_,fprivate,program⟩ := sized_program 4096 (by decide) (by decide)
  obtain ⟨ptr,process,after,directory,_,ran,loaded,size,_⟩ := sized_loaded 4096 (by decide) (by decide)
  obtain ⟨table,search⟩ := program.search
  obtain ⟨entry,same,leads,apart⟩ := kernel_unshadowed_iff valid ran loaded.ready.held loaded.ready.directory_run (by omega)
    (show 0x5FF000 < tssEsp0 by decide)
  have filesize : entry.filesize = 4096 := same.symm.trans size
  refine ⟨ptr,process,after,directory,fprivate,table,entry,ran,loaded.ready.held,loaded.ready.directory_run,search,leads _ _ search,
    filesize,apart.mpr ?_⟩
  rw [filesize]
  decide

theorem long_program_shadows : ∃ ptr process after directory,
    processLoad (imageDevice runImage) (pathOf asciiZero sampleName) (sizedKernel 0x1FF001) = .ok ((eok,some ptr),after) ∧
    after.objs ptr = some (.process process) ∧ processDirectory process after = .ok (directory,after) ∧ ¬ KernelMapped after directory 0x5FF000 := by
  obtain ⟨ptr,process,after,directory,_,ran,loaded,size,_⟩ := sized_loaded 0x1FF001 (by decide) (by decide)
  refine ⟨ptr,process,after,directory,ran,loaded.ready.held,loaded.ready.directory_run,fun mapped => ?_⟩
  have fits := (loaded.kernel_mapped (by omega) (by decide)).mp mapped
  rw [size] at fits
  exact absurd fits (by decide)

end NutsOS.Processes
