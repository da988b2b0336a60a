import NutsOS.Process.Population
import NutsOS.Process.Program

-- What loaded processes can do to the memory, and to each other.
namespace NutsOS.Processes
open Word32 HeapAlloc Files Fat16 DiskStreams Paging Tasks Stdutil Prog WriteLog

def walkOf (k : Kernel) (slot virt : Nat) : Option Translation :=
  match k.objs (k.processes slot) with
  | some (.process process) =>
    match processDirectory process k with
    | .ok (directory,_) => translate k directory virt
    | .error _ => none
  | _ => none

-- The byte behind an address, if both levels of the walk grant the access; else
-- the processor raises a page fault.
def userByte (k : Kernel) (access slot virt : Nat) : Option Nat :=
  (walkOf k slot virt).bind (fun t =>
    if t.flags &&& access = access ∧ t.directoryFlags &&& access = access then some (t.frame+virt%4096) else none)

structure UserStore where
  slot : Nat
  virt : UInt32
  value : UInt8

def UserStore.effect (k : Kernel) (store : UserStore) : Option (Nat × UInt8) :=
  (userByte k programFlags store.slot store.virt.toNat).map (fun byte => (byte,store.value))

def runStores (k : Kernel) (stores : List UserStore) (mem : Nat → UInt8) : Nat → UInt8 := replay mem (stores.filterMap (UserStore.effect k))

def BufferByte (k : Kernel) (slot byte : Nat) : Prop :=
  ∃ process ptr obj, ProcessAt k slot process ∧ IsBuffer process ptr ∧ k.objs ptr = some obj ∧ Extent ptr obj byte

theorem pagesEnd_le (aligned : ptr%4096 = 0) (size : Nat) : pagesEnd ptr size ≤ ptr+(size+4095)/4096*4096 := by
  unfold pagesEnd pagingAlignAddress pagingPageSize toUint32
  dsimp only
  split <;> omega

theorem range_frames (aligned : ptr%4096 = 0) (written : (page,v) ∈ rangeWrites virt ptr ((pagesEnd ptr size-ptr)/4096) flags) :
    ∃ i, i < (size+4095)/4096 ∧ v = (ptr+i*4096,flags) := by
  obtain ⟨i,small,_,rfl⟩ := mem_rangeWrites.mp written
  have low := pagesEnd_le aligned size
  have word : pagesEnd ptr size < 4294967296 := alignAddress_word (toUint32_lt _)
  exact ⟨i,by omega,by rw [Nat.mod_eq_of_lt (by omega)]⟩

section
variable (loaded : Loaded k ptr process directory table)
include loaded

theorem Loaded.walk (at' : k.objs (k.processes slot) = some (.process process)) (virt : Nat) : walkOf k slot virt = Paging.translate k directory virt := by
  unfold walkOf
  rw [at']
  dsimp only
  rw [loaded.ready.directory_run]

theorem Loaded.writable_own (word : p < 4294967296) (walk : Paging.translate k directory p = some t)
    (open' : t.flags &&& programFlags = programFlags) :
    ∃ a obj, IsBuffer process a ∧ k.objs a = some obj ∧ Extent a obj (t.frame+p%4096) := by
  obtain ⟨image,heldImage,imageLength⟩ := loaded.image
  obtain ⟨stack,heldStack,stackLength⟩ := loaded.stack
  rw [loaded.ready.maps.translate word,replay_eq] at walk
  cases found : lastWrite (imageWrites process++stackWrites process) (p/4096) with
  | none =>
    rw [found] at walk
    cases walk
    exact absurd (show taskFlags &&& programFlags = programFlags from open') (by decide)
  | some v =>
    rw [found] at walk
    cases walk
    have small : p%4096 < 4096 := Nat.mod_lt _ (by decide)
    rcases List.mem_append.mp (lastWrite_mem found) with written | written
    · obtain ⟨i,inside,rfl⟩ := range_frames loaded.imageLow.2.1 written
      refine ⟨process.ptr,_,.inl rfl,heldImage,?_⟩
      unfold Extent Obj.blocks
      rw [chars_size,imageLength]
      dsimp only [Option.getD_some]
      omega
    · obtain ⟨i,inside,rfl⟩ := range_frames loaded.stackLow.2.1 written
      refine ⟨process.stack,_,.inr rfl,heldStack,?_⟩
      unfold Extent Obj.blocks
      rw [chars_size,stackLength]
      dsimp only [Option.getD_some]
      omega

end

theorem userByte_open (walk : walkOf k slot p = some ⟨frame,programFlags,taskFlags ||| pagingIsWriteable⟩) :
    userByte k programFlags slot p = some (frame+p%4096) := by
  have page : programFlags &&& programFlags = programFlags := by decide
  have table : (taskFlags ||| pagingIsWriteable) &&& programFlags = programFlags := by decide
  unfold userByte
  rw [walk,Option.bind_some]
  exact if_pos ⟨page,table⟩

theorem userByte_shared (walk : walkOf k slot p = some ⟨frame,taskFlags,taskFlags ||| pagingIsWriteable⟩) :
    userByte k taskFlags slot p = some (frame+p%4096) ∧ userByte k programFlags slot p = none := by
  have page : taskFlags &&& taskFlags = taskFlags := by decide
  have table : (taskFlags ||| pagingIsWriteable) &&& taskFlags = taskFlags := by decide
  have locked : taskFlags &&& programFlags ≠ programFlags := by decide
  unfold userByte
  rw [walk,Option.bind_some,Option.bind_some]
  exact ⟨if_pos ⟨page,table⟩,if_neg (fun granted => locked granted.1)⟩

theorem Populated.at (populated : Populated k) (at' : ProcessAt k slot process) :
    ∃ directory table, Loaded k (k.processes slot) process directory table := by
  have taken : k.processes slot ≠ 0 := by
    intro null
    unfold ProcessAt at at'
    rw [null,populated.valid.null] at at'
    cases at'
  obtain ⟨found,directory,table,loaded⟩ := populated.loaded slot taken
  cases loaded.ready.held.symm.trans at'
  exact ⟨directory,table,loaded⟩

theorem Populated.stores_own (populated : Populated k) (word : p < 4294967296) (stored : userByte k programFlags slot p = some byte) :
    BufferByte k slot byte := by
  obtain ⟨t,walk,stored⟩ := Option.bind_eq_some_iff.mp stored
  by_cases granted : t.flags &&& programFlags = programFlags ∧ t.directoryFlags &&& programFlags = programFlags
  · rw [if_pos granted] at stored
    cases stored
    cases held : k.objs (k.processes slot) with
    | none =>
      unfold walkOf at walk
      rw [held] at walk
      cases walk
    | some obj =>
      cases obj with
      | process process =>
        obtain ⟨directory,table,loaded⟩ := populated.at held
        rw [loaded.walk held] at walk
        obtain ⟨a,obj,buffer,there,inside⟩ := loaded.writable_own word walk granted.1
        exact ⟨process,a,obj,held,buffer,there,inside⟩
      | _ =>
        unfold walkOf at walk
        rw [held] at walk
        cases walk
  · rw [if_neg granted] at stored
    cases stored

theorem Populated.buffers_apart (populated : Populated k) (one : BufferByte k i byte) (two : BufferByte k j byte) : i = j := by
  obtain ⟨p,a,first,atI,bufferA,heldA,insideA⟩ := one
  obtain ⟨q,b,second,atJ,bufferB,heldB,insideB⟩ := two
  by_cases same : a = b
  · subst same
    exact populated.apart i j p q a atI atJ bufferA bufferB
  · exact absurd insideB (populated.backed.disjoint populated.valid heldA heldB same insideA)

-- Whatever the programs store, in whatever order: the buffers of a process hold
-- what its own stores put there, and no other byte changes, the page tables that
-- the walks go through among them.
structure Isolated (k : Kernel) (mem : Nat → UInt8) (stores : List UserStore) : Prop where
  own : ∀ slot byte, BufferByte k slot byte → runStores k stores mem byte = runStores k (stores.filter (·.slot = slot)) mem byte
  outside : ∀ byte, (∀ slot, ¬ BufferByte k slot byte) → runStores k stores mem byte = mem byte
  objects : ∀ ptr obj byte, k.objs ptr = some obj → (∀ slot process, ProcessAt k slot process → ¬ IsBuffer process ptr) →
    Extent ptr obj byte → runStores k stores mem byte = mem byte

theorem Populated.isolated (populated : Populated k) (mem : Nat → UInt8) (stores : List UserStore) : Isolated k mem stores := by
  have lands {store : UserStore} {byte : Nat} {value : UInt8} (done : UserStore.effect k store = some (byte,value)) :
      BufferByte k store.slot byte := by
    obtain ⟨found,stored,same⟩ := Option.map_eq_some_iff.mp done
    cases same
    exact populated.stores_own store.virt.toNat_lt stored
  have outside (byte : Nat) (no : ∀ slot, ¬ BufferByte k slot byte) : runStores k stores mem byte = mem byte := by
    unfold runStores
    rw [replay_eq,lastWrite_none ?_]
    · rfl
    · intro value written
      obtain ⟨store,_,done⟩ := List.mem_filterMap.mp written
      exact no store.slot (lands done)
  refine ⟨fun slot byte inside => ?_,outside,fun ptr obj byte held other here => outside byte (fun slot buffer => ?_)⟩
  · refine replay_filter mem (fun store _ foreign value done => ?_)
    exact absurd (populated.buffers_apart (lands done) inside) (by simpa using foreign)
  · obtain ⟨process,a,found,at',isBuffer,there,inside⟩ := buffer
    have different : a ≠ ptr := fun same => other slot process at' (same ▸ isBuffer)
    exact populated.backed.disjoint populated.valid there held different inside here

-- Every address of a process: its image and its stack are open to it, and all
-- else is the physical memory itself, which it reads and never writes. So nothing
-- hides the buffers of one process from another.
structure AddressSpace (k : Kernel) (slot : Nat) (process : NutsOS.Process) : Prop where
  image : ∀ p, nutsosProgramVirtualAddress ≤ p → p < nutsosProgramVirtualAddress+(process.size+4095)/4096*4096 →
    userByte k programFlags slot p = some (process.ptr+(p-nutsosProgramVirtualAddress))
  stack : ∀ p, nutsosProgramVirtualStackAddressEnd ≤ p → p < nutsosProgramVirtualStackAddressEnd+nutsosUserProgramStackSize →
    userByte k programFlags slot p = some (process.stack+(p-nutsosProgramVirtualStackAddressEnd))
  shared : ∀ p, p < 4294967296 →
    ¬ (nutsosProgramVirtualAddress ≤ p ∧ p < nutsosProgramVirtualAddress+(process.size+4095)/4096*4096) →
    ¬ (nutsosProgramVirtualStackAddressEnd ≤ p ∧ p < nutsosProgramVirtualStackAddressEnd+nutsosUserProgramStackSize) →
    userByte k taskFlags slot p = some p ∧ userByte k programFlags slot p = none

theorem Loaded.addressSpace (loaded : Loaded k (k.processes slot) process directory table)
    (inside : process.ptr+process.size ≤ 2147483648) : AddressSpace k slot process := by
  have walk (p : Nat) := loaded.walk loaded.ready.held p
  obtain ⟨_,aligned,_⟩ := loaded.imageLow
  have image (i : Nat) (small : i < (process.size+4095)/4096) :
      lastWrite (imageWrites process) (0x400+i) = some (process.ptr+i*4096,programFlags) := by
    unfold imageWrites
    rw [pagesEnd_eq aligned (by omega)]
    exact range_lookup nutsosProgramVirtualAddress (by decide) (by unfold nutsosProgramVirtualAddress; omega) (by omega) small _
  have imageNone (page : Nat) (outside : page < 0x400 ∨ 0x400+(process.size+4095)/4096 ≤ page) : lastWrite (imageWrites process) page = none := by
    unfold imageWrites
    rw [pagesEnd_eq aligned (by omega)]
    exact range_outside (by decide) (by unfold nutsosProgramVirtualAddress; omega) _ _ outside
  have imageStart : nutsosProgramVirtualAddress = 0x400000 := rfl
  have stackStart : nutsosProgramVirtualStackAddressEnd = 0x3FB000 := rfl
  have stackSize : nutsosUserProgramStackSize = 0x4000 := rfl
  refine ⟨fun p low high => ?_,fun p low high => ?_,fun p word noImage noStack => ?_⟩
  · rw [imageStart] at *
    obtain ⟨offset,rfl⟩ := Nat.exists_eq_add_of_le low
    have page : (0x400000+offset)/4096 = 0x400+offset/4096 := by omega
    have found := walk (0x400000+offset)
    rw [loaded.translate (by omega),page,loaded.stack_outside (.inr (by omega)),image _ (by omega)] at found
    have opened := userByte_open (show walkOf k slot _ = some ⟨process.ptr+offset/4096*4096,programFlags,_⟩ from found)
    exact opened.trans (congrArg some (by omega))
  · rw [stackStart] at *
    rw [stackSize] at high
    obtain ⟨offset,rfl⟩ := Nat.exists_eq_add_of_le low
    have page : (0x3FB000+offset)/4096 = 0x3FB+offset/4096 := by omega
    have found := walk (0x3FB000+offset)
    rw [loaded.translate (by omega),page,loaded.stack_page (by omega)] at found
    have opened := userByte_open (show walkOf k slot _ = some ⟨process.stack+offset/4096*4096,programFlags,_⟩ from found)
    exact opened.trans (congrArg some (by omega))
  · rw [imageStart] at noImage
    rw [stackStart,stackSize] at noStack
    have found := walk p
    rw [loaded.translate word,loaded.stack_outside (by omega),imageNone _ (by omega)] at found
    have shared := userByte_shared (show walkOf k slot p = some ⟨p/4096*4096,taskFlags,_⟩ from found)
    rw [Nat.div_add_mod' p 4096] at shared
    exact shared

theorem processes_isolated (valid : HeapValid k) (backed : Backed k) (empty : ∀ slot, k.processes slot = 0)
    (ran : loadAll programs k = .ok (res,after)) (fine : ¬ res < 0) (mem : Nat → UInt8) (stores : List UserStore) : Isolated after mem stores :=
  ((populated_empty valid backed empty).loadAll ran fine).isolated mem stores

theorem address_spaces_exact (valid : HeapValid k) (backed : Backed k) (empty : ∀ slot, k.processes slot = 0)
    (ran : loadAll programs k = .ok (res,after)) (fine : ¬ res < 0) (slot : Nat) (process : NutsOS.Process) (at' : ProcessAt after slot process)
    (inside : process.ptr+process.size ≤ 2147483648) : AddressSpace after slot process := by
  obtain ⟨_,_,loaded⟩ := ((populated_empty valid backed empty).loadAll ran fine).at at'
  exact loaded.addressSpace inside

theorem rootKernel_backed (disk : Disk) (fprivate : FatPrivate) (entry : FatDirectoryItem) : Backed (rootKernel disk fprivate entry) := by
  unfold rootKernel
  cases ran : kzalloc 32 (.directoryItems [entry]) (bootKernel bootEntries disk) with
  | error e => exact boot_backed _ _
  | ok result => exact (kzalloc_backed (boot_backed _ _) (by simp) ran).congr rfl rfl

theorem loadAll_one {k : Kernel} (ran : processLoad dev filename k = .ok ((eok,some ptr),after)) (held : after.objs ptr = some (.process process)) :
    loadAll [(dev,filename)] k = .ok (0,after) ∧ ∃ slot, ProcessAt after slot process := by
  obtain ⟨slot,_,slots⟩ := processLoad_slots ran
  refine ⟨?_,slot,?_⟩
  · unfold loadAll
    rw [bind_run ran]
    dsimp only
    rw [if_neg (by decide)]
    rfl
  · unfold ProcessAt
    rw [slots]
    dsimp only
    rw [if_pos rfl]
    exact held

theorem page_loaded : ∃ slot process after,
    loadAll [(imageDevice runImage,pathOf asciiZero sampleName)] (sizedKernel 4096) = .ok (0,after) ∧
    ProcessAt after slot process ∧ process.ptr+process.size ≤ 2147483648 := by
  obtain ⟨ptr,process,after,_,_,ran,loaded,_,low⟩ := sized_loaded 4096 (by decide) (by decide)
  obtain ⟨whole,slot,at'⟩ := loadAll_one ran loaded.ready.held
  exact ⟨slot,process,after,whole,at',low⟩

theorem rootKernel_tasks (disk : Disk) (fprivate : FatPrivate) (entry : FatDirectoryItem) (a : Nat) (task : NutsOS.Task) :
    (rootKernel disk fprivate entry).objs a ≠ some (.task task) := by
  obtain ⟨ptr,k,ran,result,_⟩ := kzalloc_run 32 (boot_valid bootEntries disk rfl) (.directoryItems [entry]) (by decide) (by decide)
  unfold rootKernel
  rw [ran]
  intro held
  cases result with
  | null => cases held
  | fresh _ heap =>
    have there : (((bootKernel bootEntries disk).withHeap heap).place ptr (.directoryItems [entry])).objs a = some (.task task) := held
    by_cases same : a = ptr
    · rw [same,Kernel.place_same] at there
      cases there
    · rw [Kernel.place_other same] at there
      cases there

theorem Retained.kept (retained : Retained k after) (none : ∀ a task, k.objs a ≠ some (.task task)) (a : Nat) (live : (k.objs a).isSome) :
    after.objs a = k.objs a := by
  obtain ⟨obj,held⟩ := Option.isSome_iff_exists.mp live
  rw [held]
  exact retained.objs a obj held (fun task same => none a task (same ▸ held))

-- A kernel that runs no program yet loads one file into two processes.
theorem loads_twice {k : Kernel} (valid : HeapValid k) (processes : ∀ slot, k.processes slot = 0) (empty : ∀ n, k.fileDescriptors n = 0)
    (head : k.taskHead = 0) (none : ∀ a task, k.objs a ≠ some (.task task)) (stored : Stored image k path blocks entry fprivate chain)
    (room : Room k.heap (launchBlocks blocks+blocksFor entry.filesize+(launchBlocks blocks+blocksFor entry.filesize+0))) :
    ∃ i j p q after, i ≠ j ∧ loadAll [(imageDevice image,path),(imageDevice image,path)] k = .ok (0,after) ∧
      ProcessAt after i p ∧ p.size = entry.filesize ∧ p.ptr+p.size ≤ 2147483648 ∧
      ProcessAt after j q ∧ q.size = entry.filesize ∧ q.ptr+q.size ≤ 2147483648 := by
  obtain ⟨ptr,p,middle,_,ran,launched,onward⟩ := processLoad_run valid (fun taken => taken 0 (by decide) (processes 0)) stored
    (first_lowest empty) (by decide) (.inl head) room
  obtain ⟨_,_,_,_,given,_,adds,_⟩ := processLoad_loads valid ran (by decide)
  cases given
  obtain ⟨i,_,slots⟩ := processLoad_slots ran
  obtain ⟨fd,nonnull,files⟩ := onward.files
  have again := stored.kept onward.volume (adds.retained.kept none)
  have lowest : Lowest middle 1 := by
    refine ⟨by decide,?_,fun n earlier => ?_⟩
    · rw [files]
      exact empty 1
    · obtain rfl : n = 0 := by omega
      rw [files]
      exact nonnull
  have free : ¬ NoSlot middle := by
    intro taken
    obtain ⟨s,inside,different⟩ : ∃ s, s < nutsosMaxProcesses ∧ s ≠ i :=
      if first : i = 0 then ⟨1,by decide,by omega⟩ else ⟨0,by decide,Ne.symm first⟩
    refine taken s inside ?_
    rw [slots]
    exact (if_neg different).trans (processes s)
  obtain ⟨ptr',q,after,_,ran',launched',_⟩ := processLoad_run adds.valid free again lowest (by decide) onward.tail onward.room
  obtain ⟨_,_,_,_,given',_,adds',_⟩ := processLoad_loads adds.valid ran' (by decide)
  cases given'
  obtain ⟨j,freeJ,slots'⟩ := processLoad_slots ran'
  have apart : i ≠ j := by
    rintro rfl
    rw [slots] at freeJ
    dsimp only at freeJ
    rw [if_pos rfl] at freeJ
    have held := launched.held
    rw [freeJ,adds.valid.null] at held
    cases held
  refine ⟨i,j,p,q,after,apart,?_,?_,launched.size.trans landedBytes_length,launched.low,?_,launched'.size.trans landedBytes_length,launched'.low⟩
  · unfold loadAll
    rw [bind_run ran]
    dsimp only
    rw [if_neg (by decide)]
    unfold loadAll
    rw [bind_run ran']
    dsimp only
    rw [if_neg (by decide)]
    rfl
  · unfold ProcessAt
    rw [slots']
    dsimp only
    rw [if_neg apart,slots]
    dsimp only
    rw [if_pos rfl]
    exact adds'.retained.objs _ _ launched.held (fun _ absurd => by cases absurd)
  · unfold ProcessAt
    rw [slots']
    dsimp only
    rw [if_pos rfl]
    exact launched'.held

theorem page_loaded_twice : ∃ i j p q after, i ≠ j ∧
    loadAll [(imageDevice runImage,pathOf asciiZero sampleName),(imageDevice runImage,pathOf asciiZero sampleName)] (sizedKernel 4096) = .ok (0,after) ∧
    ProcessAt after i p ∧ p.size = 4096 ∧ p.ptr+p.size ≤ 2147483648 ∧
    ProcessAt after j q ∧ q.size = 4096 ∧ q.ptr+q.size ≤ 2147483648 := by
  obtain ⟨valid,room,empty,_,program⟩ := sized_program 4096 (by decide) (by decide)
  obtain ⟨head,processes⟩ := rootKernel_fresh sampleDisk runPrivate (sizedEntry 4096)
  exact loads_twice valid processes empty head (rootKernel_tasks _ _ _) program.stored (room.less (by decide))

-- What a program stores at the start of its image is there, whatever it tries in
-- the kernel and at the end of its first page.
theorem AddressSpace.stored {k : Kernel} (space : AddressSpace k slot process) (size : process.size = 4096) (value other last : UInt8) :
    runStores k [⟨slot,0x400000,value⟩,⟨slot,0x100000,other⟩,⟨slot,0x400FFF,last⟩] (fun _ => 0) process.ptr = value := by
  have first : userByte k programFlags slot 0x400000 = some (process.ptr+0) := space.image 0x400000 (by decide) (by rw [size]; decide)
  have kernel : userByte k programFlags slot 0x100000 = none := (space.shared 0x100000 (by decide) (by rw [size]; decide) (by decide)).2
  have final : userByte k programFlags slot 0x400FFF = some (process.ptr+0xFFF) := space.image 0x400FFF (by decide) (by rw [size]; decide)
  have one : UserStore.effect k ⟨slot,0x400000,value⟩ = some (process.ptr,value) := congrArg (Option.map _) first
  have two : UserStore.effect k ⟨slot,0x100000,other⟩ = none := congrArg (Option.map _) kernel
  have three : UserStore.effect k ⟨slot,0x400FFF,last⟩ = some (process.ptr+0xFFF,last) := congrArg (Option.map _) final
  unfold runStores
  rw [List.filterMap_cons_some one,List.filterMap_cons_none two,List.filterMap_cons_some three,replay_eq]
  simp [lastWrite]

theorem page_program_isolated : ∃ i j p q after stores, i ≠ j ∧
    loadAll [(imageDevice runImage,pathOf asciiZero sampleName),(imageDevice runImage,pathOf asciiZero sampleName)] (sizedKernel 4096) = .ok (0,after) ∧
    ProcessAt after i p ∧ ProcessAt after j q ∧
    stores = [⟨i,0x400000,1⟩,⟨j,0x400000,2⟩,⟨i,0x100000,3⟩,⟨j,0x100000,4⟩,⟨i,0x400FFF,5⟩,⟨j,0x400FFF,6⟩] ∧
    Isolated after (fun _ => 0) stores ∧ runStores after stores (fun _ => 0) p.ptr = 1 ∧ runStores after stores (fun _ => 0) q.ptr = 2 := by
  obtain ⟨valid,_⟩ := sized_program 4096 (by decide) (by decide)
  obtain ⟨i,j,p,q,after,apart,ran,one,sizeOne,lowOne,two,sizeTwo,lowTwo⟩ := page_loaded_twice
  have backed := rootKernel_backed sampleDisk runPrivate (sizedEntry 4096)
  have processes := (rootKernel_fresh sampleDisk runPrivate (sizedEntry 4096)).2
  have isolated := processes_isolated valid backed processes ran (by decide) (fun _ => 0)
    [⟨i,0x400000,1⟩,⟨j,0x400000,2⟩,⟨i,0x100000,3⟩,⟨j,0x100000,4⟩,⟨i,0x400FFF,5⟩,⟨j,0x400FFF,6⟩]
  have populated := (populated_empty valid backed processes).loadAll ran (by decide)
  obtain ⟨_,_,loadedOne⟩ := populated.at one
  obtain ⟨_,_,loadedTwo⟩ := populated.at two
  have spaceOne := loadedOne.addressSpace lowOne
  have spaceTwo := loadedTwo.addressSpace lowTwo
  refine ⟨i,j,p,q,after,_,apart,ran,one,two,rfl,isolated,?_,?_⟩
  · rw [isolated.own i p.ptr (populated.stores_own (by decide) (spaceOne.image 0x400000 (by decide) (by rw [sizeOne]; decide)))]
    simpa [apart.symm] using spaceOne.stored sizeOne 1 3 5
  · rw [isolated.own j q.ptr (populated.stores_own (by decide) (spaceTwo.image 0x400000 (by decide) (by rw [sizeTwo]; decide)))]
    simpa [apart] using spaceTwo.stored sizeTwo 2 4 6

theorem page_program_space : ∃ slot process after,
    loadAll [(imageDevice runImage,pathOf asciiZero sampleName)] (sizedKernel 4096) = .ok (0,after) ∧ AddressSpace after slot process := by
  obtain ⟨valid,_⟩ := sized_program 4096 (by decide) (by decide)
  obtain ⟨slot,process,after,ran,at',low⟩ := page_loaded
  exact ⟨slot,process,after,ran,address_spaces_exact valid (rootKernel_backed _ _ _) (rootKernel_fresh _ _ _).2 ran (by decide) slot process at' low⟩

end NutsOS.Processes
