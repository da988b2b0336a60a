import NutsOS.File.Interference
import NutsOS.File.Resolved
import NutsOS.Process.Rollback
import NutsOS.Task.Creation

-- What a process_load that succeeded has done.
namespace NutsOS.Processes
open Word32 HeapAlloc Files Fat16 DiskStreams Paging Tasks Stdutil Prog WriteLog

-- A file that fopen has opened and fstat knows: all behind its descriptor is new.
structure FreshFile (before k : Kernel) (h : Handle) : Prop where
  grown : FilesGrown before k
  handle : HandleAt k h.index h 0
  fresh : before.objs h.fprivate = none ∧ before.objs h.item = none ∧ before.objs h.target = none

theorem loadFilesystem_ok {k : Kernel} (ran : loadFilesystem desc k = .ok (system,after)) : k = after := by
  unfold loadFilesystem at ran
  cases known : desc.filesystem with
  | none =>
    rw [known] at ran
    cases ran
  | some found =>
    rw [known] at ran
    cases ran
    rfl

theorem fstat_ok {k : Kernel} (ran : fstat fd k = .ok ((res,stat),after)) (fine : ¬ res < 0) :
    ∃ found descriptor item entry, fileGetDescriptor k fd ≠ 0 ∧
      k.objs (fileGetDescriptor k fd) = some (.fileDescriptor found) ∧
      k.objs found.fprivate = some (.fatFileDescriptor descriptor) ∧ k.objs descriptor.item = some (.fatItem item) ∧
      item.type = .file ∧ (∃ obj, k.objs item.target = some obj ∧ asDirectoryItem obj = some entry) ∧
      k = after ∧ (stat.getD ⟨0,0⟩).filesize = entry.filesize := by
  unfold fstat at ran
  rw [get_bind] at ran
  dsimp only at ran
  by_cases closed : fileGetDescriptor k fd = 0
  · rw [if_pos closed] at ran
    cases ran
    exact absurd (by decide) fine
  rw [if_neg closed] at ran
  obtain ⟨found,one,loaded,ran⟩ := bind_ok.mp ran
  obtain ⟨rfl,held⟩ := load_held asFileDescriptor_eq loaded
  obtain ⟨_,two,known,told⟩ := bind_ok.mp ran
  obtain rfl := loadFilesystem_ok known
  obtain ⟨descriptor,three,loadedDescriptor,told⟩ := bind_ok.mp told
  obtain ⟨rfl,heldDescriptor⟩ := load_held asFatFileDescriptor_eq loadedDescriptor
  obtain ⟨item,four,loadedItem,told⟩ := bind_ok.mp told
  obtain ⟨rfl,heldItem⟩ := load_held asFatItem_eq loadedItem
  by_cases directory : item.type ≠ .file
  · rw [if_pos directory] at told
    cases told
    exact absurd (by decide) fine
  rw [if_neg directory] at told
  obtain ⟨entry,five,loadedEntry,answered⟩ := bind_ok.mp told
  obtain ⟨present,same⟩ := loadAs_ok.mp loadedEntry
  cases answered
  exact ⟨found,descriptor,item,entry,closed,held,heldDescriptor,heldItem,not_not.mp directory,present,same.symm,rfl⟩

theorem getDescriptor_at {i : Nat} {k : Kernel} (present : fileGetDescriptor k ((i : Int)+1) ≠ 0) :
    fileGetDescriptor k ((i : Int)+1) = k.fileDescriptors i := by
  unfold fileGetDescriptor at *
  by_cases outside : (i : Int)+1 ≤ 0 ∨ (i : Int)+1 ≥ nutsosMaxFileDescriptors
  · rw [if_pos outside] at present
    exact absurd rfl present
  · rw [if_neg outside,Int.add_sub_cancel]
    rfl

theorem fopen_stat_ok {k : Kernel} (valid : HeapValid before) (opened : fopen dev filename modeStr before = .ok (fd,k)) (nonnull : fd ≠ 0)
    (held : k.objs fd = some (.fileDescriptor found)) (told : fstat found.index k = .ok ((res,stat),after)) (fine : ¬ res < 0) :
    ∃ h, FreshFile before k h ∧ h.desc = fd ∧ h.index = found.index ∧ k = after ∧ (stat.getD ⟨0,0⟩).filesize = h.entry.filesize := by
  obtain ⟨grown,opening⟩ := fopen_grown valid opened
  cases opening with
  | refused null => exact absurd null nonnull
  | @granted i fprivate mode _ lowest granted table =>
    cases held.symm.trans granted
    obtain ⟨descriptor,driver,item,entry,present,slotHeld,heldDriver,heldItem,file,⟨obj,heldTarget,typed⟩,same,size⟩ := fstat_ok told fine
    dsimp only at present slotHeld
    have slot : fileGetDescriptor k ((i : Int)+1) = fd := by
      rw [getDescriptor_at present,table]
      exact if_pos rfl
    rw [slot,granted] at slotHeld
    cases slotHeld
    rcases fopen_new valid opened granted with error | ⟨middle,_,⟨freshPrivate,it,target,heldPrivate,at'⟩,later⟩
    · rw [error_unheld grown.valid error] at heldDriver
      cases heldDriver
    cases heldDriver.symm.trans (later.held heldPrivate)
    cases heldItem.symm.trans (later.held at'.held)
    -- the item is a file, with a copy of its entry
    cases at'.target with
    | noCopy =>
      rw [grown.valid.null] at heldTarget
      cases heldTarget
    | failed => cases file
    | directory => cases file
    | @file target entry array fresh =>
      cases heldTarget.symm.trans (later.held array)
      cases typed
      exact ⟨⟨fd,fprivate,it,target,i+1,mode,entry⟩,
        ⟨grown,⟨slot,nonnull,granted,heldDriver,heldItem,heldTarget⟩,freshPrivate,at'.fresh,fresh⟩,rfl,rfl,same,size⟩

theorem storeBytes_ok {k : Kernel} (held : k.objs buf = some (.chars old)) (ran : storeBytes buf bytes k = .ok ((),after)) :
    ∃ new, after = k.place buf (.chars new) ∧ new.length = old.length := by
  unfold storeBytes at ran
  by_cases none : bytes ≠ []
  · rw [when_true none] at ran
    unfold storeChars at ran
    rw [bind_run (loadAs_run asChars held rfl)] at ran
    by_cases long : old.length < bytes.length
    · rw [if_pos long] at ran
      cases ran
    · rw [if_neg long] at ran
      cases ran
      refine ⟨_,rfl,?_⟩
      rw [List.length_append,List.length_drop]
      omega
  · rw [when_false none] at ran
    cases ran
    exact ⟨old,(place_held held).symm,rfl⟩

theorem kzalloc_whole {k : Kernel} (ran : kzalloc size zero k = .ok (ptr,after)) (nonnull : ptr ≠ 0) :
    ¬ heapAlignValueToUpper size < size := by
  intro short
  obtain ⟨granted,one,_,ran⟩ := bind_ok.mp ran
  by_cases null : granted = 0
  · rw [if_pos null] at ran
    cases ran
    exact nonnull rfl
  · rw [if_neg null,if_pos short] at ran
    cases ran

theorem closeFile_frees {k : Kernel} (valid : HeapValid k) (handle : HandleAt k h.index h pos) (res : Int) :
    ∃ after, closeFile h.desc res k = .ok (res,after) ∧ HeapValid after ∧
      Frees k after (fun ptr => (ptr = h.target ∨ ptr = h.item) ∨ ptr = h.fprivate) := by
  obtain ⟨item,target,after,heldPrivate,heldItem,_,closed,validAfter,frees⟩ :=
    fat16Close_run valid ⟨h.item,h.target,handle.held,handle.item,handle.entry⟩
  cases heldPrivate.symm.trans handle.held
  cases heldItem.symm.trans handle.item
  refine ⟨after,?_,validAfter,frees⟩
  have closes : fclose h.index k = .ok (0,after) := by
    unfold fclose
    rw [get_bind]
    dsimp only
    rw [handle.slot,if_neg handle.nonnull,bind_run (loadAs_run asFileDescriptor handle.descriptor rfl)]
    show (do
      let _ ← fat16Close h.fprivate
      return (0 : Int)) k = _
    rw [bind_run closed]
    rfl
  unfold closeFile
  rw [bind_run (loadAs_run asFileDescriptor handle.descriptor rfl)]
  dsimp only
  rw [bind_run closes]
  rfl

theorem closeFile_handle {k : Kernel} (valid : HeapValid k) (handle : HandleAt k h.index h pos) (res : Int) :
    ∃ after, closeFile h.desc res k = .ok (res,after) ∧ HeapValid after ∧ after = {k with heap := after.heap, objs := after.objs} ∧
      ∀ ptr obj, k.objs ptr = some obj → ((∃ process, obj = .process process) ∨ ∃ bytes, obj = .chars bytes) →
        after.objs ptr = some obj := by
  obtain ⟨after,closed,validAfter,frees⟩ := closeFile_frees valid handle res
  refine ⟨after,closed,validAfter,frees.rest,fun ptr obj held kind => ?_⟩
  rw [frees.kept ptr ?_]
  · exact held
  · intro gone
    apply handle.apart held kind
    rcases gone with (target | item) | private'
    · exact .inr (.inr (.inr target))
    · exact .inr (.inr (.inl item))
    · exact .inr (.inl private')

-- What a successful process_load_binary leaves: the file's bytes in a block of
-- their own, named by the process.
structure BinaryLoaded (after : Kernel) (ptr : Nat) (process : NutsOS.Process) (buf size : Nat) : Prop where
  valid : HeapValid after
  held : after.objs ptr = some (.process {process with ptr := buf, size := size, ptrVirt := nutsosProgramVirtualAddress})
  image : ∃ bytes, after.objs buf = some (.chars bytes) ∧ bytes.length = size
  positive : 1 ≤ size
  whole : ¬ heapAlignValueToUpper size < size

theorem loaded_handle {three : Kernel} (handle : HandleAt three fd h pos) (valid : HeapValid three)
    (process : three.objs ptr = some (.process old)) (image : three.objs buf = some (.chars zeros)) (apart : ptr ≠ buf)
    (bytes : List UInt8) (named : NutsOS.Process) :
    HeapValid ((three.place buf (.chars bytes)).place ptr (.process named)) ∧
      HandleAt ((three.place buf (.chars bytes)).place ptr (.process named)) fd h pos := by
  have still : (three.place buf (.chars bytes)).objs ptr = some (.process old) := (Kernel.place_other apart).trans process
  have first : HeapValid (three.place buf (.chars bytes)) := valid.place (by simp [image]) _
  refine ⟨first.place (by simp [still]) _,handle.congr rfl (fun a has => ?_)⟩
  have notProcess : a ≠ ptr := fun same => handle.apart process (.inl ⟨_,rfl⟩) (same ▸ has)
  have notImage : a ≠ buf := fun same => handle.apart image (.inr ⟨_,rfl⟩) (same ▸ has)
  rw [Kernel.place_other notProcess,Kernel.place_other notImage]

-- The image is new, and what was there stays.
structure BinaryAdds (before after : Kernel) (ptr buf : Nat) : Prop where
  fresh : before.objs buf = none
  kept : ∀ a, a ≠ ptr → (before.objs a).isSome → after.objs a = before.objs a

theorem processLoadBinary_loads {k : Kernel} (valid : HeapValid k) (held : k.objs ptr = some (.process process))
    (ran : processLoadBinary dev filename ptr k = .ok (res,after)) (fine : ¬ res < 0) :
    ∃ buf size, BinaryLoaded after ptr process buf size ∧ BinaryAdds k after ptr buf ∧ SizedFile dev k filename size := by
  obtain ⟨fd,one,opened,ran⟩ := bind_ok.mp ran
  have grownOne := (fopen_grown valid opened).1
  by_cases null : fd = 0
  · rw [if_pos null,null] at ran
    obtain ⟨found,two,loaded,_⟩ := bind_ok.mp ran
    rw [loadAs_null grownOne.valid.null asFileDescriptor] at loaded
    cases loaded
  rw [if_neg null] at ran
  obtain ⟨found,two,loaded,ran⟩ := bind_ok.mp ran
  obtain ⟨rfl,heldFd⟩ := load_held asFileDescriptor_eq loaded
  obtain ⟨⟨statRes,stat⟩,two,told,ran⟩ := bind_ok.mp ran
  dsimp only at ran
  -- every way out closes the file and returns the code it is given
  have code {l e : _} {given : Int} (closed : closeFile fd given l = .ok (res,e)) : res = given := by
    obtain ⟨_,_,_,closed⟩ := bind_ok.mp closed
    obtain ⟨_,_,_,closed⟩ := bind_ok.mp closed
    cases closed
    rfl
  by_cases failed : statRes < 0
  · rw [if_pos failed] at ran
    exact absurd (code ran ▸ failed) fine
  rw [if_neg failed] at ran
  obtain ⟨h,fresh,desc,index,rfl,size⟩ := fopen_stat_ok valid opened null heldFd told failed
  have handle := fresh.handle
  have leads := fopen_leads valid opened (desc ▸ handle.descriptor) handle.held handle.item handle.entry
  rw [size] at ran
  generalize entry : h.entry.filesize = filesize at *
  obtain ⟨buf,two,allocated,ran⟩ := bind_ok.mp ran
  obtain ⟨grownTwo,block⟩ := kzalloc_ok fresh.grown.valid allocated
  by_cases full : buf = 0
  · rw [if_pos full] at ran
    exact absurd (show res < 0 by rw [code ran]; decide) fine
  rw [if_neg full] at ran
  obtain ⟨again,three,loadedAgain,ran⟩ := bind_ok.mp ran
  obtain ⟨rfl,heldAgain⟩ := load_held asFileDescriptor_eq loadedAgain
  cases heldAgain.symm.trans (grownTwo.held heldFd)
  obtain ⟨⟨read,bytes⟩,three,reading,ran⟩ := bind_ok.mp ran
  obtain ⟨⟨⟩,four,stored,ran⟩ := bind_ok.mp ran
  dsimp only at stored ran
  by_cases short : read ≠ 1
  · rw [if_pos short] at ran
    exact absurd (show res < 0 by rw [code ran]; decide) fine
  rw [if_neg short] at ran
  obtain ⟨⟨⟩,five,named,ran⟩ := bind_ok.mp ran
  have handleTwo : HandleAt two h.index h 0 :=
    fresh.handle.congr (by rw [grownTwo.rest]) (fun a has => grownTwo.kept a (fresh.handle.live has))
  rw [← index,fread_handle handleTwo] at reading
  by_cases empty : filesize = 0 ∨ 1 = 0
  · rw [if_pos empty] at reading
    cases reading
    exact absurd (by decide) short
  rw [if_neg empty] at reading
  have only : OnlyDisk two three := readItems_only _ _ _ _ _ _ _ _ reading
  have objsThree : three.objs = two.objs := by rw [only.rest]
  cases block with
  | null none => exact absurd none full
  | empty none => exact absurd (.inl none) empty
  | fresh positive _ new buffer =>
    have heldOne := fresh.grown.held held
    have apart : ptr ≠ buf := by
      intro same
      rw [← same,heldOne] at new
      cases new
    obtain ⟨bytes',rfl,length⟩ := storeBytes_ok (by rw [objsThree]; exact buffer) stored
    have heldFour : (three.place buf (.chars bytes')).objs ptr = some (.process process) := by
      rw [Kernel.place_other apart,objsThree]
      exact grownTwo.held heldOne
    rw [updateProcess_run heldFour] at named
    cases named
    have handleThree := handleTwo.only_disk only
    have heldThree : three.objs ptr = some (.process process) := by
      rw [objsThree]
      exact grownTwo.held heldOne
    have imageThree : three.objs buf = some (.chars (List.replicate filesize 0)) := by
      rw [objsThree]
      exact buffer
    have validThree : HeapValid three := by
      rw [only.rest]
      exact grownTwo.valid.congr rfl (fun _ live => live)
    obtain ⟨validFive,handleFive⟩ := loaded_handle handleThree validThree heldThree imageThree apart bytes'
      {process with ptr := buf, size := filesize, ptrVirt := nutsosProgramVirtualAddress}
    obtain ⟨last,closed,validLast,frees⟩ := closeFile_frees validFive handleFive statRes
    obtain ⟨again,closed',_,_,kept⟩ := closeFile_handle validFive handleFive statRes
    cases closed.symm.trans closed'
    rw [← desc,closed] at ran
    cases ran
    have image := kept buf (.chars bytes') (by
      rw [Kernel.place_other (Ne.symm apart)]
      exact Kernel.place_same _ _ _) (.inr ⟨_,rfl⟩)
    refine ⟨buf,filesize,⟨validLast,kept ptr _ (Kernel.place_same _ _ _) (.inl ⟨_,rfl⟩),
      ⟨bytes',image,by rw [length,List.length_replicate]⟩,positive,kzalloc_whole allocated full⟩,⟨?_,fun a other live => ?_⟩,
      h.entry,entry.symm,leads⟩
    · cases present : k.objs buf with
      | none => rfl
      | some obj =>
        have still := fresh.grown.held present
        rw [new] at still
        cases still
    · -- the buffer and the three objects of the file are new
      have one := fresh.grown.kept a live
      have liveOne := live
      rw [← one] at liveOne
      have notImage : a ≠ buf := by
        intro same
        rw [same,new] at liveOne
        cases liveOne
      have notFile : ¬ ((a = h.target ∨ a = h.item) ∨ a = h.fprivate) := by
        rintro ((rfl | rfl) | rfl)
        · simp [fresh.fresh.2.2] at live
        · simp [fresh.fresh.2.1] at live
        · simp [fresh.fresh.1] at live
      rw [frees.kept a notFile,Kernel.place_other other,Kernel.place_other notImage,objsThree,grownTwo.kept a liveOne,one]

structure Ready (k : Kernel) (ptr : Nat) (process : NutsOS.Process) (directory : Nat) (table : Nat → Nat) (m : Nat → Nat × Nat) : Prop where
  held : k.objs ptr = some (.process process)
  task : ∃ task, k.objs process.task = some (.task task) ∧ k.objs task.pageDirectory = some (.pagingChunk ⟨directory,1024,1024⟩)
  maps : Maps k directory (taskFlags ||| pagingIsWriteable) table m

theorem Ready.directory_run (ready : Ready k ptr process directory table m) : processDirectory process k = .ok (directory,k) := by
  obtain ⟨task,held,chunk⟩ := ready.task
  unfold processDirectory
  rw [bind_run (loadTask_run held),bind_run (loadAs_run asPagingChunk chunk rfl)]
  rfl

def OnlyWords (before after : Kernel) : Prop :=
  ∀ ptr obj, before.objs ptr = some obj → (∀ words, obj ≠ .words words) → after.objs ptr = some obj

theorem OnlyWords.trans (one : OnlyWords before middle) (two : OnlyWords middle after) : OnlyWords before after :=
  fun ptr obj held other => two ptr obj (one ptr obj held other) other

theorem Ready.only_words {k : Kernel} (ready : Ready k ptr process directory table m) (same : SameBut k after (IsTable table)) :
    OnlyWords k after := by
  intro a obj held other
  rw [same.objs a ?_]
  · exact held
  · rintro ⟨i,inside,rfl⟩
    obtain ⟨words,present,_⟩ := ready.maps.tables i inside
    exact other words (Option.some.inj (held.symm.trans present))

theorem Ready.mapped (ready : Ready k ptr process directory table m) (maps : Maps after directory (taskFlags ||| pagingIsWriteable) table m')
    (only : OnlyWords k after) : Ready after ptr process directory table m' := by
  obtain ⟨task,held,chunk⟩ := ready.task
  refine ⟨only _ _ ready.held ?_,⟨task,only _ _ held ?_,only _ _ chunk ?_⟩,maps⟩
  all_goals
    intro words absurd
    cases absurd

theorem alignAddress_aligned (ptr : Nat) : pagingAlignAddress ptr%4096 = 0 := by
  unfold pagingAlignAddress pagingPageSize toUint32
  dsimp only
  split <;> omega

theorem alignAddress_word (word : ptr < 4294967296) : pagingAlignAddress ptr < 4294967296 := by
  unfold pagingAlignAddress
  dsimp only
  split
  · exact toUint32_lt _
  · exact word

theorem mapTo_ok {k : Kernel} (ready : Ready k ptr process directory table m) (alignedVirt : virt%4096 = 0) (alignedPhys : phys%4096 = 0)
    (virtWord : virt < 4294967296) (endWord : physEnd < 4294967296) (alignedEnd : physEnd%4096 = 0)
    (ran : pagingMapTo directory virt phys physEnd programFlags k = .ok (res,after)) (fine : ¬ res < 0) :
    phys ≤ physEnd ∧ SameBut k after (IsTable table) ∧
      Ready after ptr process directory table (replay m (rangeWrites virt phys ((physEnd-phys)/4096) programFlags)) := by
  by_cases ordered : phys ≤ physEnd
  · obtain ⟨mapped,ran',maps,same⟩ := pagingMapTo_run ready.maps alignedVirt alignedPhys alignedEnd ordered virtWord endWord
      (show programFlags < 4096 by decide)
    rw [ran'] at ran
    cases ran
    exact ⟨ordered,same,ready.mapped maps (ready.only_words same)⟩
  · rw [pagingMapTo_refused (fun accepted => ordered accepted.2.2.2)] at ran
    cases ran
    exact absurd (by decide) fine

def pagesEnd (ptr size : Nat) : Nat := pagingAlignAddress (toUint32 ((ptr+size : Nat) : Int))

def imageWrites (process : NutsOS.Process) : List (Nat × (Nat × Nat)) :=
  rangeWrites nutsosProgramVirtualAddress process.ptr ((pagesEnd process.ptr process.size-process.ptr)/4096) programFlags

def stackWrites (process : NutsOS.Process) : List (Nat × (Nat × Nat)) :=
  rangeWrites nutsosProgramVirtualStackAddressEnd process.stack
    ((pagesEnd process.stack nutsosUserProgramStackSize-process.stack)/4096) programFlags

theorem processMapMemory_ok {k : Kernel} (ready : Ready k ptr process directory table m) (image : process.ptr%4096 = 0)
    (stack : process.stack%4096 = 0) (ran : processMapMemory ptr k = .ok (res,after)) (fine : ¬ res < 0) :
    process.ptr ≤ pagesEnd process.ptr process.size ∧ SameBut k after (IsTable table) ∧
      Ready after ptr process directory table (replay m (imageWrites process++stackWrites process)) := by
  obtain ⟨first,middle,mapped,ran⟩ := bind_ok.mp ran
  by_cases failed : first < 0
  · rw [if_pos failed] at ran
    cases ran
    exact absurd failed fine
  rw [if_neg failed] at ran
  unfold processMapBinary at mapped
  rw [bind_run (loadAs_run asProcess ready.held rfl),bind_run ready.directory_run] at mapped
  obtain ⟨ordered,one,half⟩ := mapTo_ok ready (by decide) image (by decide) (alignAddress_word (toUint32_lt _)) (alignAddress_aligned _) mapped failed
  rw [bind_run (loadAs_run asProcess half.held rfl),bind_run half.directory_run] at ran
  obtain ⟨_,two,whole⟩ := mapTo_ok half (by decide) stack (by decide) (alignAddress_word (toUint32_lt _)) (alignAddress_aligned _) ran fine
  rw [← replay_append] at whole
  exact ⟨ordered,one.trans two,whole⟩

-- What a process_load that returned EOK leaves behind.
structure Loaded (after : Kernel) (ptr : Nat) (process : NutsOS.Process) (directory : Nat) (table : Nat → Nat) : Prop where
  ready : Ready after ptr process directory table (replay (identityMap taskFlags) (imageWrites process++stackWrites process))
  image : ∃ bytes, after.objs process.ptr = some (.chars bytes) ∧ bytes.length = process.size
  stack : ∃ bytes, after.objs process.stack = some (.chars bytes) ∧ bytes.length = nutsosUserProgramStackSize
  imageLow : process.ptr ≠ 0 ∧ process.ptr%4096 = 0 ∧ process.ptr+4096 ≤ 2147483648
  stackLow : process.stack ≠ 0 ∧ process.stack%4096 = 0 ∧ process.stack+4096 ≤ 2147483648
  imageWindow : process.ptrVirt = nutsosProgramVirtualAddress
  stackWindow : process.stackVirt = nutsosProgramVirtualStackAddressEnd ∧ process.stackSize = nutsosUserProgramStackSize
  positive : 1 ≤ process.size
  whole : ¬ heapAlignValueToUpper process.size < process.size
  ordered : process.ptr ≤ pagesEnd process.ptr process.size

theorem loadFailed_ok {k : Kernel} (ran : loadFailed ptr code k = .ok ((res,out),after)) : res = code := by
  obtain ⟨_,_,_,ran⟩ := bind_ok.mp ran
  obtain ⟨_,_,_,ran⟩ := bind_ok.mp ran
  cases ran
  rfl

theorem created_ready {k : Kernel} (new : Created k created task ptr blocks) (linked : Relinked created after)
    (held : k.objs ptr = some (.process process)) (f : NutsOS.Process → NutsOS.Process) (names : (f process).task = task) :
    after.objs ptr = some (.process process) ∧
      Ready (after.place ptr (.process (f process))) ptr (f process) blocks.directory blocks.table (identityMap taskFlags) := by
  have heldAfter : after.objs ptr = some (.process process) := by
    have before := new.grown.held held
    rw [linked.others ptr (fun _ absurd => by cases before.symm.trans absurd)]
    exact before
  -- the blocks of the directory hold no task and no process
  have keep (a : Nat) (has : blocks.Has a) : (after.place ptr (.process (f process))).objs a = created.objs a := by
    have kind := new.chunk.kind has
    have same : after.objs a = created.objs a := by
      apply linked.others
      intro other absurd
      rcases kind with ⟨_,present⟩ | ⟨_,present⟩ <;> cases present.symm.trans absurd
    have different : a ≠ ptr := by
      intro here
      rw [here,heldAfter] at same
      rw [here] at kind
      rcases kind with ⟨_,present⟩ | ⟨_,present⟩ <;> cases same.trans present
    rw [Kernel.place_other different,same]
  obtain ⟨task',heldTask,same⟩ := linked.tasks _ _ new.held
  have different : task ≠ ptr := by
    intro here
    rw [here,heldAfter] at heldTask
    cases heldTask
  refine ⟨heldAfter,Kernel.place_same _ _ _,⟨task',?_,?_⟩,?_⟩
  · rw [names,Kernel.place_other different]
    exact heldTask
  · rw [same]
    exact (keep _ (.inl rfl)).trans new.chunk.held
  · exact new.maps.congr (keep _ (.inr (.inl rfl))) (fun i inside => keep _ (.inr (.inr ⟨i,inside,rfl⟩)))

-- Nothing that was there is given back or changed, but for the links of the tasks.
structure Retained (before after : Kernel) : Prop where
  objs : ∀ a obj, before.objs a = some obj → (∀ task, obj ≠ .task task) → after.objs a = some obj
  tasks : ∀ a task, before.objs a = some (.task task) → ∃ linked, after.objs a = some (.task linked) ∧ linked.pageDirectory = task.pageDirectory

theorem Retained.refl (k : Kernel) : Retained k k := ⟨fun _ _ held _ => held,fun _ task held => ⟨task,held,rfl⟩⟩

theorem Retained.fresh (retained : Retained before after) (empty : after.objs a = none) : before.objs a = none := by
  cases held : before.objs a with
  | none => rfl
  | some obj =>
    by_cases isTask : ∃ task, obj = .task task
    · obtain ⟨task,rfl⟩ := isTask
      obtain ⟨linked,there,_⟩ := retained.tasks a task held
      cases empty.symm.trans there
    · cases empty.symm.trans (retained.objs a obj held (fun task same => isTask ⟨task,same⟩))

theorem Retained.step (retained : Retained k middle) (kept : ∀ a, (k.objs a).isSome → (middle.objs a).isSome → after.objs a = middle.objs a) :
    Retained k after := by
  refine ⟨fun a obj held other => ?_,fun a task held => ?_⟩
  · have there := retained.objs a obj held other
    rw [kept a (by simp [held]) (by simp [there])]
    exact there
  · obtain ⟨linked,there,links⟩ := retained.tasks a task held
    refine ⟨linked,?_,links⟩
    rw [kept a (by simp [held]) (by simp [there])]
    exact there

theorem Retained.grown (retained : Retained k middle) (kept : ∀ a, (middle.objs a).isSome → after.objs a = middle.objs a) : Retained k after :=
  retained.step (fun a _ live => kept a live)

theorem Retained.place (retained : Retained k middle) (fresh : k.objs ptr = none) (obj : Obj) : Retained k (middle.place ptr obj) := by
  refine retained.step (fun a live _ => Kernel.place_other (fun same => ?_))
  rw [same,fresh] at live
  cases live

theorem Retained.same {touched : Nat → Prop} (retained : Retained k middle) (same : SameBut middle after touched)
    (fresh : ∀ a, touched a → k.objs a = none) : Retained k after := by
  refine retained.step (fun a live _ => same.objs a (fun here => ?_))
  rw [fresh a here] at live
  cases live

theorem Retained.relinked (retained : Retained k middle) (linked : Relinked middle after) : Retained k after := by
  refine ⟨fun a obj held other => ?_,fun a task held => ?_⟩
  · have there := retained.objs a obj held other
    rw [linked.others a (fun task absurd => ?_)]
    · exact there
    · cases there.symm.trans absurd
      exact other task rfl
  · obtain ⟨one,there,links⟩ := retained.tasks a task held
    obtain ⟨two,later,links'⟩ := linked.tasks a one there
    exact ⟨two,later,links'.trans links⟩

theorem Relinked.valid {k : Kernel} (linked : Relinked k after) (valid : HeapValid k) : HeapValid after := by
  refine valid.congr linked.heap (fun a live => ?_)
  by_cases isTask : ∃ task, k.objs a = some (.task task)
  · obtain ⟨task,held⟩ := isTask
    simp [held]
  · rw [linked.others a (fun task held => isTask ⟨task,held⟩)] at live
    exact live

theorem SameBut.valid {k : Kernel} {touched : Nat → Prop} (same : SameBut k after touched) (live : ∀ a, touched a → (k.objs a).isSome)
    (valid : HeapValid k) : HeapValid after := by
  refine valid.congr (by rw [same.rest]) (fun a there => ?_)
  by_cases here : touched a
  · exact live a here
  · rw [same.objs a here] at there
    exact there

structure LoadAdds (before after : Kernel) (ptr : Nat) (process : NutsOS.Process) : Prop where
  valid : HeapValid after
  retained : Retained before after
  fresh : before.objs ptr = none ∧ before.objs process.ptr = none ∧ before.objs process.stack = none
  different : process.ptr ≠ process.stack

theorem processLoadForSlot_loads {k : Kernel} (valid : HeapValid k) (free : k.processes slot = 0) (inside : slot < nutsosMaxProcesses)
    (ran : processLoadForSlot dev filename slot k = .ok ((res,out),after)) (fine : ¬ res < 0) :
    ∃ ptr process directory table, out = some ptr ∧ Loaded after ptr process directory table ∧ LoadAdds k after ptr process ∧
      SizedFile dev k filename process.size := by
  unfold processLoadForSlot at ran
  rw [get_bind,if_neg (by rw [processGet_free free inside]; simp)] at ran
  rcases kzalloc_process valid (.process zeroProcess) with ⟨_,refused⟩ | ⟨_,ptr,one,allocated,nonnull,grown,fresh,held⟩
  · rw [bind_run refused,if_pos rfl] at ran
    cases ran
    exact absurd (by decide) fine
  rw [bind_run allocated,if_neg nonnull,bind_run (updateProcess_run held _)] at ran
  have validOne : HeapValid (one.place ptr (.process zeroProcess)) := grown.valid.place (by simp [held]) _
  obtain ⟨first,two,loaded,ran⟩ := bind_ok.mp ran
  by_cases failed : first < 0
  · rw [if_pos failed] at ran
    exact absurd (loadFailed_ok ran ▸ failed) fine
  rw [if_neg failed] at ran
  obtain ⟨buf,size,binary,adds,sized⟩ := processLoadBinary_loads validOne (Kernel.place_same _ _ _) loaded failed
  obtain ⟨stack,three,given,ran⟩ := bind_ok.mp ran
  obtain ⟨grownThree,⟨missing,_⟩ | ⟨nonzero,freshStack,array⟩⟩ := kzalloc_fresh binary.valid (by decide) given
  · rw [if_pos missing] at ran
    exact absurd (show res < 0 by rw [loadFailed_ok ran]; decide) fine
  rw [if_neg nonzero,bind_run (updateProcess_run (grownThree.held binary.held) _)] at ran
  obtain ⟨bytes,image,length⟩ := binary.image
  have heldThree := grownThree.held binary.held
  obtain ⟨task,five,started,ran⟩ := bind_ok.mp ran
  obtain ⟨created,blocks,new,linked⟩ := taskNew_ok (grownThree.valid.place (by simp [heldThree]) _) started
  obtain ⟨heldFive,ready⟩ := created_ready new linked (Kernel.place_same _ _ _) (fun p => {p with task := task}) rfl
  rw [bind_run (updateProcess_run heldFive _)] at ran
  obtain ⟨last,six,mapped,ran⟩ := bind_ok.mp ran
  by_cases refused : last < 0
  · rw [if_pos refused] at ran
    exact absurd (loadFailed_ok ran ▸ refused) fine
  rw [if_neg refused] at ran
  have imageLow := (binary.valid.low (by simp [image] : (two.objs buf).isSome))
  have stackLow := (grownThree.valid.low (by simp [array] : (three.objs stack).isSome))
  obtain ⟨ordered,same,done⟩ := processMapMemory_ok ready imageLow.2.1 stackLow.2.1 mapped refused
  have only := ready.only_words same
  -- the two buffers are there to the end
  have keep {a chars} (there : three.objs a = some (.chars chars)) : six.objs a = some (.chars chars) := by
    have different : a ≠ ptr := by
      intro same
      rw [same,heldThree] at there
      cases there
    refine only _ _ ?_ (fun _ absurd => by cases absurd)
    rw [Kernel.place_other different]
    have before := new.grown.held (show (three.place ptr _).objs a = _ from (Kernel.place_other different).trans there)
    rw [linked.others a (fun _ absurd => by cases before.symm.trans absurd)]
    exact before
  -- what was there before the call is not among the blocks it was given
  have loadedTwo : Retained k two := by
    refine (((Retained.refl k).grown grown.kept).place fresh (.process zeroProcess)).step (fun a live there => adds.kept a ?_ there)
    intro same
    rw [same,fresh] at live
    cases live
  have stacked := loadedTwo.grown grownThree.kept
  have tasked := (stacked.place fresh _).grown new.grown.objs
  have mappedSix := ((tasked.relinked linked).place fresh _).same same (by
    rintro a ⟨i,inTable,rfl⟩
    exact (stacked.place fresh _).fresh (new.fresh.2 (blocks.table i) (.inr (.inr ⟨i,inTable,rfl⟩))))
  have validSix : HeapValid six := by
    refine SameBut.valid same ?_ ((Relinked.valid linked new.valid).place (by simp [heldFive]) _)
    rintro a ⟨i,inTable,rfl⟩
    obtain ⟨words,present,_⟩ := ready.maps.tables i inTable
    simp [present]
  have freshImage : k.objs buf = none :=
    (((Retained.refl k).grown grown.kept).place fresh (.process zeroProcess)).fresh adds.fresh
  have different : buf ≠ stack := by
    intro same
    rw [same,freshStack] at image
    cases image
  cases ran
  refine ⟨ptr,_,blocks.directory,blocks.table,rfl,⟨⟨done.held,done.task,done.maps.congr rfl (fun _ _ => rfl)⟩,?_,?_,imageLow,stackLow,rfl,⟨rfl,rfl⟩,
    binary.positive,binary.whole,ordered⟩,⟨validSix.congr rfl (fun _ live => live),mappedSix.grown (fun _ _ => rfl),
    ⟨fresh,freshImage,loadedTwo.fresh freshStack⟩,different⟩,sized.of_grown (grown.place fresh (by simp [held]) _)⟩
  · exact ⟨bytes,keep (grownThree.held image),length⟩
  · exact ⟨_,keep array,List.length_replicate⟩

theorem processLoad_loads {k : Kernel} (valid : HeapValid k) (ran : processLoad dev filename k = .ok ((res,out),after)) (fine : ¬ res < 0) :
    ∃ ptr process directory table, out = some ptr ∧ Loaded after ptr process directory table ∧ LoadAdds k after ptr process ∧
      SizedFile dev k filename process.size := by
  by_cases full : NoSlot k
  · rw [processLoad_full full] at ran
    cases ran
    exact absurd (by decide) fine
  · obtain ⟨slot,inside,free,called⟩ := processLoad_slot full dev filename
    exact processLoadForSlot_loads valid free inside (called.symm.trans ran) fine

theorem processLoad_ok {k : Kernel} (valid : HeapValid k) (ran : processLoad dev filename k = .ok ((res,out),after)) (fine : ¬ res < 0) :
    ∃ ptr process directory table, out = some ptr ∧ Loaded after ptr process directory table := by
  obtain ⟨ptr,process,directory,table,given,loaded,_⟩ := processLoad_loads valid ran fine
  exact ⟨ptr,process,directory,table,given,loaded⟩

end NutsOS.Processes
