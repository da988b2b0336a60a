import NutsOS.Fat16.Walk
import NutsOS.Fat16.Watched
import NutsOS.Kernel.Boot

-- Opening a file of the root directory, with memory for it.
namespace NutsOS.Fat16
open Word32 HeapAlloc Files DiskStreams Prog

-- The first entry of the mounted root directory that the name matches.
structure RootFile (k : Kernel) (name : List UInt8) (entry : FatDirectoryItem) : Prop where
  mounted : ∃ fprivate front back, k.disk.fsPrivate = some fprivate ∧
    k.objs fprivate.rootDirectory.item = some (.directoryItems (front++entry::back)) ∧
    fprivate.rootDirectory.total = (front++entry::back).length ∧
    ∀ other ∈ front, entryMatches other name = false
  found : entryMatches entry name = true
  file : FatDirectoryItem.isSubdirectory entry = false

theorem RootFile.kept {k after : Kernel} (root : RootFile k name entry) (volume : SameVolume k.disk after.disk)
    (kept : ∀ ptr, (k.objs ptr).isSome → after.objs ptr = k.objs ptr) : RootFile after name entry := by
  obtain ⟨fprivate,front,back,disk,held,total,others⟩ := root.mounted
  refine ⟨⟨fprivate,front,back,?_,?_,total,others⟩,root.found,root.file⟩
  · rw [volume.fsPrivate]
    exact disk
  · rw [kept _ (by simp [held])]
    exact held

theorem RootFile.grown {k after : Kernel} (root : RootFile k name entry) (grown : Grown k after) : RootFile after name entry :=
  root.kept grown.volume grown.kept

structure DriverFile (k : Kernel) (fprivate pos : Nat) (entry : FatDirectoryItem) : Prop where
  held : ∃ item target, k.objs fprivate = some (.fatFileDescriptor ⟨item,pos⟩) ∧ k.objs item = some (.fatItem ⟨target,.file⟩) ∧
    k.objs target = some (.directoryItems [entry])

theorem DriverFile.kept {k after : Kernel} (opened : DriverFile k fprivate pos entry)
    (kept : ∀ ptr, (k.objs ptr).isSome → after.objs ptr = k.objs ptr) : DriverFile after fprivate pos entry := by
  obtain ⟨item,target,descriptor,held,array⟩ := opened.held
  have keep {ptr obj} (present : k.objs ptr = some obj) : after.objs ptr = some obj := by
    rw [kept ptr (by simp [present])]
    exact present
  exact ⟨item,target,keep descriptor,keep held,keep array⟩

-- Services that do what the driver's own calls do when these succeed.
structure Faithful (services : Services ε) : Prop where
  run : ∀ {α : Type} {x : KernelProg α} {k a after}, x k = .ok (a,after) → services.run x k = .ok (a,after)
  kzalloc : ∀ {k size zero ptr after}, kzalloc size zero k = .ok (ptr,after) → ptr ≠ 0 → services.kzalloc size zero k = .ok (ptr,after)

-- And load a directory where the driver does.
def Loads (services : Services ε) (dev : BlockDevice) : Prop :=
  ∀ {entry k ptr after directory}, fat16LoadFatDirectory dev entry k = .ok (ptr,after) → HeapValid after →
    after.objs ptr = some (.fatDirectory directory) → services.loadFatDirectory entry k = .ok (ptr,after)

theorem plain_faithful (dev : BlockDevice) : Faithful (plain dev) := ⟨fun ran => ran,fun ran _ => ran⟩

theorem watched_faithful (dev : BlockDevice) : Faithful (watched dev) := by
  refine ⟨embed_run,fun {k size zero ptr after} ran nonnull => ?_⟩
  show (embed Stop.fault (NutsOS.kzalloc size zero) >>= fun ptr => if ptr = 0 then fault .full else pure ptr) k = _
  rw [bind_run (embed_run ran),if_neg nonnull]
  rfl

section
variable {ε : Type} {services : Services ε} (faithful : Faithful services)
include faithful

theorem copyItem_run {k : Kernel} (valid : HeapValid k) (entry : FatDirectoryItem) (room : Room k.heap (1+rest)) :
    ∃ copy after, copyDirectoryItemWith services entry k = .ok (copy,after) ∧ Served k (.directoryItems [entry]) rest copy after := by
  obtain ⟨copy,one,allocated,served⟩ := kzalloc_served 32 _ valid (.directoryItems [zeroDirectoryItem]) (by decide) (by decide) room
  let after := one.place copy (.directoryItems [entry])
  refine ⟨copy,after,?_,served.grown.place served.fresh (by simp [served.held]) _,
    served.nonnull,served.fresh,Kernel.place_same _ _ _,served.room⟩
  have stored : services.run (store copy (.directoryItems [entry])) one = .ok ((),after) := faithful.run rfl
  unfold copyDirectoryItemWith
  rw [bind_run (faithful.kzalloc allocated served.nonnull),if_neg served.nonnull,bind_run stored]
  rfl

theorem newFatItem_run {k : Kernel} (valid : HeapValid k) (file : FatDirectoryItem.isSubdirectory entry = false)
    (room : Room k.heap (2+rest)) :
    ∃ item target after, newFatItemWith services entry k = .ok (item,after) ∧
      Served k (.fatItem ⟨target,.file⟩) rest item after ∧ after.objs target = some (.directoryItems [entry]) := by
  rw [show 2+rest = 1+(1+rest) by omega] at room
  obtain ⟨item,one,allocated,first⟩ := kzalloc_served 8 _ valid (.fatItem ⟨0,.directory⟩) (by decide) (by decide) room
  obtain ⟨target,two,copied,second⟩ := copyItem_run faithful first.grown.valid entry first.room
  have kept := second.grown.held first.held
  have different : target ≠ item := by
    intro same
    have fresh := second.fresh
    rw [same,first.held] at fresh
    cases fresh
  let after := two.place item (.fatItem ⟨target,.file⟩)
  refine ⟨item,target,after,?_,⟨(first.grown.trans second.grown).place first.fresh (by simp [kept]) _,first.nonnull,first.fresh,
    Kernel.place_same _ _ _,second.room⟩,?_⟩
  · have stored : services.run (store item (.fatItem ⟨target,.file⟩)) two = .ok ((),after) := faithful.run rfl
    unfold newFatItemWith
    rw [bind_run (faithful.kzalloc allocated first.nonnull),if_neg first.nonnull,if_neg (by simp [file]),bind_run copied,
      bind_run stored]
    rfl
  · rw [Kernel.place_other different]
    exact second.held

theorem findItem_run (seen : List FatDirectoryItem) {k : Kernel}
    (held : k.objs directory.item = some (.directoryItems (seen++front++entry::back)))
    (others : ∀ other ∈ front, entryMatches other name = false) (found : entryMatches entry name = true)
    (enough : front.length < count) :
    findItemWith services directory name count seen.length k = newFatItemWith services entry k := by
  have loaded := faithful.run (loadAs_run asDirectoryItems held rfl)
  induction front generalizing seen count with
  | nil =>
    obtain ⟨count,rfl⟩ := Nat.exists_eq_add_of_lt enough
    rw [findItemWith,bind_run loaded]
    simp [found]
  | cons other front ih =>
    cases count with
    | zero => exact absurd enough (Nat.not_lt_zero _)
    | succ count =>
      have next := ih (seen++[other]) (by simpa using held)
        (fun o member => others o (List.mem_cons_of_mem _ member)) (Nat.lt_of_succ_lt_succ enough) (by simpa using loaded)
      rw [findItemWith,bind_run loaded]
      simp only [List.append_assoc,List.cons_append,List.getElem?_append_right (Nat.le_refl _),Nat.sub_self,
        List.getElem?_cons_zero,others other List.mem_cons_self]
      rw [List.length_append] at next
      exact next

theorem getDirectoryEntry_run {k : Kernel} (valid : HeapValid k) (root : RootFile k (partString name) entry)
    (part : PartAt k path name 0) (room : Room k.heap (2+rest)) :
    ∃ item target after, getDirectoryEntryWith services path k = .ok (item,after) ∧
      Served k (.fatItem ⟨target,.file⟩) rest item after ∧ after.objs target = some (.directoryItems [entry]) := by
  obtain ⟨fprivate,front,back,disk,held,total,others⟩ := root.mounted
  obtain ⟨item,target,after,made,served,array⟩ := newFatItem_run faithful valid root.file room
  have loaded : onDisk loadPrivate k = .ok (fprivate,k) := onDisk_run (loadPrivate_known disk)
  have count : fprivate.rootDirectory.total.toNat = (front++entry::back).length := by
    rw [total]
    rfl
  have searched : findItemInDirectoryWith services fprivate.rootDirectory (partString name) k = .ok (item,after) := by
    unfold findItemInDirectoryWith
    rw [← made]
    exact findItem_run faithful [] held others root.found (by rw [count]; simp)
  refine ⟨item,target,after,?_,served,array⟩
  unfold getDirectoryEntryWith
  rw [bind_run (faithful.run loaded),bind_run (faithful.run (loadPart_run part))]
  dsimp only
  rw [bind_run searched,if_neg served.nonnull]
  rfl

theorem openWith_run {k : Kernel} (valid : HeapValid k) (root : RootFile k (partString name) entry)
    (part : PartAt k path name 0) (room : Room k.heap (3+rest)) :
    ∃ descriptor after, openWith services path .read k = .ok (descriptor,after) ∧ Grown k after ∧ descriptor ≠ 0 ∧
      DriverFile after descriptor 0 entry ∧ Room after.heap rest := by
  rw [show 3+rest = 1+(2+rest) by omega] at room
  obtain ⟨descriptor,one,allocated,first⟩ := kzalloc_served 8 _ valid (.fatFileDescriptor ⟨0,0⟩) (by decide) (by decide) room
  obtain ⟨buf,heldPart,heldName⟩ := part.held
  have partOne : PartAt one path name 0 := ⟨buf,first.grown.held heldPart,first.grown.held heldName⟩
  obtain ⟨item,target,two,resolved,second,array⟩ :=
    getDirectoryEntry_run faithful first.grown.valid (root.grown first.grown) partOne first.room
  have kept := second.grown.held first.held
  have notItem : item ≠ descriptor := by
    intro same
    have fresh := second.fresh
    rw [same,first.held] at fresh
    cases fresh
  have notTarget : target ≠ descriptor := by
    intro same
    rw [same,kept] at array
    cases array
  let after := two.place descriptor (.fatFileDescriptor ⟨item,0⟩)
  refine ⟨descriptor,after,?_,(first.grown.trans second.grown).place first.fresh (by simp [kept]) _,first.nonnull,
    ⟨item,target,Kernel.place_same _ _ _,?_,?_⟩,second.room⟩
  · have stored : services.run (store descriptor (.fatFileDescriptor ⟨item,0⟩)) two = .ok ((),after) := faithful.run rfl
    unfold openWith
    rw [if_neg (by decide),bind_run (faithful.kzalloc allocated first.nonnull),if_neg first.nonnull,bind_run resolved,
      bind_run stored,if_neg second.nonnull]
    rfl
  · rw [Kernel.place_other notItem]
    exact second.held
  · rw [Kernel.place_other notTarget]
    exact array

end

theorem fat16Open_run {k : Kernel} (valid : HeapValid k) (root : RootFile k (partString name) entry)
    (part : PartAt k path name 0) (room : Room k.heap (3+rest)) (dev : BlockDevice) :
    ∃ descriptor after, fat16Open dev path .read k = .ok (descriptor,after) ∧ Grown k after ∧ descriptor ≠ 0 ∧
      DriverFile after descriptor 0 entry ∧ Room after.heap rest := by
  have ran := openWith_run (plain_faithful dev) valid root part room
  rw [openWith_plain] at ran
  exact ran

theorem fat16Close_run {k : Kernel} (valid : HeapValid k) (opened : DriverFile k fprivate pos entry) :
    ∃ item target after, k.objs fprivate = some (.fatFileDescriptor ⟨item,pos⟩) ∧ k.objs item = some (.fatItem ⟨target,.file⟩) ∧
      k.objs target = some (.directoryItems [entry]) ∧ fat16Close fprivate k = .ok (0,after) ∧ HeapValid after ∧
      Frees k after (fun ptr => (ptr = target ∨ ptr = item) ∨ ptr = fprivate) := by
  obtain ⟨item,target,descriptor,held,array⟩ := opened.held
  have nonnull : item ≠ 0 := (valid.low (by simp [held] : (k.objs item).isSome)).1
  have itemTarget : item ≠ target := by
    intro same
    rw [← same,held] at array
    cases array
  have privateTarget : fprivate ≠ target := by
    intro same
    rw [← same,descriptor] at array
    cases array
  have privateItem : fprivate ≠ item := by
    intro same
    rw [← same,descriptor] at held
    cases held
  obtain ⟨one,freedTarget,validOne,first⟩ := kfree_run valid (.object (by simp [array]) : Freeable k target)
  have heldOne : one.objs item = some (.fatItem ⟨target,.file⟩) := by
    rw [first.kept item itemTarget]
    exact held
  obtain ⟨two,freedItem,validTwo,second⟩ := kfree_run validOne (.object (by simp [heldOne]) : Freeable one item)
  have gone := first.trans second
  have heldTwo : two.objs fprivate = some (.fatFileDescriptor ⟨item,pos⟩) := by
    rw [gone.kept fprivate (fun same => same.elim privateTarget privateItem)]
    exact descriptor
  obtain ⟨three,freedPrivate,validThree,third⟩ := kfree_run validTwo (.object (by simp [heldTwo]) : Freeable two fprivate)
  have items : fat16FatItemFree item k = .ok ((),two) := by
    unfold fat16FatItemFree
    rw [if_neg nonnull,bind_run (loadAs_run asFatItem held rfl)]
    dsimp only
    rw [bind_run freedTarget]
    exact freedItem
  refine ⟨item,target,three,descriptor,held,array,?_,validThree,gone.trans third⟩
  unfold fat16Close
  rw [bind_run (loadAs_run asFatFileDescriptor descriptor rfl),bind_run items,bind_run freedPrivate]
  rfl

-- A kernel on which a volume with one entry in its root directory is mounted.
def rootKernel (disk : Disk) (fprivate : FatPrivate) (entry : FatDirectoryItem) : Kernel :=
  match kzalloc 32 (.directoryItems [entry]) (bootKernel bootEntries disk) with
  | .error _ => bootKernel bootEntries disk
  | .ok (item,k) =>
    {k with disk := {disk with fsPrivate := some {fprivate with rootDirectory := {fprivate.rootDirectory with item := item, total := 1}}}}

theorem rootKernel_mounted (disk : Disk) (fprivate : FatPrivate) (entry : FatDirectoryItem) :
    ∃ item, HeapValid (rootKernel disk fprivate entry) ∧ (rootKernel disk fprivate entry).objs item = some (.directoryItems [entry]) ∧
      Room (rootKernel disk fprivate entry).heap 131071 ∧ (∀ i, (rootKernel disk fprivate entry).fileDescriptors i = 0) ∧
      (rootKernel disk fprivate entry).disk =
        {disk with fsPrivate := some {fprivate with rootDirectory := {fprivate.rootDirectory with item := item, total := 1}}} := by
  have valid := boot_valid bootEntries disk rfl
  obtain ⟨item,k,allocated,served⟩ := kzalloc_served 32 _ valid (.directoryItems [entry]) (by decide) (by decide)
    (show Room (bootKernel bootEntries disk).heap (1+131071) from boot_room bootEntries disk)
  have kernel : rootKernel disk fprivate entry = {k with disk :=
      {disk with fsPrivate := some {fprivate with rootDirectory := {fprivate.rootDirectory with item := item, total := 1}}}} := by
    unfold rootKernel
    rw [allocated]
  rw [kernel]
  refine ⟨item,served.grown.valid.congr rfl (fun _ live => live),served.held,served.room,fun i => ?_,rfl⟩
  show k.fileDescriptors i = 0
  rw [served.grown.rest]
  rfl

theorem rootKernel_fresh (disk : Disk) (fprivate : FatPrivate) (entry : FatDirectoryItem) :
    (rootKernel disk fprivate entry).taskHead = 0 ∧ ∀ slot, (rootKernel disk fprivate entry).processes slot = 0 := by
  obtain ⟨item,k,allocated,served⟩ := kzalloc_served 32 131071 (boot_valid bootEntries disk rfl) (.directoryItems [entry])
    (by decide) (by decide) (boot_room bootEntries disk)
  unfold rootKernel
  rw [allocated]
  show k.taskHead = 0 ∧ ∀ slot, k.processes slot = 0
  rw [served.grown.rest]
  exact ⟨rfl,fun _ => rfl⟩

theorem rootKernel_valid (disk : Disk) (fprivate : FatPrivate) (found : entryMatches entry name = true)
    (file : FatDirectoryItem.isSubdirectory entry = false) :
    ∃ item, HeapValid (rootKernel disk fprivate entry) ∧ RootFile (rootKernel disk fprivate entry) name entry ∧
      Room (rootKernel disk fprivate entry).heap 131071 ∧ (∀ i, (rootKernel disk fprivate entry).fileDescriptors i = 0) ∧
      (rootKernel disk fprivate entry).disk =
        {disk with fsPrivate := some {fprivate with rootDirectory := {fprivate.rootDirectory with item := item, total := 1}}} := by
  obtain ⟨item,valid,held,room,empty,volume⟩ := rootKernel_mounted disk fprivate entry
  have known := congrArg Disk.fsPrivate volume
  exact ⟨item,valid,⟨⟨_,[],[],known,held,rfl,by simp⟩,found,file⟩,room,empty,volume⟩

end NutsOS.Fat16
