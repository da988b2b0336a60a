import NutsOS.File.Leak
import NutsOS.Fat16.Accept

-- What a mount that fails leaves behind.
namespace NutsOS.Fat16
open Word32 Bytes HeapAlloc DiskStreams Prog Files

-- The table's place, and what is free in it: nothing that was not free before.
structure Takes (k after : Kernel) : Prop where
  saddr : after.heap.saddr = k.heap.saddr
  total : after.heap.table.total = k.heap.table.total
  free : ∀ i : Nat, IsFree after.heap.table.entries i → IsFree k.heap.table.entries i

theorem granted_takes {heap : Heap} (c : Chunk) (i : Nat) (free : IsFree (heap.granted c).2.1.table.entries i) : IsFree heap.table.entries i := by
  have entries : (heap.granted c).2.1.table.entries = setChunk c c.entry heap.table.entries := rfl
  unfold IsFree at *
  rw [entries] at free
  by_cases covers : c.Covers (i : Nat)
  · rw [setChunk_covered covers] at free
    exact absurd free (entry_type c i)
  · rw [setChunk_other covers] at free
    exact free

theorem kzalloc_takes {k : Kernel} (valid : HeapValid k) (positive : 1 ≤ size) (bounded : size ≤ 4294963200)
    (ran : kzalloc size zero k = .ok (ptr,after)) (nonnull : ptr ≠ 0) :
    Takes k after ∧ ∃ b, b < k.heap.table.total ∧ ptr = k.heap.saddr+b*4096 ∧ IsFree k.heap.table.entries b := by
  have blocks : 0 < blocksFor size := (blocksFor_bounds positive bounded).1
  rcases heapMalloc_cases _ k.heap blocks with refused | ⟨start,inside,free,granted⟩
  · unfold kzalloc at ran
    rw [bind_run (kmalloc_run refused)] at ran
    cases ran
    exact absurd rfl nonnull
  · obtain ⟨ran',_⟩ := kzalloc_granted size valid zero blocks (align_bounds bounded) inside free granted
    rw [ran'] at ran
    cases ran
    exact ⟨⟨rfl,rfl,granted_takes _⟩,start,inside,rfl,free start (Nat.le_refl _) (by omega) inside⟩

theorem kzalloc_table {k : Kernel} (ran : kzalloc size zero k = .ok (ptr,after)) :
    after.heap.saddr = k.heap.saddr ∧ after.heap.table.total = k.heap.table.total := by
  obtain ⟨⟨got,heap,written⟩,called⟩ : ∃ result, heapMalloc k.heap size = result := ⟨_,rfl⟩
  have same : heap.saddr = k.heap.saddr ∧ heap.table.total = k.heap.table.total := by
    by_cases blocks : 0 < blocksFor size
    · rcases heapMalloc_cases _ k.heap blocks with refused | ⟨_,_,_,granted⟩
      · cases called.symm.trans refused
        exact ⟨rfl,rfl⟩
      · cases called.symm.trans granted
        exact ⟨rfl,rfl⟩
    · rcases heapMalloc_none k.heap (Nat.eq_zero_of_not_pos blocks) with refused | ⟨_,_,_,answered⟩
      · cases called.symm.trans refused
        exact ⟨rfl,rfl⟩
      · cases called.symm.trans answered
        exact ⟨rfl,rfl⟩
  unfold kzalloc at ran
  rw [bind_run (kmalloc_run called)] at ran
  split at ran
  · cases ran
    exact same
  · split at ran
    · cases ran
    · split at ran
      · cases ran
        exact same
      · cases ran
        exact same

structure Remains (saddr total : Nat) (system : Option Filesystem) (ptrs : List Nat) (k : Kernel) : Prop where
  valid : HeapValid k
  saddr : k.heap.saddr = saddr
  total : k.heap.table.total = total
  live : ∀ p ∈ ptrs, (k.objs p).isSome
  filesystem : k.disk.filesystem = system

section
variable {saddr total : Nat} {system : Option Filesystem} {ptrs : List Nat}

theorem kzalloc_remains (size : Nat) (zero : Obj) : Keeps (Remains saddr total system ptrs) (kzalloc size zero) (fun _ => True) := by
  apply triple_of_ok
  intro k ptr after remains ran
  obtain ⟨grown,_⟩ := kzalloc_ok remains.valid ran
  obtain ⟨base,blocks⟩ := kzalloc_table ran
  refine ⟨⟨grown.valid,base.trans remains.saddr,blocks.trans remains.total,fun p member => ?_,?_⟩,trivial⟩
  · rw [grown.kept p (remains.live p member)]
    exact remains.live p member
  · rw [kzalloc_disk ran]
    exact remains.filesystem

theorem onDisk_remains {x : DiskProg α} (same : Within (fun disk after => after.filesystem = disk.filesystem) x) :
    Keeps (Remains saddr total system ptrs) (onDisk x) (fun _ => True) := by
  apply triple_of_ok
  intro k a after remains ran
  obtain ⟨disk,moved,rfl⟩ := focus_ok.mp ran
  exact ⟨⟨remains.valid.congr rfl (fun _ live => live),remains.saddr,remains.total,remains.live,
    (same _ _ _ moved).trans remains.filesystem⟩,trivial⟩

theorem reads_remains {x : DiskProg α} (reads : Reads x) : Keeps (Remains saddr total system ptrs) (onDisk x) (fun _ => True) :=
  onDisk_remains (fun _ _ _ ran => (reads _ _ _ ran).filesystem)

theorem setPrivate_remains (fprivate : Option FatPrivate) : Keeps (Remains saddr total system ptrs) (setPrivate fprivate) (fun _ => True) :=
  onDisk_remains (within_modify (fun _ => rfl))

theorem update_remains (view : Obj → Option α) (f : α → Obj) (ptr : Nat) :
    Keeps (Remains saddr total system ptrs) (do
      let old ← loadAs view ptr
      store ptr (f old)) (fun _ => True) := by
  apply triple_of_ok
  intro k a after remains ran
  obtain ⟨old,one,loaded,stored⟩ := bind_ok.mp ran
  obtain ⟨⟨obj,held,_⟩,rfl⟩ := loadAs_ok.mp loaded
  cases stored
  refine ⟨⟨remains.valid.place (by simp [held]) _,remains.saddr,remains.total,fun p member => ?_,remains.filesystem⟩,trivial⟩
  by_cases same : p = ptr
  · rw [same,Kernel.place_same]
    rfl
  · rw [Kernel.place_other same]
    exact remains.live p member

theorem rootDirectory_remains (dev : BlockDevice) (out : FatDirectory) :
    Keeps (Remains saddr total system ptrs) (fat16GetRootDirectory dev out) (fun _ => True) := by
  refine keeps_bind (reads_remains loadPrivate_reads) (fun fatPrivate _ => keeps_bind (keeps_get) (fun k _ => ?_))
  refine keeps_ite (fun _ => keeps_fault _ _) (fun _ => ?_)
  refine keeps_bind (reads_remains (totalItems_reads dev _)) (fun totalItems _ => keeps_bind (kzalloc_remains _ _) (fun dir _ => ?_))
  refine keeps_ite (fun _ => keeps_pure trivial) (fun _ => keeps_bind (reads_remains (seekStream_reads _ _)) (fun sought _ => ?_))
  refine keeps_ite (fun _ => keeps_pure trivial) (fun _ => keeps_bind (reads_remains (readStream_reads dev _ _)) (fun read _ => ?_))
  refine keeps_ite (fun _ => keeps_pure trivial) (fun _ => keeps_bind (keeps_when (fun _ => ?_)) (fun _ _ => keeps_pure trivial))
  exact update_remains asDirectoryItems _ dir

theorem resolveVolume_remains (dev : BlockDevice) (stream : Nat) :
    Keeps (Remains saddr total system ptrs) (resolveVolume dev stream) (fun _ => True) := by
  refine keeps_bind (reads_remains (readStream_reads dev _ _)) (fun read _ => keeps_ite (fun _ => keeps_pure trivial) (fun _ => ?_))
  refine keeps_bind (reads_remains loadPrivate_reads) (fun fprivate _ => keeps_bind (setPrivate_remains _) (fun _ _ => ?_))
  refine keeps_ite (fun _ => keeps_pure trivial) (fun _ => keeps_bind keeps_get (fun k _ => keeps_bind (setPrivate_remains _) (fun _ _ => ?_)))
  refine keeps_bind (rootDirectory_remains dev _) (fun listed _ => keeps_ite (fun _ => keeps_pure trivial) (fun _ => ?_))
  exact keeps_bind (setPrivate_remains _) (fun _ _ => keeps_pure trivial)

theorem Remains.add {k : Kernel} (remains : Remains saddr total system ptrs k) (live : (k.objs ptr).isSome) :
    Remains saddr total system (ptr::ptrs) k := by
  refine ⟨remains.valid,remains.saddr,remains.total,fun p member => ?_,remains.filesystem⟩
  rcases List.mem_cons.mp member with rfl | member
  · exact live
  · exact remains.live p member

theorem diskstreamNew_remains : Keeps (Remains saddr total system ptrs) diskstreamNew (fun _ => True) := by
  refine keeps_bind (kzalloc_remains _ _) (fun stream _ => keeps_ite (fun _ => keeps_fault _ _) (fun _ => ?_))
  exact keeps_bind (onDisk_remains (within_modify (fun _ => rfl))) (fun _ _ => keeps_pure trivial)

theorem kfree_remains {k : Kernel} (remains : Remains saddr total system (ptr::ptrs) k) (other : ptr ∉ ptrs)
    (ran : kfree ptr k = .ok ((),after)) : Remains saddr total system ptrs after := by
  obtain ⟨freed,ran',valid,frees⟩ := kfree_run remains.valid (.object (remains.live ptr List.mem_cons_self))
  rw [ran'] at ran
  cases ran
  have heap : after.heap.saddr = k.heap.saddr ∧ after.heap.table.total = k.heap.table.total := by
    cases ran'
    exact ⟨rfl,rfl⟩
  refine ⟨valid,heap.1.trans remains.saddr,heap.2.trans remains.total,fun p member => ?_,?_⟩
  · rw [frees.kept p (fun same => other (same ▸ member))]
    exact remains.live p (List.mem_cons_of_mem ptr member)
  · rw [frees.rest]
    exact remains.filesystem

theorem diskstreamClose_remains {k : Kernel} (remains : Remains saddr total system (ptr::ptrs) k) (other : ptr ∉ ptrs)
    (ran : diskstreamClose ptr k = .ok ((),after)) : Remains saddr total system ptrs after := by
  obtain ⟨⟨⟩,one,removed,freed⟩ := bind_ok.mp ran
  obtain ⟨disk,moved,rfl⟩ := focus_ok.mp removed
  cases moved
  have left : Remains saddr total system (ptr::ptrs)
      {k with disk := {k.disk with streams := fun a => if a = ptr then none else k.disk.streams a}} :=
    ⟨remains.valid.congr rfl (fun _ live => live),remains.saddr,remains.total,remains.live,remains.filesystem⟩
  exact kfree_remains left other freed

theorem Remains.taken {k : Kernel} (remains : Remains saddr total system ptrs k) (member : saddr+b*4096 ∈ ptrs) (inside : b < total) :
    b ∈ allocated k := by
  obtain ⟨chunks,holds⟩ := remains.valid
  obtain ⟨c,chunk,address⟩ := holds.owned _ (remains.live _ member)
  have starts : c.start = b := by
    rw [remains.saddr] at address
    omega
  have length := holds.tiled.positive c chunk
  have covers : c.Covers (b : Nat) := ⟨by omega,by omega⟩
  rw [← remains.total] at inside
  exact ⟨inside,holds.tiled.covered_taken chunk covers inside⟩

end

structure Undone (k after : Kernel) : Prop where
  filesystem : after.disk.filesystem = k.disk.filesystem
  fsPrivate : after.disk.fsPrivate = k.disk.fsPrivate
  blocks : allocated after = allocated k

theorem failed_resolve_remains {k after : Kernel} (valid : HeapValid k) (ran : fat16Resolve dev k = .ok (res,after)) (failed : res < 0) :
    after.disk.filesystem = some .fat16 ∧ ∃ b ∈ allocated after, b ∉ allocated k := by
  obtain ⟨fatPrivate,one,allocated,ran⟩ := bind_ok.mp ran
  by_cases null : fatPrivate = 0
  · rw [if_pos null] at ran
    cases ran
  rw [if_neg null] at ran
  obtain ⟨first,_⟩ := kzalloc_takes valid (by decide) (by decide) allocated null
  obtain ⟨grown,result⟩ := kzalloc_fresh valid (by decide) allocated
  obtain ⟨_,_,held⟩ := result.resolve_left (fun none => null none.1)
  have remainsOne : Remains k.heap.saddr k.heap.table.total k.disk.filesystem [fatPrivate] one := by
    refine ⟨grown.valid,first.saddr,first.total,fun p member => ?_,by rw [kzalloc_disk allocated]⟩
    rw [List.mem_singleton.mp member,held]
    rfl
  obtain ⟨cluster,two,openTwo,ran⟩ := bind_ok.mp ran
  have newTwo := diskstreamNew_ok grown.valid openTwo
  -- the block of the first stream was free before the call
  obtain ⟨b,inside,address,free⟩ : ∃ b, b < k.heap.table.total ∧ cluster = k.heap.saddr+b*4096 ∧ IsFree k.heap.table.entries b := by
    obtain ⟨ptr,middle,taken,opened⟩ := bind_ok.mp openTwo
    by_cases none : ptr = 0
    · rw [if_pos none] at opened
      cases opened
    rw [if_neg none] at opened
    obtain ⟨_,_,_,opened⟩ := bind_ok.mp opened
    cases opened
    obtain ⟨_,b,inside,address,free⟩ := kzalloc_takes grown.valid (by decide) (by decide) taken none
    rw [first.total] at inside
    rw [first.saddr] at address
    exact ⟨b,inside,address,first.free b free⟩
  have remainsTwo := (diskstreamNew_remains.returned remainsOne openTwo).1.add newTwo.live
  obtain ⟨fat,three,openThree,ran⟩ := bind_ok.mp ran
  have remainsThree := (diskstreamNew_remains.returned remainsTwo openThree).1
  obtain ⟨directory,four,openFour,ran⟩ := bind_ok.mp ran
  have remainsFour := (diskstreamNew_remains.returned remainsThree openFour).1
  obtain ⟨⟨⟩,five,set,ran⟩ := bind_ok.mp ran
  cases set
  obtain ⟨stream,six,openSix,ran⟩ := bind_ok.mp ran
  let entered : Kernel := {four with disk := {four.disk with
    fsPrivate := some (FatPrivate.zero cluster fat directory), filesystem := some .fat16}}
  have remainsFive : Remains k.heap.saddr k.heap.table.total (some .fat16) [cluster,fatPrivate] entered :=
    ⟨remainsFour.valid.congr rfl (fun _ live => live),remainsFour.saddr,remainsFour.total,remainsFour.live,rfl⟩
  have newSix := diskstreamNew_ok (k := entered) remainsFive.valid openSix
  have remainsSix := (diskstreamNew_remains.returned remainsFive openSix).1.add newSix.live
  have streamOther : stream ∉ [cluster,fatPrivate] := by
    intro member
    have live := remainsFive.live stream member
    rw [newSix.fresh] at live
    cases live
  have privateOther : cluster ≠ fatPrivate := by
    intro same
    have fresh := newTwo.fresh
    rw [same,held] at fresh
    cases fresh
  obtain ⟨code,seven,resolved,ran⟩ := bind_ok.mp ran
  have remainsSeven := ((resolveVolume_remains dev stream).returned remainsSix resolved).1
  obtain ⟨⟨⟩,eight,closed,ran⟩ := bind_ok.mp ran
  have remainsEight := diskstreamClose_remains remainsSeven streamOther closed
  obtain ⟨⟨⟩,nine,released,ran⟩ := bind_ok.mp ran
  cases ran
  rw [when_true failed] at released
  obtain ⟨⟨⟩,ten,freed,unset⟩ := bind_ok.mp released
  have swapped : Remains k.heap.saddr k.heap.table.total (some .fat16) [fatPrivate,cluster] eight :=
    ⟨remainsEight.valid,remainsEight.saddr,remainsEight.total,fun p member => remainsEight.live p (by simp at member ⊢; tauto),
      remainsEight.filesystem⟩
  have remainsTen := kfree_remains swapped (by simp [privateOther.symm]) freed
  have remains := ((setPrivate_remains none).returned remainsTen unset).1
  exact ⟨remains.filesystem,b,remains.taken (by simp [address]) inside,fun taken => taken.2 free⟩

theorem failed_resolve_not_undone {k after : Kernel} (valid : HeapValid k) (ran : fat16Resolve dev k = .ok (res,after)) (failed : res < 0) :
    ¬ Undone k after ∧ after.disk.filesystem = some .fat16 ∧ ∃ b ∈ allocated after, b ∉ allocated k := by
  obtain ⟨system,b,taken,free⟩ := failed_resolve_remains valid ran failed
  refine ⟨fun undone => free ?_,system,b,taken,free⟩
  rw [← undone.blocks]
  exact taken

theorem unsigned_resolve {k : Kernel} (valid : HeapValid k) (room : Room k.heap 5) (sized : k.disk.sectorSize = 512) (image : Nat → UInt8) (unsigned : image 38 ≠ nutosFat16Signature) :
    ∃ after, fat16Resolve (imageDevice image) k = .ok (-einvalid,after) := by
  obtain ⟨cluster,fat,directory,stream,six,opening⟩ := fat16Resolve_opens 0 valid room (imageDevice image)
  have boot : imageDevice image 0 = some image := imageDevice_first image
  cases resolveVolume_resolving (imageDevice image) opening.fsPrivate (opening.sectorSize.trans sized) opening.stands with
  | unread silent => cases silent
  | signed found signed =>
    rw [boot] at found
    cases found
    exact absurd signed unsigned
  | unsigned _ _ resolved =>
    obtain ⟨after,ran,_⟩ := opening.ends _ _ resolved
    exact ⟨after,ran⟩

theorem blank_resolve_remains : ∃ after, fat16Resolve (imageDevice (fun _ => 0)) (bootKernel bootEntries noDisk) = .ok (-einvalid,after) ∧
    after.disk.filesystem = some .fat16 := by
  have valid := boot_valid bootEntries noDisk rfl
  obtain ⟨after,ran⟩ := unsigned_resolve valid ((boot_room bootEntries noDisk).less (by decide)) rfl (fun _ => 0) (by decide)
  exact ⟨after,ran,(failed_resolve_not_undone valid ran (by decide)).2.1⟩

theorem blank_resolve_kept : ∃ after, fat16Resolve (imageDevice (fun _ => 0)) (bootKernel bootEntries noDisk) = .ok (-einvalid,after) ∧
    ¬ Undone (bootKernel bootEntries noDisk) after := by
  have valid := boot_valid bootEntries noDisk rfl
  obtain ⟨after,ran⟩ := unsigned_resolve valid ((boot_room bootEntries noDisk).less (by decide)) rfl (fun _ => 0) (by decide)
  obtain ⟨system,_⟩ := failed_resolve_remains valid ran (by decide)
  refine ⟨after,ran,fun undone => ?_⟩
  have none : after.disk.filesystem = none := undone.filesystem
  rw [none] at system
  cases system

end NutsOS.Fat16
