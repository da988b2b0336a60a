import NutsOS.Fat16.Loads
import NutsOS.Fat16.Resolution

-- Opening a directory of the root directory, with memory for it.
namespace NutsOS.Fat16
open Word32 Bytes HeapAlloc Files DiskStreams Prog

theorem Listed.table (listed : Listed dev disk cluster n bytes after) : volumeOf dev disk cluster = .ok (.ok (directoryItems n bytes)) := by
  obtain ⟨fprivate,one,private',count,read⟩ := listed.counted
  have known := loadPrivate_known private'
  have size : toInt32 (((n : Nat) : Int)*32) = (n*32 : Nat) := toInt32_natCast (n := n*32) (by have small := listed.small; omega)
  have table : tableOf dev cluster disk = .ok (.ok (directoryItems n bytes),after) := by
    unfold tableOf
    rw [bind_run known,bind_run count,if_neg (by omega),size,bind_run read]
    rfl
  unfold volumeOf
  rw [table]
  rfl

structure ServedDirectory (k : Kernel) (items : List FatDirectoryItem) (rest item : Nat) (after : Kernel) : Prop where
  target : ∃ target array, Served k (.fatItem ⟨target,.directory⟩) rest item after ∧
    after.objs target = some (.fatDirectory ⟨array,(items.length : Nat),0,0⟩) ∧ after.objs array = some (.directoryItems items)

theorem newFatItem_directory {ε : Type} {services : Services ε} {k : Kernel} (faithful : Faithful services) (loads : Loads services dev)
    (valid : HeapValid k) (sub : FatDirectoryItem.isSubdirectory entry = true)
    (listed : Listed dev k.disk entry.low16BitsFirstCluster n bytes disk) (room : Room k.heap (3+rest)) :
    ∃ item after, newFatItemWith services entry k = .ok (item,after) ∧
      ServedDirectory k (directoryItems n bytes) rest item after ∧ after.disk = disk := by
  rw [show 3+rest = 1+(2+rest) by omega] at room
  obtain ⟨item,one,allocated,first⟩ := kzalloc_served 8 _ valid (.fatItem ⟨0,.directory⟩) (by decide) (by decide) room
  obtain ⟨target,array,two,loaded,second,held,diskTwo⟩ := loadFatDirectory_run first.grown.valid sub
    (by rw [kzalloc_disk allocated]; exact listed) first.room
  have kept := second.grown.held first.held
  have notTarget : target ≠ item := by
    intro same
    have fresh := second.fresh
    rw [same,first.held] at fresh
    cases fresh
  have notArray : array ≠ item := by
    intro same
    rw [same,kept] at held
    cases held
  refine ⟨item,two.place item (.fatItem ⟨target,.directory⟩),?_,⟨target,array,⟨(first.grown.trans second.grown).place
    first.fresh (by simp [kept]) _,
    first.nonnull,first.fresh,Kernel.place_same _ _ _,second.room⟩,?_,?_⟩,diskTwo⟩
  · have stored : services.run (store item (.fatItem ⟨target,.directory⟩)) two = .ok ((),two.place item (.fatItem ⟨target,.directory⟩)) :=
      faithful.run rfl
    unfold newFatItemWith
    rw [bind_run (faithful.kzalloc allocated first.nonnull),if_neg first.nonnull,if_pos sub,
      bind_run (loads loaded second.grown.valid second.held),bind_run stored]
    rfl
  · rw [Kernel.place_other notTarget,directoryItems_length]
    exact second.held
  · rw [Kernel.place_other notArray]
    exact held

-- The first entry of the mounted root directory that the name matches.
structure RootEntry (k : Kernel) (name : List UInt8) (entry : FatDirectoryItem) : Prop where
  mounted : ∃ fprivate front back, k.disk.fsPrivate = some fprivate ∧
    k.objs fprivate.rootDirectory.item = some (.directoryItems (front++entry::back)) ∧
    fprivate.rootDirectory.total = (front++entry::back).length ∧
    ∀ other ∈ front, entryMatches other name = false
  found : entryMatches entry name = true

theorem RootEntry.grown {k after : Kernel} (root : RootEntry k name entry) (grown : Grown k after) : RootEntry after name entry := by
  obtain ⟨fprivate,front,back,disk,held,total,others⟩ := root.mounted
  exact ⟨⟨fprivate,front,back,grown.volume.fsPrivate.trans disk,grown.held held,total,others⟩,root.found⟩

theorem RootEntry.searched {k : Kernel} (root : RootEntry k name entry) (dev : BlockDevice) : ∃ fprivate, k.disk.fsPrivate = some fprivate ∧
    fat16FindItemInDirectory dev fprivate.rootDirectory name k = fat16NewFatItemForDirectoryItem dev entry k := by
  obtain ⟨fprivate,front,back,disk,held,total,others⟩ := root.mounted
  have count : fprivate.rootDirectory.total.toNat = (front++entry::back).length := by
    rw [total]
    rfl
  refine ⟨fprivate,disk,?_⟩
  unfold fat16FindItemInDirectory
  rw [← findItemWith_plain,← newFatItemWith_plain]
  exact findItem_run (plain_faithful dev) [] held others root.found (by rw [count]; simp)

theorem getDirectoryEntry_directory {k : Kernel} (valid : HeapValid k) (root : RootEntry k (partString name) entry)
    (sub : FatDirectoryItem.isSubdirectory entry = true) (listed : Listed dev k.disk entry.low16BitsFirstCluster n bytes disk)
    (part : PartAt k path name 0) (room : Room k.heap (3+rest)) :
    ∃ item after, fat16GetDirectoryEntry dev path k = .ok (item,after) ∧ ServedDirectory k (directoryItems n bytes) rest item after := by
  obtain ⟨fprivate,disk',searched⟩ := root.searched dev
  obtain ⟨item,after,made,served,_⟩ := newFatItem_directory (plain_faithful dev) (fun ran _ _ => ran) valid sub listed room
  obtain ⟨target,array,first,_⟩ := id served.target
  have known : onDisk loadPrivate k = .ok (fprivate,k) := onDisk_run (loadPrivate_known disk')
  refine ⟨item,after,?_,served⟩
  unfold fat16GetDirectoryEntry
  rw [bind_run known,bind_run (loadPart_run part)]
  dsimp only
  rw [bind_run (searched.trans made),if_neg first.nonnull]
  rfl

theorem fat16Open_directory {k : Kernel} (valid : HeapValid k) (root : RootEntry k (partString name) entry)
    (sub : FatDirectoryItem.isSubdirectory entry = true)
    (listed : ∀ disk, SameVolume k.disk disk → ∃ after, Listed dev disk entry.low16BitsFirstCluster n bytes after)
    (part : PartAt k path name 0) (room : Room k.heap (4+rest)) :
    ∃ descriptor item target after, fat16Open dev path .read k = .ok (descriptor,after) ∧ Grown k after ∧ Room after.heap rest ∧
      after.objs descriptor = some (.fatFileDescriptor ⟨item,0⟩) ∧ after.objs item = some (.fatItem ⟨target,.directory⟩) := by
  rw [show 4+rest = 1+(3+rest) by omega] at room
  obtain ⟨descriptor,one,allocated,first⟩ := kzalloc_served 8 _ valid (.fatFileDescriptor ⟨0,0⟩) (by decide) (by decide) room
  obtain ⟨buf,heldPart,heldName⟩ := part.held
  have partOne : PartAt one path name 0 := ⟨buf,first.grown.held heldPart,first.grown.held heldName⟩
  obtain ⟨_,there⟩ := listed one.disk first.grown.volume
  obtain ⟨item,two,resolved,served⟩ := getDirectoryEntry_directory first.grown.valid (root.grown first.grown) sub there partOne first.room
  obtain ⟨target,array,second,_⟩ := served.target
  have kept := second.grown.held first.held
  have notItem : item ≠ descriptor := by
    intro same
    have fresh := second.fresh
    rw [same,first.held] at fresh
    cases fresh
  refine ⟨descriptor,item,target,two.place descriptor (.fatFileDescriptor ⟨item,0⟩),?_,
    (first.grown.trans second.grown).place first.fresh (by simp [kept]) _,second.room,Kernel.place_same _ _ _,?_⟩
  · unfold fat16Open
    have stored : store descriptor (.fatFileDescriptor ⟨item,0⟩) two = .ok ((),two.place descriptor (.fatFileDescriptor ⟨item,0⟩)) := rfl
    rw [if_neg (by decide),bind_run allocated,if_neg first.nonnull,bind_run resolved,bind_run stored,if_neg second.nonnull]
    rfl
  · rw [Kernel.place_other notItem]
    exact second.held

-- A volume of 512-byte sectors, 32 to a cluster: the table in sectors 1 to 32,
-- the root directory of 512 entries from sector 33, and cluster 2 from sector 65.
def treePrivate : FatPrivate := ⟨⟨32,1,2,512,16⟩,⟨0,0,33,65⟩,512,16384,4096,8192,12288⟩

def treeDisk : Disk := ⟨512,some .fat16,some treePrivate,fun _ => some ⟨0⟩⟩

-- The directory D in the root directory has cluster 2 and holds the directory E
-- with cluster 3. The parent of D is cluster 0, and that of E is cluster 2.
def treeTables : List (Nat × List UInt8) :=
  [(512,0xF8::List.replicate 7 0xFF),(8704,0xF8::List.replicate 7 0xFF),(16896,entryBytes [0x44] 2),
    (33280,entryBytes [dot] 2++entryBytes [dot,dot] 0++entryBytes [0x45] 3),(49664,entryBytes [dot] 3++entryBytes [dot,dot] 2)]

def treeImage : Nat → UInt8 := imageOf treeTables

def treeEntry : FatDirectoryItem := ⟨0x44::List.replicate 7 0x20,List.replicate 3 0x20,fatFileSubdirectory,2,0⟩

def treeName : List UInt8 := [0x64]

theorem tree_found : entryMatches treeEntry (partString treeName) = true := by decide

structure TreeVolume (disk : Disk) (fprivate : FatPrivate) : Prop where
  mounted : Mounted disk fprivate
  header : fprivate.primaryHeader = treePrivate.primaryHeader
  ending : fprivate.rootDirectory.endingSectorPos = 65
  size : fprivate.bytesPerCluster = 16384
  sector : disk.sectorSize = 512

-- Cluster 0 is at sector 1, where the table is.
theorem tree_sector (tree : TreeVolume disk fprivate) (c : Nat) :
    fat16ClusterToSector fprivate (c : Nat) = toInt32 (65+toInt32 (toInt32 ((c : Nat)-2)*32)) := by
  unfold fat16ClusterToSector
  rw [tree.ending,tree.header]
  rfl

theorem tree_listed (tree : TreeVolume disk fprivate) :
    (∃ after, Listed (imageDevice treeImage) disk 0 1 (slice treeImage 512 32) after) ∧
      (∃ after, Listed (imageDevice treeImage) disk 2 3 (slice treeImage 33280 96) after) ∧
      ∃ after, Listed (imageDevice treeImage) disk 3 2 (slice treeImage 49664 64) after := by
  have positive : 0 < fprivate.bytesPerCluster := by
    rw [tree.size]
    decide
  have whole {n : Nat} (small : n ≤ 3) : ((n*32 : Nat) : Int) ≤ fprivate.bytesPerCluster := by
    rw [tree.size]
    omega
  refine ⟨?_,?_,?_⟩
  · refine listed_live 512 treeImage tree.mounted positive (by rw [tree_sector tree,tree.sector]; decide)
      (by rw [tree_sector tree,tree.sector]; decide) ⟨?_,by decide⟩ ?_ (by decide) (by decide) (whole (by decide)) (by decide)
    · intro i less
      obtain rfl : i = 0 := by omega
      decide
    · intro i less
      obtain rfl : i = 0 := by omega
      decide
  · refine listed_live 33280 treeImage tree.mounted positive (by rw [tree_sector tree,tree.sector]; decide)
      (by rw [tree_sector tree,tree.sector]; decide) ⟨?_,by decide⟩ ?_ (by decide) (by decide) (whole (by decide)) (by decide)
    · intro i less
      rcases (by omega : i = 0 ∨ i = 1 ∨ i = 2) with rfl | rfl | rfl <;> decide
    · intro i less
      rcases (by omega : i = 0 ∨ i = 1 ∨ i = 2) with rfl | rfl | rfl <;> decide
  · refine listed_live 49664 treeImage tree.mounted positive (by rw [tree_sector tree,tree.sector]; decide)
      (by rw [tree_sector tree,tree.sector]; decide) ⟨?_,by decide⟩ ?_ (by decide) (by decide) (whole (by decide)) (by decide)
    · intro i less
      rcases (by omega : i = 0 ∨ i = 1) with rfl | rfl <;> decide
    · intro i less
      rcases (by omega : i = 0 ∨ i = 1) with rfl | rfl <;> decide

def treeRoot (item : Nat) : FatPrivate := {treePrivate with rootDirectory := {treePrivate.rootDirectory with item := item, total := 1}}

theorem tree_mounted (item : Nat) : Mounted {treeDisk with fsPrivate := some (treeRoot item)} (treeRoot item) where
  private_eq := rfl
  fatStream := (by decide : treePrivate.fatReadStream ≠ 0)
  streams _ _ := rfl
  sector := (by decide : 0 < treeDisk.sectorSize)
  cluster := (by decide : treePrivate.bytesPerCluster = treePrivate.primaryHeader.sectorsPerCluster*treeDisk.sectorSize)
  int := (by decide : treePrivate.bytesPerCluster < 2147483648)
  root := (by decide : 0 ≤ treePrivate.rootDirectory.endingSectorPos)

def treeKernel : Kernel := rootKernel treeDisk treePrivate treeEntry

structure TreeStart (item : Nat) : Prop where
  valid : HeapValid treeKernel
  held : treeKernel.objs item = some (.directoryItems [treeEntry])
  room : Room treeKernel.heap 131071
  empty : ∀ i, treeKernel.fileDescriptors i = 0
  filesystem : treeKernel.disk.filesystem ≠ none
  tree : ∀ disk, SameVolume treeKernel.disk disk → TreeVolume disk (treeRoot item)

theorem tree_start : ∃ item, TreeStart item := by
  obtain ⟨item,valid,held,room,empty,volume⟩ := rootKernel_mounted treeDisk treePrivate treeEntry
  have disk : treeKernel.disk = {treeDisk with fsPrivate := some (treeRoot item)} := volume
  refine ⟨item,valid,held,room,empty,?_,fun other same => ?_⟩
  · rw [disk]
    simp [treeDisk]
  · have sector : other.sectorSize = 512 := by
      rw [same.sectorSize,disk]
      rfl
    exact ⟨(tree_mounted item).after (disk ▸ same),rfl,rfl,rfl,sector⟩

theorem TreeStart.root (start : TreeStart item) : RootEntry treeKernel (partString treeName) treeEntry :=
  ⟨⟨treeRoot item,[],[],(start.tree _ (.refl _)).mounted.private_eq,start.held,rfl,by simp⟩,tree_found⟩

end NutsOS.Fat16
