import NutsOS.Fat16.Search

-- The directories that the driver loads: the root and its subdirectories.
namespace NutsOS.Fat16
open Word32 Bytes HeapAlloc DiskStreams Prog Files Stdutil

structure RootTable (image : Nat → UInt8) (disk : Disk) (fprivate : FatPrivate) (pos t : Nat) : Prop where
  mounted : Mounted disk fprivate
  start : (pos : Int) = (fprivate.primaryHeader.fatCopies*fprivate.primaryHeader.sectorsPerFat+
    fprivate.primaryHeader.reservedSectors : Nat)*disk.sectorSize
  table : EndsAt (fun j => image (pos+j)) t
  inside : t < fprivate.primaryHeader.rootDirEntries
  fits : pos+fprivate.primaryHeader.rootDirEntries*32 ≤ 2147483648

theorem onDisk_same {k : Kernel} {disk : Disk} (valid : HeapValid k) (same : SameVolume k.disk disk) :
    Grown k {k with disk := disk} := ⟨valid.congr rfl (fun _ live => live),rfl,same,fun _ _ => rfl⟩

theorem rootDirectory_run {k : Kernel} (valid : HeapValid k) (root : RootTable image k.disk fprivate pos t) (out : FatDirectory) :
    (∃ after, fat16GetRootDirectory (imageDevice image) out k = .ok ((-enomem,out),after) ∧
      ∀ rest, ¬ Room k.heap (blocksFor (fprivate.primaryHeader.rootDirEntries*32)+rest)) ∨
    ∃ directory after, fat16GetRootDirectory (imageDevice image) out k = .ok ((0,directory),after) ∧
      directory.total = (liveCount (fun j => image (pos+j)) 0 t : Nat) ∧ Grown k after ∧
      after.objs directory.item = some (.directoryItems
        (directoryItems fprivate.primaryHeader.rootDirEntries (slice image pos (fprivate.primaryHeader.rootDirEntries*32)))) ∧
      ∀ rest, Room k.heap (blocksFor (fprivate.primaryHeader.rootDirEntries*32)+rest) → Room after.heap rest := by
  have mounted := root.mounted
  have inside := root.inside
  have fits := root.fits
  have sector : toInt32 ((fprivate.primaryHeader.fatCopies*fprivate.primaryHeader.sectorsPerFat+
      fprivate.primaryHeader.reservedSectors : Nat)*k.disk.sectorSize) = ((pos : Nat) : Int) := by
    rw [← root.start]
    exact toInt32_natCast (by omega)
  generalize entries : fprivate.primaryHeader.rootDirEntries = count at *
  obtain ⟨one,counted,first⟩ := totalItems_run image mounted sector root.table (by omega)
  have grownOne := onDisk_same valid first
  obtain ⟨dir,two,allocated,result,serves⟩ := kzalloc_run (count*32) grownOne.valid
    (.directoryItems (List.replicate count zeroDirectoryItem)) (by omega) (by omega)
  have grownTwo := grownOne.trans (result.grown grownOne.valid)
  have sized : ¬ k.disk.sectorSize = 0 := by
    have positive := mounted.sector
    omega
  by_cases none : dir = 0
  · refine .inl ⟨two,?_,fun rest room => (serves rest room).1 none⟩
    unfold fat16GetRootDirectory
    rw [bind_run (onDisk_run (loadPrivate_run mounted)),get_bind]
    dsimp only
    rw [if_neg sized,entries,bind_run (onDisk_run counted),bind_run allocated,if_pos none]
    rfl
  · obtain ⟨fresh,held⟩ := result.fresh_object none
    have mountedTwo := mounted.after grownTwo.volume
    obtain ⟨sought,three,seek,read,later,_⟩ := seek_read_run pos (count*32) image
      (mountedTwo.streams fprivate.directoryStream (by simp)) (by omega) fits
    let arrived : Kernel := {two with disk := three}
    have heldArrived : arrived.objs dir = some (.directoryItems (List.replicate count zeroDirectoryItem)) := held
    let after := arrived.place dir (.directoryItems (directoryItems count (slice image pos (count*32))))
    have grown : Grown k arrived := grownTwo.trans (onDisk_same grownTwo.valid later)
    have filled : (Prog.when (count*32 ≠ 0) do
        let old ← loadAs asDirectoryItems dir
        store dir (.directoryItems (directoryItems old.length (slice image pos (count*32))))) arrived = .ok ((),after) := by
      rw [Prog.when_true (by omega),bind_run (loadAs_run asDirectoryItems heldArrived rfl),List.length_replicate]
      rfl
    have sectorTwo : fat16SectorToAbsAddress k.disk (fprivate.primaryHeader.fatCopies*fprivate.primaryHeader.sectorsPerFat+
        fprivate.primaryHeader.reservedSectors : Nat) = ((pos : Nat) : Int) := sector
    have ran : ∃ sectorPos endingSectorPos, fat16GetRootDirectory (imageDevice image) out k =
        .ok ((0,⟨dir,(liveCount (fun j => image (pos+j)) 0 t : Nat),sectorPos,endingSectorPos⟩),after) := by
      unfold fat16GetRootDirectory
      rw [bind_run (onDisk_run (loadPrivate_run mounted)),get_bind]
      dsimp only
      rw [if_neg sized,entries,bind_run (onDisk_run counted),bind_run allocated,if_neg none,sectorTwo,bind_run (onDisk_run seek),
        if_neg (by decide)]
      have readTwo : onDisk (readStream (imageDevice image) fprivate.directoryStream (count*32 : Nat)) {two with disk := sought} =
          .ok ((0,slice image pos (count*32)),arrived) := onDisk_run (k := {two with disk := sought}) read
      rw [bind_run readTwo]
      dsimp only
      rw [if_neg (by decide),bind_run filled]
      exact ⟨_,_,rfl⟩
    obtain ⟨sectorPos,endingSectorPos,ran⟩ := ran
    exact .inr ⟨_,after,ran,rfl,grown.place fresh (by simp [heldArrived]) _,Kernel.place_same _ _ _,fun rest room => (serves rest room).2.2⟩

-- A subdirectory: its chain has a terminator at index t, and so has, at index s,
-- the run of entries that follow each other on the disk from its first sector.
structure SubdirectoryTable (image : Nat → UInt8) (disk : Disk) (fprivate : FatPrivate) (start : Nat) (rest : List Nat)
    (entry : FatDirectoryItem) (t s : Nat) : Prop where
  mounted : Mounted disk fprivate
  subdirectory : FatDirectoryItem.isSubdirectory entry = true
  cluster : entry.low16BitsFirstCluster = start
  chain : FileChain image fprivate (start::rest)
  fits : Addressable disk fprivate (start::rest)
  table : EndsAt (fileByte image disk fprivate (start::rest)) t
  inside : 32*(t+1) ≤ (start::rest).length*clusterSize fprivate
  run : EndsAt (fun j => image (clusterAddress disk fprivate start+j)) s
  low : clusterAddress disk fprivate start+32*(s+1) ≤ 2147483648

theorem Addressable.after {before after : Disk} (fits : Addressable before fprivate chain) (same : SameVolume before after) :
    Addressable after fprivate chain := by
  refine ⟨fits.table,?_⟩
  rw [clusterAddress_same same]
  exact fits.data

theorem landedByte_same (same : SameVolume before after) (image : Nat → UInt8) (fprivate : FatPrivate) (chain : List Nat)
    (start first : Nat) : landedByte image after fprivate chain start first = landedByte image before fprivate chain start first := by
  unfold landedByte chainAddress
  rw [clusterAddress_same same]

theorem clusterSector_address (mounted : Mounted disk fprivate) (low : 2 ≤ c) (small : c ≤ 0xFFEF)
    (fits : clusterAddress disk fprivate c < 2147483648) :
    toInt32 ((toUint32 (fat16ClusterToSector fprivate (c : Nat)) : Nat)*disk.sectorSize) =
      ((clusterAddress disk fprivate c : Nat) : Int) := by
  obtain ⟨size,sized⟩ := Int.eq_ofNat_of_zero_le (Int.le_of_lt mounted.sector)
  obtain ⟨ending,ends⟩ := Int.eq_ofNat_of_zero_le mounted.root
  have positive : 0 < size := by have whole := mounted.sector; omega
  unfold clusterAddress at *
  rw [sized,ends] at fits ⊢
  simp only [Int.toNat_natCast] at fits ⊢
  have bound : ending+(c-2)*fprivate.primaryHeader.sectorsPerCluster ≤
      (ending+(c-2)*fprivate.primaryHeader.sectorsPerCluster)*size := Nat.le_mul_of_pos_right _ positive
  have index : toInt32 ((c : Int)-2) = ((c-2 : Nat) : Int) := by
    rw [toInt32_eq (by omega) (by omega)]
    omega
  have sector : fat16ClusterToSector fprivate (c : Nat) = ((ending+(c-2)*fprivate.primaryHeader.sectorsPerCluster : Nat) : Int) := by
    unfold fat16ClusterToSector
    dsimp only
    rw [index,ends,← Int.natCast_mul,toInt32_natCast (by omega)]
    exact toInt32_natCast (by omega)
  rw [sector,toUint32_natCast (by omega),← Int.natCast_mul,toInt32_natCast fits]

theorem subdirectory_loaded {k : Kernel} (valid : HeapValid k)
    (sub : SubdirectoryTable image k.disk fprivate start rest entry t s)
    (ran : fat16LoadFatDirectory (imageDevice image) entry k = .ok (ptr,after)) (loaded : ¬ IsError ptr)
    (count : n = liveCount (fun j => image (clusterAddress k.disk fprivate start+j)) 0 s) :
    ∃ directory, after.objs ptr = some (.fatDirectory directory) ∧ directory.total = (n : Nat) ∧
      (0 < n → after.objs directory.item = some (.directoryItems (directoryItems n
        (slice (landedByte image k.disk fprivate (start::rest) 0 0) 0 (n*32))))) := by
  have mounted := sub.mounted
  have positive : 0 < clusterSize fprivate := by
    apply Nat.pos_of_ne_zero
    intro zero
    have inside := sub.inside
    rw [zero] at inside
    omega
  obtain ⟨_,directory,held,from'⟩ := loadFatDirectory_grown valid ran |>.imp id (fun result => result.resolve_left loaded)
  obtain ⟨found,counted,res,bytes,private',counts,read,_,arrived,array⟩ := from'.read
  rw [loadPrivate_run mounted] at private'
  cases private'
  obtain ⟨low,small⟩ := sub.chain.data start List.mem_cons_self
  have fits := sub.fits.data start List.mem_cons_self
  have bound := sub.low
  have most := liveCount_le (fun j => image (clusterAddress k.disk fprivate start+j)) 0 s
  rw [sub.cluster] at counts read
  obtain ⟨counted',counting,same⟩ := totalItems_run image mounted (clusterSector_address mounted low small (by omega))
    sub.run bound
  rw [counting,← count] at counts
  rw [← count] at most
  have total := congrArg (fun r : Except Fault (Int × Disk) => r.map Prod.fst) counts
  simp only [Except.map,Except.ok.injEq] at total
  rw [← total] at counts read array
  cases counts
  refine ⟨directory,held.held,total.symm,fun some => ?_⟩
  rw [array (by omega),Int.toNat_natCast]
  have size : toInt32 (((n : Nat) : Int)*32) = ((n*32 : Nat) : Int) := by
    rw [toInt32_eq (by omega) (by omega)]
    rfl
  rw [size] at read
  obtain ⟨_,res',bytes',reads,_,outcome,_⟩ := fat16ReadInternal_lands 0 (n*32) image (mounted.after same)
    sub.chain (sub.fits.after same) (by omega) positive (by omega)
  have equal := Except.ok.inj (read.symm.trans reads)
  simp only [Prod.mk.injEq] at equal
  obtain ⟨⟨rfl,rfl⟩,_⟩ := equal
  rcases outcome with ⟨_,_,delivered⟩ | ⟨_,failed⟩
  · rw [delivered,Nat.zero_div,landedByte_same same]
  · rw [failed] at arrived
    exact absurd arrived (by decide)

-- What the disk gives for a subdirectory: the count of its entries, and then
-- the bytes of them, all within one block.
structure Listed (dev : BlockDevice) (disk : Disk) (cluster n : Nat) (bytes : List UInt8) (after : Disk) : Prop where
  counted : ∃ fprivate one, disk.fsPrivate = some fprivate ∧
    fat16GetTotalItemsForDirectory dev (toUint32 (fat16ClusterToSector fprivate (cluster : Nat))) disk = .ok ((n : Nat),one) ∧
    fat16ReadInternal dev (cluster : Nat) 0 (n*32 : Nat) one = .ok ((0,bytes),after)
  some : 1 ≤ n
  small : n*32 ≤ 4096

theorem loadFatDirectory_run {k : Kernel} (valid : HeapValid k) (sub : FatDirectoryItem.isSubdirectory entry = true)
    (listed : Listed dev k.disk entry.low16BitsFirstCluster n bytes disk) (room : Room k.heap (2+rest)) :
    ∃ ptr items after, fat16LoadFatDirectory dev entry k = .ok (ptr,after) ∧ Served k (.fatDirectory ⟨items,(n : Nat),0,0⟩) rest ptr after ∧
      after.objs items = some (.directoryItems (directoryItems n bytes)) ∧ after.disk = disk := by
  obtain ⟨fprivate,counted,private',count,read⟩ := listed.counted
  have some' := listed.some
  have small := listed.small
  rw [show 2+rest = 1+(1+rest) by omega] at room
  obtain ⟨ptr,one,allocated,first⟩ := kzalloc_served 16 _ valid (.fatDirectory ⟨0,0,0,0⟩) (by decide) (by decide) room
  have diskOne := kzalloc_disk allocated
  have known : loadPrivate one.disk = .ok (fprivate,one.disk) := loadPrivate_known (by rw [diskOne]; exact private')
  have sameCounted : SameVolume k.disk counted := totalItems_reads dev _ _ _ _ count
  have sameRead : SameVolume counted disk := readInternal_reads dev _ _ _ _ _ _ read
  have validTwo : HeapValid {one with disk := counted} := first.grown.valid.congr rfl (fun _ live => live)
  obtain ⟨items,three,array,second⟩ := kzalloc_served (n*32) rest validTwo (.directoryItems (List.replicate n zeroDirectoryItem))
    (by omega) (by omega) (by rw [blocksFor_single (by omega) small]; exact first.room)
  have diskThree := kzalloc_disk array
  have heldThree : three.objs ptr = Option.some (.fatDirectory ⟨0,0,0,0⟩) := second.grown.held
    (show ({one with disk := counted} : Kernel).objs ptr = _ from first.held)
  have different : items ≠ ptr := by
    intro same
    have fresh := second.fresh
    rw [same] at fresh
    exact absurd fresh (by rw [show ({one with disk := counted} : Kernel).objs ptr = one.objs ptr from rfl,first.held]; simp)
  let four := three.place ptr (.fatDirectory ⟨items,(n : Nat),0,0⟩)
  let five : Kernel := {four with disk := disk}
  let after := five.place items (.directoryItems (directoryItems n bytes))
  have heldFive : five.objs items = Option.some (.directoryItems (List.replicate n zeroDirectoryItem)) := by
    show four.objs items = _
    rw [Kernel.place_other different]
    exact second.held
  have bound : n ≤ 128 := by omega
  have size : toInt32 ((n : Nat)*32) = (n*32 : Nat) := toInt32_natCast (n := n*32) (by omega)
  have word : toUint32 ((n*32 : Nat) : Int) = n*32 := toUint32_natCast (by omega)
  have filled : (Prog.when (((n*32 : Nat) : Int) ≠ 0) do
      let old ← loadAs asDirectoryItems items
      store items (.directoryItems (directoryItems old.length bytes))) five = .ok ((),after) := by
    rw [when_true (by omega),bind_run (loadAs_run asDirectoryItems heldFive rfl),List.length_replicate]
    rfl
  have grown : Grown k after := by
    have grownTwo := first.grown.trans (onDisk_same first.grown.valid (by rw [diskOne]; exact sameCounted))
    have grownFour : Grown k four := (grownTwo.trans second.grown).place first.fresh (by simp [heldThree]) _
    have grownFive : Grown k five := grownFour.trans
      (onDisk_same grownFour.valid (by rw [show four.disk = counted from diskThree]; exact sameRead))
    exact grownFive.place (grownTwo.fresh second.fresh) (by simp [heldFive]) _
  refine ⟨ptr,items,after,?_,⟨grown,first.nonnull,first.fresh,?_,second.room⟩,Kernel.place_same _ _ _,rfl⟩
  · unfold fat16LoadFatDirectory
    rw [if_neg (by simp [sub]),bind_run allocated,if_neg first.nonnull,bind_run (onDisk_run known)]
    dsimp only
    have countOne : onDisk (fat16GetTotalItemsForDirectory dev
      (toUint32 (fat16ClusterToSector fprivate (entry.low16BitsFirstCluster : Nat)))) one =
        .ok (((n : Nat) : Int),{one with disk := counted}) := onDisk_run (by rw [diskOne]; exact count)
    rw [bind_run countOne,if_neg (by omega)]
    have array' : kzalloc (toUint32 (toInt32 ((n : Nat)*32))) (.directoryItems (List.replicate ((n : Nat) : Int).toNat zeroDirectoryItem))
        {one with disk := counted} = .ok (items,three) := by
      rw [size,word]
      exact array
    have stored : store ptr (.fatDirectory ⟨items,(n : Nat),0,0⟩) three = .ok ((),four) := rfl
    have readFour : onDisk (fat16ReadInternal dev (entry.low16BitsFirstCluster : Nat) 0 (n*32 : Nat)) four = .ok ((0,bytes),five) :=
      onDisk_run (by rw [show four.disk = counted from diskThree]; exact read)
    rw [bind_run array',bind_run stored,if_neg second.nonnull,size,bind_run readFour]
    dsimp only
    rw [if_neg (by decide),bind_run filled]
    rfl
  · rw [Kernel.place_other (Ne.symm different)]
    exact Kernel.place_same _ _ _

theorem firstRead_run (total : Nat) (image : Nat → UInt8) (mounted : Mounted disk fprivate) (positive : 0 < fprivate.bytesPerCluster)
    (start : toInt32 (toInt32 (fat16ClusterToSector fprivate (c : Nat)*disk.sectorSize)+0) = (pos : Nat))
    (inside : ((total : Nat) : Int) ≤ fprivate.bytesPerCluster) (fits : pos+total ≤ 2147483648) (low : pos < 2147483648) :
    ∃ after, fat16ReadInternal (imageDevice image) (c : Nat) 0 (total : Nat) disk = .ok ((0,slice image pos total),after) := by
  have int := mounted.int
  have walk : fat16GetClusterForOffset (imageDevice image) (c : Nat) 0 disk = .ok ((c : Nat),disk) := by
    unfold fat16GetClusterForOffset
    rw [bind_run (loadPrivate_run mounted),if_neg (by omega),Int.zero_tdiv]
    rfl
  obtain ⟨sought,after,seek,read,_⟩ := seek_read_run _ _ image (mounted.streams fprivate.clusterReadStream (by simp)) low fits
  have left : (if (total : Int) > toInt32 (fprivate.bytesPerCluster-0) then toInt32 (fprivate.bytesPerCluster-0) else
    (total : Int)) = total := by
    rw [Int.sub_zero,toInt32_eq (by omega) int]
    split <;> omega
  refine ⟨after,?_⟩
  unfold fat16ReadInternal
  rw [Int.toNat_natCast,readInternalLevel,bind_run (loadPrivate_run mounted)]
  dsimp only
  rw [bind_run walk,if_neg (by omega),get_bind,Int.zero_tmod,start,left,bind_run seek,if_neg (by decide),bind_run read]
  dsimp only
  rw [if_neg (by decide),if_neg (by omega)]
  rfl

theorem listed_at (pos : Nat) (image : Nat → UInt8) (mounted : Mounted disk fprivate) (positive : 0 < fprivate.bytesPerCluster)
    (counts : toInt32 ((toUint32 (fat16ClusterToSector fprivate (c : Nat)) : Nat)*disk.sectorSize) = (pos : Nat))
    (reads : toInt32 (toInt32 (fat16ClusterToSector fprivate (c : Nat)*disk.sectorSize)+0) = (pos : Nat))
    (ends : EndsAt (fun j => image (pos+j)) t) (live : liveCount (fun j => image (pos+j)) 0 t = n)
    (some : 1 ≤ n) (small : n*32 ≤ 4096) (inside : ((n*32 : Nat) : Int) ≤ fprivate.bytesPerCluster) (fits : pos+32*(t+1) ≤ 2147483648) :
    ∃ after, Listed (imageDevice image) disk c n (slice image pos (n*32)) after := by
  obtain ⟨one,counted,same⟩ := totalItems_run image mounted counts ends fits
  have most := liveCount_le (fun j => image (pos+j)) 0 t
  rw [live] at counted most
  have reads' : toInt32 (toInt32 (fat16ClusterToSector fprivate (c : Nat)*one.sectorSize)+0) = (pos : Nat) := by
    rw [same.sectorSize]
    exact reads
  obtain ⟨after,read⟩ := firstRead_run (n*32) image (mounted.after same) positive reads' inside (by omega) (by omega)
  exact ⟨after,⟨fprivate,one,mounted.private_eq,counted,read⟩,some,small⟩

theorem listed_live (pos : Nat) (image : Nat → UInt8) (mounted : Mounted disk fprivate) (positive : 0 < fprivate.bytesPerCluster)
    (counts : toInt32 ((toUint32 (fat16ClusterToSector fprivate (c : Nat)) : Nat)*disk.sectorSize) = (pos : Nat))
    (reads : toInt32 (toInt32 (fat16ClusterToSector fprivate (c : Nat)*disk.sectorSize)+0) = (pos : Nat))
    (ends : EndsAt (fun j => image (pos+j)) n) (live : ∀ i < n, ¬ Deleted (fun j => image (pos+j)) i)
    (some : 1 ≤ n) (small : n*32 ≤ 4096) (inside : ((n*32 : Nat) : Int) ≤ fprivate.bytesPerCluster) (fits : pos+32*(n+1) ≤ 2147483648) :
    ∃ after, Listed (imageDevice image) disk c n (slice image pos (n*32)) after :=
  listed_at pos image mounted positive counts reads ends (liveCount_all (fun j _ high => live j (by omega))) some small inside fits

-- The entries follow each other on the disk up to the terminator, and the live
-- ones end inside the first two clusters.
structure Compact (image : Nat → UInt8) (disk : Disk) (fprivate : FatPrivate) (start : Nat) (rest : List Nat) (t : Nat) : Prop where
  consecutive : ∀ j < 32*(t+1), image (clusterAddress disk fprivate start+j) = fileByte image disk fprivate (start::rest) j
  early : 32*liveCount (fileByte image disk fprivate (start::rest)) 0 t ≤ 2*clusterSize fprivate

theorem EndsAt.unique (one : EndsAt byte s) (two : EndsAt byte t) : s = t := by
  rcases Nat.lt_trichotomy s t with less | same | more
  · exact absurd one.last (two.before s less)
  · exact same
  · exact absurd two.last (one.before t more)

theorem EndsAt.congr (ends : EndsAt byte t) (same : ∀ j < 32*(t+1), other j = byte j) : EndsAt other t := by
  refine ⟨fun i less => ?_,?_⟩
  · rw [same (32*i) (by omega)]
    exact ends.before i less
  · rw [same (32*t) (by omega)]
    exact ends.last

theorem liveCount_congr (same : ∀ j, i ≤ j → j < i+count → other (32*j) = byte (32*j)) :
    liveCount other i count = liveCount byte i count := by
  induction count generalizing i with
  | zero => rfl
  | succ count ih =>
    have rest := ih (i := i+1) (fun j low high => same j (by omega) (by omega))
    have here : Deleted other i ↔ Deleted byte i := by
      unfold Deleted
      rw [same i (Nat.le_refl _) (by omega)]
    rw [liveCount,liveCount,rest]
    simp only [here]

theorem Compact.right (compact : Compact image disk fprivate start rest t)
    (sub : SubdirectoryTable image disk fprivate start rest entry t s) :
    liveCount (fun j => image (clusterAddress disk fprivate start+j)) 0 s = liveCount (fileByte image disk fprivate (start::rest)) 0 t ∧
      ∀ j < liveCount (fileByte image disk fprivate (start::rest)) 0 t,
        entryOf (landedByte image disk fprivate (start::rest) 0 0) j = entryOf (fileByte image disk fprivate (start::rest)) j := by
  have inside := sub.inside
  have most := liveCount_le (fileByte image disk fprivate (start::rest)) 0 t
  refine ⟨?_,?_⟩
  · have ends : EndsAt (fun j => image (clusterAddress disk fprivate start+j)) t := sub.table.congr compact.consecutive
    rw [sub.run.unique ends]
    exact liveCount_congr (fun j _ high => compact.consecutive (32*j) (by omega))
  · intro j live
    have early := compact.early
    unfold entryOf
    congr 1
    apply slice_congr
    intro i small
    have lands : LandsRight image disk fprivate (start::rest) (0/clusterSize fprivate) (32*j+i) :=
      lands_right_early (by omega) (by
        rw [Nat.zero_div]
        have cluster : (32*j+i)/clusterSize fprivate < 2 := Nat.div_lt_of_lt_mul (by omega)
        generalize (32*j+i)/clusterSize fprivate = index at cluster ⊢
        omega)
    have byte := lands.2
    rw [Nat.zero_div] at byte
    exact byte

theorem search_visits_live (valid : HeapValid k) :
    (∀ image fprivate pos t out directory after, RootTable image k.disk fprivate pos t →
      fat16GetRootDirectory (imageDevice image) out k = .ok ((0,directory),after) →
        ∃ items, after.objs directory.item = some (.directoryItems items) ∧
          (VisitsLive items directory.total (fun j => image (pos+j)) t ↔ Holeless (fun j => image (pos+j)) t)) ∧
    ∀ image fprivate start rest entry t s ptr after, SubdirectoryTable image k.disk fprivate start rest entry t s →
      fat16LoadFatDirectory (imageDevice image) entry k = .ok (ptr,after) → ¬ IsError ptr →
        let file := fileByte image k.disk fprivate (start::rest)
        let scanned := liveCount (fun j => image (clusterAddress k.disk fprivate start+j)) 0 s
        let live := liveCount file 0 t
        ∃ directory items, after.objs ptr = some (.fatDirectory directory) ∧
          (directory.total ≠ 0 → after.objs directory.item = some (.directoryItems items)) ∧
          (VisitsLive items directory.total file t ↔ Holeless file t ∧ (scanned = live ∨ (live = t ∧ t ≤ scanned)) ∧
            ∀ j < live, entryOf (landedByte image k.disk fprivate (start::rest) 0 0) j = entryOf file j) ∧
          (Compact image k.disk fprivate start rest t → (VisitsLive items directory.total file t ↔ Holeless file t)) := by
  constructor
  · intro image fprivate pos t out directory after root ran
    rcases rootDirectory_run valid root out with ⟨_,refused,_⟩ | ⟨found,after',read,total,_,array,_⟩
    · rw [refused] at ran
      cases ran
    · rw [read] at ran
      cases ran
      refine ⟨_,array,?_⟩
      have inside := root.inside
      have most := liveCount_le (fun j => image (pos+j)) 0 t
      rw [total,visits_iff _ (entryOf (fun j => image (pos+j))) ?_ (directoryItems_unmatched _ _)]
      · exact ⟨fun all => all.1,fun holeless => ⟨holeless,.inl rfl,fun _ _ => rfl⟩⟩
      · intro i less
        rw [directoryItems_get _ _ _ _ _ (by omega) (by omega)]
        unfold entryOf
        rw [slice_shift]
  · intro image fprivate start rest entry t s ptr after sub ran real
    dsimp only
    obtain ⟨directory,held,total,array⟩ := subdirectory_loaded valid sub ran real rfl
    generalize count : liveCount (fun j => image (clusterAddress k.disk fprivate start+j)) 0 s = n at *
    let loaded := landedByte image k.disk fprivate (start::rest) 0 0
    have visits := visits_iff (n := n) (directoryItems n (slice loaded 0 (n*32))) (entryOf loaded) (by
      intro i less
      rw [directoryItems_get _ _ _ _ _ less (by omega),Nat.zero_add]
      rfl) (directoryItems_unmatched _ _) t (fileByte image k.disk fprivate (start::rest))
    rw [← total] at visits
    refine ⟨directory,_,held,fun some => array (by omega),?_,fun compact => ?_⟩
    · exact visits
    · obtain ⟨counts,same⟩ := compact.right sub
      rw [count] at counts
      exact visits.trans ⟨fun all => all.1,fun holeless => ⟨holeless,.inl counts,same⟩⟩

def entryBytes (name : List UInt8) (cluster : UInt8) : List UInt8 :=
  name++List.replicate (11-name.length) 0x20++fatFileSubdirectory::List.replicate 14 0++cluster::List.replicate 5 0

def imageOf (runs : List (Nat × List UInt8)) (pos : Nat) : UInt8 :=
  match runs.find? (fun run => run.1 ≤ pos ∧ pos < run.1+run.2.length) with
  | some (start,bytes) => bytes.getD (pos-start) 0
  | none => 0

-- A volume with the table in sector 1, a root directory of 16 entries in sector 2,
-- and cluster 2 from sector 3 on, which is the directory D. Both directories end
-- with a deleted entry.
def listingPrivate : FatPrivate := ⟨⟨1,1,1,16,1⟩,⟨0,0,2,3⟩,512,512,4096,8192,12288⟩
def listingDisk : Disk := ⟨512,some .fat16,some listingPrivate,fun _ => some ⟨0⟩⟩
def deletedBytes : List UInt8 := nutsosFat16UnusedEntry::List.replicate 31 0x20
def fileBytes (name : List UInt8) : List UInt8 := name++List.replicate (11-name.length) 0x20++List.replicate 21 0
def listingImage : Nat → UInt8 := imageOf [(512,0xF8::List.replicate 7 0xFF),
  (1024,entryBytes [0x44] 2++fileBytes [0x41]++deletedBytes),(1536,fileBytes [0x42]++entryBytes [0x43] 3++deletedBytes)]
def listingEntry : FatDirectoryItem := ⟨0x44::List.replicate 7 0x20,List.replicate 3 0x20,fatFileSubdirectory,2,0⟩

theorem listing_mounted : Mounted listingDisk listingPrivate :=
  ⟨rfl,by decide,fun _ _ => rfl,by decide,by decide,by decide,by decide⟩

theorem listing_ends : EndsAt (fun j => listingImage (1024+j)) 3 ∧ EndsAt (fun j => listingImage (1536+j)) 3 := by
  refine ⟨⟨fun i less => ?_,by decide⟩,⟨fun i less => ?_,by decide⟩⟩
  · rcases (by omega : i = 0 ∨ i = 1 ∨ i = 2) with rfl | rfl | rfl <;> decide
  · rcases (by omega : i = 0 ∨ i = 1 ∨ i = 2) with rfl | rfl | rfl <;> decide

theorem listing_root : RootTable listingImage listingDisk listingPrivate 1024 3 :=
  ⟨listing_mounted,by decide,listing_ends.1,by decide,by decide⟩

theorem listing_byte (less : j < 512) : fileByte listingImage listingDisk listingPrivate [2] j = listingImage (1536+j) := by
  unfold fileByte chainAddress
  have size : clusterSize listingPrivate = 512 := rfl
  rw [size,Nat.div_eq_of_lt less,Nat.mod_eq_of_lt less]
  rfl

theorem listing_table : SubdirectoryTable listingImage listingDisk listingPrivate 2 [] listingEntry 3 3 := by
  refine ⟨listing_mounted,by decide,rfl,⟨show nextCluster listingImage listingPrivate 2 = none by decide,by decide,by decide⟩,
    ⟨by decide,by decide⟩,?_,by decide,listing_ends.2,by decide⟩
  exact listing_ends.2.congr (fun j less => listing_byte (by omega))

theorem listing_compact : Compact listingImage listingDisk listingPrivate 2 [] 3 := by
  refine ⟨fun j less => (listing_byte (by omega)).symm,?_⟩
  have most := liveCount_le (fileByte listingImage listingDisk listingPrivate [2]) 0 3
  have size : clusterSize listingPrivate = 512 := rfl
  omega

theorem listing_listed : ∃ after, Listed (imageDevice listingImage) listingDisk 2 2 (slice listingImage 1536 64) after :=
  listed_at 1536 listingImage listing_mounted (by decide) (by decide) (by decide) listing_ends.2 (by decide) (by decide) (by decide)
    (by decide) (by decide)

theorem live_entries_visited :
    (∃ directory after items,
      fat16GetRootDirectory (imageDevice listingImage) ⟨0,0,0,0⟩ (bootKernel bootEntries listingDisk) = .ok ((0,directory),after) ∧
        after.objs directory.item = some (.directoryItems items) ∧
        VisitsLive items directory.total (fun j => listingImage (1024+j)) 3) ∧
    ∃ ptr after directory items,
      fat16LoadFatDirectory (imageDevice listingImage) listingEntry (bootKernel bootEntries listingDisk) = .ok (ptr,after) ∧
        after.objs ptr = some (.fatDirectory directory) ∧ after.objs directory.item = some (.directoryItems items) ∧
        VisitsLive items directory.total (fileByte listingImage listingDisk listingPrivate [2]) 3 := by
  have valid := boot_valid bootEntries listingDisk rfl
  have room := boot_room bootEntries listingDisk
  constructor
  · rcases rootDirectory_run valid listing_root ⟨0,0,0,0⟩ with ⟨_,_,full⟩ | ⟨directory,after,read,_⟩
    · exact absurd room (full 131071)
    obtain ⟨items,held,visits⟩ := (search_visits_live valid).1 _ _ _ _ _ _ _ listing_root read
    refine ⟨directory,after,items,read,held,visits.mpr ?_⟩
    intro i j less inside dead
    rcases (by omega : i = 0 ∨ i = 1) with rfl | rfl
    · exact absurd dead (by decide)
    · exact absurd dead (by decide)
  · obtain ⟨_,listed⟩ := listing_listed
    obtain ⟨ptr,array,after,loaded,served,held,_⟩ := loadFatDirectory_run valid (by decide : FatDirectoryItem.isSubdirectory listingEntry = true)
      listed (show Room (bootKernel bootEntries listingDisk).heap (2+131070) from room)
    have real : ¬ IsError ptr := fun error => by
      have unheld := error_unheld served.grown.valid error
      rw [served.held] at unheld
      cases unheld
    obtain ⟨directory,items,found,array',_,visits⟩ := (search_visits_live valid).2 _ _ _ _ _ _ _ _ _ listing_table loaded real
    cases served.held.symm.trans found
    refine ⟨ptr,after,_,items,loaded,found,array' (show (2 : Int) ≠ 0 by decide),(visits listing_compact).mpr ?_⟩
    intro i j less inside dead
    have dead : listingImage (1536+32*i) = nutsosFat16UnusedEntry := (listing_byte (by omega)).symm.trans dead
    rcases (by omega : i = 0 ∨ i = 1) with rfl | rfl
    · exact absurd dead (by decide)
    · exact absurd dead (by decide)

-- A volume whose root directory starts at byte 512 and has room for 16 entries.
def rootPrivate : FatPrivate := ⟨⟨1,1,0,16,0⟩,⟨0,0,0,0⟩,512,512,4096,8192,12288⟩

def rootDisk : Disk := ⟨512,some .fat16,some rootPrivate,fun _ => some ⟨0⟩⟩

theorem root_mounted : Mounted rootDisk rootPrivate :=
  ⟨rfl,by decide,fun _ _ => rfl,by decide,by decide,by decide,by decide⟩

def twoEntries (first : UInt8) (pos : Nat) : UInt8 :=
  if pos = 512 then first else if pos = 544 then 0x42 else
  if 512 < pos ∧ pos < 523 ∨ 544 < pos ∧ pos < 555 then 0x20 else 0

theorem two_entries_table (first : UInt8) (some : first ≠ nutsosFat16NomoreEntry) :
    RootTable (twoEntries first) rootDisk rootPrivate 512 2 := by
  refine ⟨root_mounted,by decide,⟨?_,by rfl⟩,by decide,by decide⟩
  intro i less
  rcases (by omega : i = 0 ∨ i = 1) with rfl | rfl
  · exact some
  · exact (by decide : (0x42 : UInt8) ≠ nutsosFat16NomoreEntry)

theorem two_entries_loaded (first : UInt8) (some : first ≠ nutsosFat16NomoreEntry) :
    ∃ directory after, fat16GetRootDirectory (imageDevice (twoEntries first)) ⟨0,0,0,0⟩ (bootKernel bootEntries rootDisk) =
        .ok ((0,directory),after) ∧ directory.total = (liveCount (fun j => twoEntries first (512+j)) 0 2 : Nat) ∧
      after.objs directory.item = Option.some (.directoryItems (directoryItems 16 (slice (twoEntries first) 512 512))) := by
  have room := boot_room bootEntries rootDisk
  rcases rootDirectory_run (boot_valid bootEntries rootDisk rfl) (two_entries_table first some) ⟨0,0,0,0⟩ with
    ⟨_,_,full⟩ | ⟨directory,after,read,total,_,array,_⟩
  · exact absurd room (full 131071)
  · exact ⟨directory,after,read,total,array⟩

theorem deleted_entry_hides : ∃ directory after items,
    RootTable (twoEntries 0xE5) rootDisk rootPrivate 512 2 ∧
      fat16GetRootDirectory (imageDevice (twoEntries 0xE5)) ⟨0,0,0,0⟩ (bootKernel bootEntries rootDisk) = .ok ((0,directory),after) ∧
      after.objs directory.item = some (.directoryItems items) ∧
      ¬ VisitsLive items directory.total (fun j => twoEntries 0xE5 (512+j)) 2 ∧
      entryMatches (entryOf (fun j => twoEntries 0xE5 (512+j)) 1) [0x42,dot] = true ∧
      fat16FindItemInDirectory (imageDevice (twoEntries 0xE5)) directory [0x42,dot] after = .ok (0,after) := by
  have table := two_entries_table 0xE5 (by decide)
  obtain ⟨directory,after,read,total,array⟩ := two_entries_loaded 0xE5 (by decide)
  have one : directory.total = 1 := total.trans (by decide)
  refine ⟨directory,after,_,table,read,array,?_,by decide,?_⟩
  · intro visits
    refine visits.deleted longName 0 ⟨by rw [one]; decide,fun j less => absurd less (Nat.not_lt_zero j)⟩ (by decide) (by decide)
  · have first : (directoryItems 16 (slice (twoEntries 0xE5) 512 512))[0]? = some (entryOf (fun j => twoEntries 0xE5 (512+j)) 0) := by
      rw [directoryItems_get _ _ _ _ _ (by decide) (by decide)]
      unfold entryOf
      rw [slice_shift]
    have other : entryMatches (entryOf (fun j => twoEntries 0xE5 (512+j)) 0) [0x42,dot] = false := by decide
    unfold fat16FindItemInDirectory
    rw [one]
    show findItem _ directory _ 1 0 after = _
    rw [findItem,bind_run (loadAs_run asDirectoryItems array rfl),first]
    dsimp only
    rw [if_neg (by rw [other]; decide)]
    rfl

end NutsOS.Fat16
