import NutsOS.Fat16.Mount

-- A FAT volume as its boot sector describes it, and what the driver keeps of it.
namespace NutsOS.Fat16
open Word32 Bytes DiskStreams Prog

structure BootSector where
  bytesPerSector : Nat
  sectorsPerCluster : Nat
  reservedSectors : Nat
  fatCopies : Nat
  rootDirEntries : Nat
  numberOfSectors : Nat
  sectorsPerFat : Nat
  sectorsBig : Nat

def bootSector (sector : Nat → UInt8) : BootSector where
  bytesPerSector := littleEndian (slice sector 11 2)
  sectorsPerCluster := (sector 13).toNat
  reservedSectors := littleEndian (slice sector 14 2)
  fatCopies := (sector 16).toNat
  rootDirEntries := littleEndian (slice sector 17 2)
  numberOfSectors := littleEndian (slice sector 19 2)
  sectorsPerFat := littleEndian (slice sector 22 2)
  sectorsBig := littleEndian (slice sector 32 4)

namespace BootSector

def totalSectors (b : BootSector) : Nat := if b.numberOfSectors = 0 then b.sectorsBig else b.numberOfSectors

def rootStart (b : BootSector) : Nat := b.reservedSectors+b.fatCopies*b.sectorsPerFat

-- The root directory fills its last sector.
def dataStart (b : BootSector) : Nat := b.rootStart+(b.rootDirEntries*32+(b.bytesPerSector-1))/b.bytesPerSector

def clusters (b : BootSector) : Nat := (b.totalSectors-b.dataStart)/b.sectorsPerCluster

-- A cluster number has 16 bits.
def lastCluster (b : BootSector) : Nat := min (b.clusters+1) 0xFFFF

def DataCluster (b : BootSector) (c : Nat) : Prop := 2 ≤ c ∧ c ≤ b.lastCluster

def clusterSize (b : BootSector) : Nat := b.sectorsPerCluster*b.bytesPerSector

def tableAddress (b : BootSector) (c : Nat) : Nat := b.reservedSectors*b.bytesPerSector+2*c

def rootAddress (b : BootSector) : Nat := b.rootStart*b.bytesPerSector

def byteAddress (b : BootSector) (c offset : Nat) : Nat := (b.dataStart+(c-2)*b.sectorsPerCluster)*b.bytesPerSector+offset

def dataEnd (b : BootSector) : Nat := (b.dataStart+(b.lastCluster-1)*b.sectorsPerCluster)*b.bytesPerSector

structure Fields (b : BootSector) : Prop where
  sectorsPerCluster : b.sectorsPerCluster < 256
  reservedSectors : b.reservedSectors < 65536
  fatCopies : b.fatCopies < 256
  rootDirEntries : b.rootDirEntries < 65536
  sectorsPerFat : b.sectorsPerFat < 65536

-- A volume of fewer than 4085 clusters is not FAT16 either; nothing here needs it.
structure FormatAllows (b : BootSector) : Prop where
  bytesPerSector : b.bytesPerSector ∈ [512,1024,2048,4096]
  sectorsPerCluster : b.sectorsPerCluster ∈ [1,2,4,8,16,32,64,128]
  reservedSectors : 1 ≤ b.reservedSectors
  fatCopies : 1 ≤ b.fatCopies
  clusters : 1 ≤ b.clusters ∧ b.clusters ≤ 65524
  table : 2*(b.clusters+2) ≤ b.sectorsPerFat*b.bytesPerSector

theorem byteAddress_end (b : BootSector) (cluster : b.DataCluster c) (inside : offset < b.clusterSize) :
    b.byteAddress c offset < b.dataEnd := by
  unfold byteAddress dataEnd DataCluster clusterSize at *
  have last : c-2+1 ≤ b.lastCluster-1 := by omega
  calc (b.dataStart+(c-2)*b.sectorsPerCluster)*b.bytesPerSector+offset
    _ < (b.dataStart+(c-2)*b.sectorsPerCluster)*b.bytesPerSector+b.sectorsPerCluster*b.bytesPerSector := by omega
    _ = (b.dataStart+(c-2+1)*b.sectorsPerCluster)*b.bytesPerSector := by
      rw [← Nat.add_mul,Nat.add_assoc,Nat.succ_mul]
    _ ≤ (b.dataStart+(b.lastCluster-1)*b.sectorsPerCluster)*b.bytesPerSector :=
      Nat.mul_le_mul_right _ (Nat.add_le_add_left (Nat.mul_le_mul_right _ last) _)

theorem byteAddress_last (b : BootSector) (some : 1 ≤ b.clusters) (positive : 1 ≤ b.clusterSize) :
    b.byteAddress b.lastCluster (b.clusterSize-1)+1 = b.dataEnd := by
  have last : b.lastCluster-1 = b.lastCluster-2+1 := by
    unfold lastCluster
    omega
  have size : b.clusterSize-1+1 = b.clusterSize := Nat.sub_add_cancel positive
  unfold byteAddress dataEnd
  rw [Nat.add_assoc,size,last]
  unfold clusterSize
  rw [← Nat.add_mul,Nat.add_assoc,Nat.succ_mul]

end BootSector

theorem littleEndian_two (bytes : List UInt8) (two : bytes.length = 2) : littleEndian bytes < 65536 := by
  obtain ⟨low,high,rfl⟩ := List.length_eq_two.mp two
  have one := low.toNat_lt
  have other := high.toNat_lt
  simp only [littleEndian]
  omega

theorem bootSector_fields (sector : Nat → UInt8) : (bootSector sector).Fields :=
  ⟨UInt8.toNat_lt _,littleEndian_two _ slice_length,UInt8.toNat_lt _,littleEndian_two _ slice_length,littleEndian_two _ slice_length⟩

theorem slice_getD (image : Nat → UInt8) (inside : i < n) : (slice image pos n).getD i 0 = image (pos+i) := by
  simp [slice,List.getD,inside]

theorem fatHeaderMain_slice (sector : Nat → UInt8) : fatHeaderMain (slice sector 0 62) =
    ⟨(bootSector sector).sectorsPerCluster,(bootSector sector).reservedSectors,(bootSector sector).fatCopies,
      (bootSector sector).rootDirEntries,(bootSector sector).sectorsPerFat⟩ := by
  unfold fatHeaderMain bootSector
  rw [slice_getD _ (by decide),slice_getD _ (by decide),drop_take_slice _ _ _ _ _ (by decide),drop_take_slice _ _ _ _ _ (by decide),
    drop_take_slice _ _ _ _ _ (by decide)]

-- What the driver computes with on a volume: sectors of 512 bytes throughout.
structure Geometry (disk : Disk) (fprivate : FatPrivate) (b : BootSector) : Prop where
  private_eq : disk.fsPrivate = some fprivate
  sectorSize : disk.sectorSize = 512
  header : fprivate.primaryHeader = ⟨b.sectorsPerCluster,b.reservedSectors,b.fatCopies,b.rootDirEntries,b.sectorsPerFat⟩
  table : fprivate.fatTableAddress = b.reservedSectors*512
  cluster : fprivate.bytesPerCluster = (b.sectorsPerCluster*512 : Nat)
  root : fprivate.rootDirectory.sectorPos = b.rootStart
  ending : fprivate.rootDirectory.endingSectorPos = (b.rootStart+(b.rootDirEntries*32+511)/512 : Nat)
  fatStream : fprivate.fatReadStream ≠ 0
  streams : ∀ ptr ∈ [fprivate.clusterReadStream,fprivate.fatReadStream,fprivate.directoryStream], (disk.streams ptr).isSome

theorem rootSectors_eq (header : FatHeaderMain) : rootSectors header 512 = ((header.rootDirEntries*32+511)/512 : Nat) := by
  unfold rootSectors
  have whole : ((header.rootDirEntries*32 : Nat) : Int).tdiv 512 = ((header.rootDirEntries*32/512 : Nat) : Int) := rfl
  have rest : ((header.rootDirEntries*32 : Nat) : Int).tmod 512 = ((header.rootDirEntries*32%512 : Nat) : Int) := rfl
  rw [whole,rest]
  split <;> omega

theorem Geometry.of_mounted (mounted : MountedFrom dev before after fprivate sector) (sized : before.sectorSize = nutsosSectorSize) :
    Geometry after fprivate (bootSector sector) := by
  have size : after.sectorSize = 512 := mounted.sectorSize.trans sized
  have fields := bootSector_fields sector
  have header := mounted.resolved.header.trans (fatHeaderMain_slice sector)
  have reserved := fields.reservedSectors
  have perCluster := fields.sectorsPerCluster
  refine ⟨mounted.private_eq,size,header,?_,?_,?_,?_,mounted.fatStream,mounted.streams⟩
  · rw [mounted.resolved.table,header,size]
    exact toUint32_natCast (n := (bootSector sector).reservedSectors*512) (by omega)
  · rw [mounted.resolved.cluster,header,size]
    exact toInt32_natCast (n := (bootSector sector).sectorsPerCluster*512) (by omega)
  · rw [mounted.resolved.root,header]
    unfold rootSector BootSector.rootStart
    rw [Nat.add_comm]
  · rw [mounted.resolved.ending,header,size,rootSectors_eq]
    unfold rootSector BootSector.rootStart
    rw [← Int.natCast_add,Nat.add_comm (_*_)]

theorem Geometry.after {before after : Disk} (geometry : Geometry before fprivate b) (same : SameVolume before after) :
    Geometry after fprivate b := by
  obtain ⟨known,sized,header,table,cluster,root,ending,fatStream,streams⟩ := geometry
  exact ⟨same.fsPrivate.trans known,same.sectorSize.trans sized,header,table,cluster,root,ending,fatStream,
    fun ptr member => same.streams ptr (streams ptr member)⟩

end NutsOS.Fat16
