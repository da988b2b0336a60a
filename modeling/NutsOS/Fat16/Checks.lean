import NutsOS.Fat16.Accept
import NutsOS.Fat16.Division
import NutsOS.Fat16.Tally

-- What the driver does not check in a boot sector before it accepts it.
namespace NutsOS.Fat16
open Word32 Bytes HeapAlloc DiskStreams Prog

-- A geometry that the driver can compute with: on every later state of the
-- volume, and whatever the disk holds, it divides by no zero and reads the table,
-- the whole root directory and the data where they are.
structure ComputesWith (b : BootSector) (mounted : Disk) (fprivate : FatPrivate) : Prop where
  cluster : 0 < fprivate.bytesPerCluster
  sector : (b.bytesPerSector : Int) = mounted.sectorSize
  opens : ∀ dev path mode (k : Kernel), SameVolume mounted k.disk → fat16Open dev path mode k ≠ .error .divideByZero
  reads : ∀ dev descriptor size nmemb (k : Kernel), SameVolume mounted k.disk → fat16Read dev descriptor size nmemb k ≠ .error .divideByZero
  table : ∀ (image : Nat → UInt8) (c : Nat) disk, SameVolume mounted disk → c ≤ 0xFFFF →
    ∃ after, fat16GetFatEntryForCluster (imageDevice image) (c : Nat) disk = .ok (word16 (slice image (b.tableAddress c) 2),after)
  counts : ∀ (image : Nat → UInt8) (t : Nat) disk, SameVolume mounted disk → EndsAt (fun j => image (b.rootAddress+j)) t →
    t = 0 ∨ t < b.rootDirEntries → ∃ after, fat16GetTotalItemsForDirectory (imageDevice image) b.rootStart disk =
      .ok ((liveCount (fun j => image (b.rootAddress+j)) 0 t : Nat),after)
  loads : ∀ (image : Nat → UInt8) (t : Nat) out directory (k after : Kernel), HeapValid k → SameVolume mounted k.disk →
    EndsAt (fun j => image (b.rootAddress+j)) t → t < b.rootDirEntries →
    fat16GetRootDirectory (imageDevice image) out k = .ok ((0,directory),after) →
    after.objs directory.item = some (.directoryItems (directoryItems b.rootDirEntries (slice image b.rootAddress (b.rootDirEntries*32))))
  data : ∀ disk, SameVolume mounted disk → ExactData b disk fprivate

def Computable (b : BootSector) (mounted : Disk) : Prop := ∃ fprivate, mounted.fsPrivate = some fprivate ∧ ComputesWith b mounted fprivate

theorem fatTable_reads (geometry : Geometry disk fprivate b) (fields : b.Fields) (sized : b.bytesPerSector = 512) (word : c ≤ 0xFFFF)
    (image : Nat → UInt8) : ∃ after, fat16GetFatEntryForCluster (imageDevice image) (c : Nat) disk =
      .ok (word16 (slice image (b.tableAddress c) 2),after) := by
  have reserved := fields.reservedSectors
  have address : b.tableAddress c = fprivate.fatTableAddress+2*c := by
    unfold BootSector.tableAddress
    rw [geometry.table,sized]
  have start : fprivate.fatTableAddress = b.reservedSectors*512 := geometry.table
  obtain ⟨after,read,_⟩ := getFatEntry_run image (geometry.mounted fields) (by omega : fprivate.fatTableAddress+2*c+2 ≤ 2147483648)
  rw [address]
  exact ⟨after,read⟩

def rootMark (p pos : Nat) : UInt8 := if pos = p then nutsosFat16NomoreEntry else 0x41

theorem rootMark_ends (p t : Nat) : EndsAt (fun j => rootMark (p+32*t) (p+j)) t := by
  refine ⟨fun i less => ?_,if_pos rfl⟩
  have elsewhere : ¬ p+32*i = p+32*t := by omega
  unfold rootMark
  rw [if_neg elsewhere]
  decide

theorem rootMark_zero {q : Nat} (zero : rootMark p q = nutsosFat16NomoreEntry) : q = p := by
  by_contra elsewhere
  unfold rootMark at zero
  rw [if_neg elsewhere] at zero
  exact absurd zero (by decide)

theorem mark_counted {start : Int} {p : Nat} (bound : p < 2196875771904) (halt : Halt (imageDevice (rootMark p)) start s result) (ran : result = .ok n) : p < 2147483648 := by
  cases halt with
  | silent none => cases none
  | outside arrives negative => cases ran
  | ended fetched zero =>
    have found := rootMark_zero zero
    have position := position_unique (toInt32_ge _) (toInt32_lt _) bound fetched.inside found
    have below := toInt32_lt (start+(32*s : Nat))
    omega

-- The count ends at the mark only where no position in front of it wraps.
theorem counts_bound (geometry : Geometry mounted fprivate b) (fields : b.Fields) (sized : b.bytesPerSector = 512)
    (computes : ComputesWith b mounted fprivate) (last : t = 0 ∨ t < b.rootDirEntries) : b.rootAddress+32*t < 2147483648 := by
  have reserved := fields.reservedSectors
  have entries := fields.rootDirEntries
  have tables : b.fatCopies*b.sectorsPerFat ≤ 255*65535 :=
    Nat.mul_le_mul (Nat.le_of_lt_succ fields.fatCopies) (Nat.le_of_lt_succ fields.sectorsPerFat)
  have root : b.rootAddress = b.rootStart*512 := by
    unfold BootSector.rootAddress
    rw [sized]
  have bound : b.rootAddress+32*t < 2196875771904 := by
    rw [root]
    unfold BootSector.rootStart
    omega
  obtain ⟨after,ran⟩ := computes.counts _ t mounted (.refl mounted) (rootMark_ends b.rootAddress t) last
  have aligned : toInt32 (((b.rootStart : Nat) : Int)*512)%512 = 0 := by
    unfold toInt32
    split <;> omega
  obtain ⟨s,result,less,passed,halt⟩ := scan_stops (imageDevice (rootMark (b.rootAddress+32*t))) aligned (toInt32_ge _) (toInt32_lt _)
  have position : toInt32 ((b.rootStart : Nat)*mounted.sectorSize) = toInt32 (((b.rootStart : Nat) : Int)*512) := by rw [geometry.sectorSize]
  have counts := totalItems_stops (imageDevice (rootMark (b.rootAddress+32*t))) geometry.private_eq (geometry.streams _ (by simp))
    position aligned passed halt less
  cases result with
  | error e =>
    have failed : fat16GetTotalItemsForDirectory _ _ _ = Except.error e := counts
    cases failed.symm.trans ran
  | ok n => exact mark_counted bound halt rfl

-- What the root directory takes: its first entry at least is always fetched.
def BootSector.RootFits (b : BootSector) : Prop := b.rootAddress < 2147483648 ∧ b.rootAddress+b.rootDirEntries*32 ≤ 2147483648

theorem computable_iff (geometry : Geometry mounted fprivate b) (fields : b.Fields) : Computable b mounted ↔
    b.sectorsPerCluster ≠ 0 ∧ b.bytesPerSector = 512 ∧ b.RootFits ∧ (b.clusters = 0 ∨ b.dataEnd ≤ 2147483648) := by
  constructor
  · rintro ⟨found,known,computes⟩
    rw [geometry.private_eq] at known
    cases known
    have some : b.sectorsPerCluster ≠ 0 := by
      have positive := computes.cluster
      rw [geometry.cluster] at positive
      omega
    have sized : b.bytesPerSector = 512 := by
      have sector := computes.sector
      rw [geometry.sectorSize] at sector
      omega
    have root : b.rootAddress = b.rootStart*512 := by
      unfold BootSector.rootAddress
      rw [sized]
    refine ⟨some,sized,⟨?_,?_⟩,(exactData_iff geometry fields some sized).mp (computes.data mounted (.refl mounted))⟩
    · exact counts_bound geometry fields sized computes (.inl rfl)
    · by_cases none : b.rootDirEntries = 0
      · have first := counts_bound geometry fields sized computes (.inl rfl)
        omega
      · have last := counts_bound (t := b.rootDirEntries-1) geometry fields sized computes (.inr (by omega))
        omega
  · rintro ⟨some,sized,⟨low,whole⟩,fits⟩
    have nonzero : fprivate.bytesPerCluster ≠ 0 := by
      rw [geometry.cluster]
      omega
    have root : b.rootAddress = b.rootStart*512 := by
      unfold BootSector.rootAddress
      rw [sized]
    have mountedAs {disk : Disk} (same : SameVolume mounted disk) : MountedAs fprivate disk := same.fsPrivate.trans geometry.private_eq
    refine ⟨fprivate,geometry.private_eq,?_,?_,?_,?_,?_,?_,?_,?_⟩
    · rw [geometry.cluster]
      omega
    · rw [geometry.sectorSize,sized]
      rfl
    · exact fun dev path mode k same failed => (fat16Open_divides nonzero dev path mode).admitted (mountedAs same) failed rfl
    · exact fun dev descriptor size nmemb k same failed => (fat16Read_divides nonzero dev descriptor size nmemb).admitted
        (mountedAs same) failed rfl
    · exact fun image c disk same word => fatTable_reads (geometry.after same) fields sized word image
    · intro image t disk same table inside
      have start : toInt32 ((b.rootStart : Nat)*disk.sectorSize) = ((b.rootAddress : Nat) : Int) := by
        rw [(geometry.after same).sectorSize,root]
        exact toInt32_natCast (n := b.rootStart*512) (by omega)
      obtain ⟨after,counted,_⟩ := totalItems_run image ((geometry.after same).mounted fields) start table (by omega)
      exact ⟨after,counted⟩
    · intro image t out directory k after valid same table inside ran
      have known := geometry.after same
      have entries : fprivate.primaryHeader.rootDirEntries = b.rootDirEntries := by rw [known.header]
      have start : ((b.rootAddress : Nat) : Int) = (fprivate.primaryHeader.fatCopies*fprivate.primaryHeader.sectorsPerFat+
          fprivate.primaryHeader.reservedSectors : Nat)*k.disk.sectorSize := by
        rw [known.header,known.sectorSize,root,BootSector.rootStart,Nat.add_comm]
        exact Int.natCast_mul _ _
      have volume : RootTable image k.disk fprivate b.rootAddress t :=
        ⟨known.mounted fields,start,table,by rw [entries]; exact inside,by rw [entries]; exact whole⟩
      rcases rootDirectory_run valid volume out with ⟨_,refused,_⟩ | ⟨found,last,read,_,_,array,_⟩
      · cases refused.symm.trans ran
      · cases read.symm.trans ran
        rw [entries] at array
        exact array
    · exact fun disk same => (exactData_iff (geometry.after same) fields some sized).mpr fits

-- The only check is the signature; these would be needed as well.
theorem accepted_computable {k after : Kernel} (valid : HeapValid k) (sized : k.disk.sectorSize = nutsosSectorSize)
    (boot : dev 0 = some sector) (accepted : fat16Resolve dev k = .ok (0,after)) :
    Computable (bootSector sector) after.disk ↔
      (bootSector sector).sectorsPerCluster ≠ 0 ∧ (bootSector sector).bytesPerSector = 512 ∧
        (bootSector sector).RootFits ∧
        ((bootSector sector).clusters = 0 ∨ (bootSector sector).dataEnd ≤ 2147483648) := by
  obtain ⟨fprivate,geometry⟩ := accepted_geometry valid sized boot accepted
  exact computable_iff geometry (bootSector_fields sector)

theorem small_volume_computable : ∃ after, fat16Resolve (imageDevice (descriptorImage 1 0 0 1)) (bootKernel bootEntries noDisk) = .ok (0,after) ∧
    Computable (bootSector (descriptorImage 1 0 0 1)) after.disk := by
  obtain ⟨after,ran⟩ := descriptor_accepted 1 0 0 1
  refine ⟨after,ran,(accepted_computable (boot_valid bootEntries noDisk rfl) rfl (imageDevice_first _) ran).mpr ?_⟩
  rw [descriptor_sector]
  exact ⟨by decide,rfl,⟨by decide,by decide⟩,.inr (by decide)⟩

theorem no_cluster_size_accepted : ∃ after,
    fat16Resolve (imageDevice (descriptorImage 0 0 0 1)) (bootKernel bootEntries noDisk) = .ok (0,after) ∧
    ¬ Computable (bootSector (descriptorImage 0 0 0 1)) after.disk ∧
    ∀ dev cluster offset total, fat16ReadInternal dev cluster offset total after.disk = .error .divideByZero := by
  obtain ⟨after,ran⟩ := descriptor_accepted 0 0 0 1
  obtain ⟨fprivate,geometry⟩ := accepted_geometry (boot_valid bootEntries noDisk rfl) rfl (imageDevice_first _) ran
  refine ⟨after,ran,fun computable => ?_,fun dev cluster offset total => ?_⟩
  · have some := ((computable_iff geometry (bootSector_fields _)).mp computable).1
    rw [descriptor_sector] at some
    exact some rfl
  · have known := loadPrivate_known geometry.private_eq
    have zero : fprivate.bytesPerCluster = 0 := by
      rw [geometry.cluster,descriptor_sector]
      rfl
    have divided : fat16GetClusterForOffset dev cluster offset after.disk = .error .divideByZero := by
      unfold fat16GetClusterForOffset
      rw [bind_run known,if_pos zero]
      rfl
    unfold fat16ReadInternal
    rw [readInternalLevel,bind_run known]
    exact bind_fault divided

end NutsOS.Fat16
