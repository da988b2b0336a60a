import NutsOS.Fat16.Volume

-- The positions that the driver seeks on a volume, seen by the bytes that it
-- reads there.
namespace NutsOS.Fat16
open Word32 Bytes DiskStreams Prog

def sectorOf (pos : Int) : Nat := toUint32 (pos.tdiv nutsosSectorSize)

theorem sectorOf_natCast (fits : pos < 2147483648) : sectorOf (pos : Nat) = pos/512 := by
  have sector : ((pos : Nat) : Int).tdiv nutsosSectorSize = ((pos/512 : Nat) : Int) := rfl
  unfold sectorOf
  rw [sector]
  exact toUint32_natCast (by omega)

theorem read_byte (image : Nat → UInt8) (pos : Int) : diskstreamRead (imageDevice image) ⟨pos⟩ 1 =
    if pos.tmod nutsosSectorSize < 0 then .error (.outOfBounds (pos.tmod nutsosSectorSize)) else
      .ok (eok,[image (sectorOf pos*512+(pos.tmod nutsosSectorSize).toNat)],⟨toInt32 (pos+1)⟩) := by
  have small : pos.tmod nutsosSectorSize < nutsosSectorSize := Int.tmod_lt_of_pos pos (by decide)
  have now : (if (1 : Int) > nutsosSectorSize-pos.tmod nutsosSectorSize then nutsosSectorSize-pos.tmod nutsosSectorSize else 1) = 1 :=
    if_neg (by omega)
  have arrived : diskReadBlock (imageDevice image) (toUint32 (pos.tdiv nutsosSectorSize)) =
      .ok (0,fun i => image (sectorOf pos*512+i)) := rfl
  unfold diskstreamRead
  rw [diskstreamReadLoop]
  dsimp only
  rw [now,arrived]
  dsimp only
  rw [if_neg (by decide),show (1 : Int).toNat = 0+1 from rfl,copySector]
  by_cases front : pos.tmod nutsosSectorSize < 0
  · rw [if_pos (.inl front),if_pos front]
  · rw [if_neg (by omega),if_neg front,copySector]
    rfl

-- Behind 2^31 the positions are negative, and lead to sectors at the end of the
-- 32-bit numbers.
theorem position_unique {pos : Int} {p : Nat} (low : -2147483648 ≤ pos) (high : pos < 2147483648) (bound : p < 2196875771904)
    (inside : 0 ≤ pos.tmod nutsosSectorSize) (found : sectorOf pos*512+(pos.tmod nutsosSectorSize).toNat = p) : pos = p := by
  have small : pos.tmod nutsosSectorSize < nutsosSectorSize := Int.tmod_lt_of_pos pos (by decide)
  have parts := Int.mul_tdiv_add_tmod pos nutsosSectorSize
  unfold sectorOf toUint32 at found
  rw [show nutsosSectorSize = 512 from rfl] at inside small found parts
  omega

def mark (p pos : Nat) : UInt8 := if pos = p then 1 else 0

theorem marked_position {pos : Int} {p : Nat} (low : -2147483648 ≤ pos) (high : pos < 2147483648) (bound : p < 2196875771904)
    (read : diskstreamRead (imageDevice (mark p)) ⟨pos⟩ 1 = .ok (res,[1],stream)) : pos = p := by
  rw [read_byte] at read
  by_cases front : pos.tmod nutsosSectorSize < 0
  · rw [if_pos front] at read
    cases read
  rw [if_neg front] at read
  refine position_unique low high bound (Int.not_lt.mp front) ?_
  by_contra elsewhere
  unfold mark at read
  rw [if_neg elsewhere] at read
  cases read

theorem readInternal_one (geometry : Geometry disk fprivate b)
    (walk : fat16GetClusterForOffset dev start offset disk = .ok (c,walked)) (positive : ¬ c < 0)
    (pos : toInt32 (toInt32 (fat16ClusterToSector fprivate c*512)+offset.tmod fprivate.bytesPerCluster) = position)
    (single : ¬ total > toInt32 (fprivate.bytesPerCluster-offset.tmod fprivate.bytesPerCluster)) :
    fat16ReadInternal dev start offset total disk =
      readStream dev fprivate.clusterReadStream total (walked.withStream fprivate.clusterReadStream ⟨position⟩) := by
  have known := loadPrivate_known geometry.private_eq
  have later := geometry.after (clusterForOffset_reads dev _ _ _ _ _ walk)
  have live := later.streams fprivate.clusterReadStream (by simp)
  subst pos
  unfold fat16ReadInternal
  rw [readInternalLevel,bind_run known]
  dsimp only
  rw [bind_run walk,if_neg positive,get_bind,later.sectorSize,if_neg single,bind_run (seekStream_run live _),if_neg (by decide)]
  cases read : readStream dev fprivate.clusterReadStream total (walked.withStream fprivate.clusterReadStream ⟨_⟩) with
  | error e => exact bind_fault read
  | ok result =>
    obtain ⟨⟨res,bytes⟩,after⟩ := result
    rw [bind_run read]
    dsimp only
    by_cases failed : res < 0
    · rw [if_pos failed]
      rfl
    · rw [if_neg failed,if_neg (by omega)]
      rfl

theorem toInt32_mul_left (x y : Int) : toInt32 (toUint32 x*y) = toInt32 (x*y) := by
  have same : (toUint32 x*y)%4294967296 = (x*y)%4294967296 := by
    unfold toUint32
    rw [Int.toNat_of_nonneg (Int.emod_nonneg _ (by decide)),Int.mul_emod,Int.emod_emod_of_dvd _ (dvd_refl _),← Int.mul_emod]
  unfold toInt32
  rw [same]

theorem toInt32_le (n : Nat) : toInt32 n ≤ n ∧ toInt32 n < 2147483648 := by
  unfold toInt32
  split <;> omega

namespace BootSector

-- The volume as the driver takes it, whatever its sectors are.
def resized (b : BootSector) : BootSector := {b with bytesPerSector := 512}

theorem resized_eq {b : BootSector} (same : b.bytesPerSector = 512) : b.resized = b := by
  unfold resized
  rw [← same]

theorem resized_byteAddress (b : BootSector) (c offset : Nat) : b.resized.byteAddress c offset =
    (b.rootStart+(b.rootDirEntries*32+511)/512+(c-2)*b.sectorsPerCluster)*512+offset := rfl

theorem DataCluster.bounds {b : BootSector} (cluster : b.DataCluster c) : 2 ≤ c ∧ c ≤ 0xFFFF := by
  unfold DataCluster lastCluster at cluster
  omega

end BootSector

theorem clusterToSector_eq (geometry : Geometry disk fprivate b) (fields : b.Fields) (low : 2 ≤ c) (word : c ≤ 0xFFFF) :
    fat16ClusterToSector fprivate (c : Nat) = (b.rootStart+(b.rootDirEntries*32+511)/512+(c-2)*b.sectorsPerCluster : Nat) := by
  have index : toInt32 ((c : Int)-2) = ((c-2 : Nat) : Int) := by
    rw [toInt32_eq (by omega) (by omega)]
    omega
  have reserved := fields.reservedSectors
  have entries := fields.rootDirEntries
  have tables : b.fatCopies*b.sectorsPerFat ≤ 255*65535 :=
    Nat.mul_le_mul (Nat.le_of_lt_succ fields.fatCopies) (Nat.le_of_lt_succ fields.sectorsPerFat)
  have data : (c-2)*b.sectorsPerCluster ≤ 65533*255 := Nat.mul_le_mul (by omega) (Nat.le_of_lt_succ fields.sectorsPerCluster)
  unfold fat16ClusterToSector BootSector.rootStart
  dsimp only
  rw [index,geometry.ending,geometry.header]
  dsimp only
  unfold BootSector.rootStart
  rw [← Int.natCast_mul,toInt32_natCast (by omega),← Int.natCast_add]
  exact toInt32_natCast (by omega)

theorem clusterStart_eq (geometry : Geometry disk fprivate b) (fields : b.Fields) (low : 2 ≤ c) (word : c ≤ 0xFFFF) :
    toInt32 ((toUint32 (fat16ClusterToSector fprivate (c : Nat)) : Nat)*512) = toInt32 (b.resized.byteAddress c 0 : Nat) := by
  rw [toInt32_mul_left,clusterToSector_eq geometry fields low word,BootSector.resized_byteAddress,Int.natCast_add,Int.natCast_mul]
  exact congrArg toInt32 (Int.add_zero _).symm

theorem bytePosition_eq (geometry : Geometry disk fprivate b) (fields : b.Fields) (low : 2 ≤ c) (word : c ≤ 0xFFFF) (offset : Nat) :
    toInt32 (toInt32 (fat16ClusterToSector fprivate (c : Nat)*512)+(offset : Int).tmod fprivate.bytesPerCluster) =
      toInt32 (b.resized.byteAddress c (offset%b.resized.clusterSize) : Nat) := by
  have rest : (offset : Int).tmod (b.sectorsPerCluster*512 : Nat) = (offset%b.resized.clusterSize : Nat) := rfl
  rw [toInt32_add_left,clusterToSector_eq geometry fields low word,BootSector.resized_byteAddress,geometry.cluster,rest,
    Int.natCast_add,Int.natCast_mul]
  rfl

-- A cluster is read from the byte that is meant on, and its entries are counted
-- from its first byte on, whatever the disk holds.
structure ExactData (b : BootSector) (disk : Disk) (fprivate : FatPrivate) : Prop where
  read : ∀ (image : Nat → UInt8) (start : Int) (offset total c : Nat) (walked : Disk),
    fat16GetClusterForOffset (imageDevice image) start (offset : Nat) disk = .ok ((c : Nat),walked) → b.DataCluster c →
    offset%b.clusterSize+total ≤ b.clusterSize →
    ∃ after, fat16ReadInternal (imageDevice image) start (offset : Nat) (total : Nat) disk =
      .ok ((eok,slice image (b.byteAddress c (offset%b.clusterSize)) total),after)
  count : ∀ (image : Nat → UInt8) (c t : Nat), b.DataCluster c → EndsAt (fun j => image (b.byteAddress c 0+j)) t →
    32*(t+1) ≤ b.clusterSize →
    ∃ after, fat16GetTotalItemsForDirectory (imageDevice image) (toUint32 (fat16ClusterToSector fprivate (c : Nat))) disk =
      .ok ((liveCount (fun j => image (b.byteAddress c 0+j)) 0 t : Nat),after)

theorem Geometry.mounted (geometry : Geometry disk fprivate b) (fields : b.Fields) : Mounted disk fprivate := by
  have perCluster := fields.sectorsPerCluster
  refine ⟨geometry.private_eq,geometry.fatStream,geometry.streams,?_,?_,?_,?_⟩
  · rw [geometry.sectorSize]
    decide
  · rw [geometry.cluster,geometry.header,geometry.sectorSize]
    exact Int.natCast_mul _ _
  · rw [geometry.cluster]
    omega
  · rw [geometry.ending]
    omega

-- The offset lies in the first cluster, whatever size the two take it to have.
theorem read_exact (geometry : Geometry disk fprivate b) (fields : b.Fields) (exact' : ExactData b disk fprivate)
    (cluster : b.DataCluster c) (inside : offset < b.clusterSize) (inside' : offset < b.sectorsPerCluster*512)
    (bound : b.byteAddress c offset < 2196875771904) : (b.byteAddress c offset : Int) = toInt32 (b.resized.byteAddress c offset : Nat) := by
  obtain ⟨low,word⟩ := cluster.bounds
  have walk : fat16GetClusterForOffset (imageDevice (mark (b.byteAddress c offset))) (c : Nat) (offset : Nat) disk = .ok ((c : Nat),disk) := by
    have known := loadPrivate_known geometry.private_eq
    have none : ((offset : Int).tdiv fprivate.bytesPerCluster).toNat = 0 := by
      rw [geometry.cluster]
      show (((offset/(b.sectorsPerCluster*512) : Nat) : Int)).toNat = 0
      rw [Nat.div_eq_of_lt inside']
      rfl
    unfold fat16GetClusterForOffset
    rw [bind_run known,if_neg (by rw [geometry.cluster]; omega),none]
    rfl
  have perCluster := fields.sectorsPerCluster
  have rest : (offset : Int).tmod fprivate.bytesPerCluster = (offset : Nat) := by
    rw [geometry.cluster]
    show ((offset%(b.sectorsPerCluster*512) : Nat) : Int) = _
    rw [Nat.mod_eq_of_lt inside']
  have single : ¬ (1 : Int) > toInt32 (fprivate.bytesPerCluster-(offset : Int).tmod fprivate.bytesPerCluster) := by
    rw [rest,geometry.cluster,toInt32_eq (by omega) (by omega)]
    omega
  have position := bytePosition_eq geometry fields low word offset
  rw [show offset%b.resized.clusterSize = offset from Nat.mod_eq_of_lt inside'] at position
  obtain ⟨after,ran⟩ := exact'.read _ (c : Nat) offset 1 c disk walk cluster (by rw [Nat.mod_eq_of_lt inside]; omega)
  rw [Nat.mod_eq_of_lt inside,show slice (mark (b.byteAddress c offset)) (b.byteAddress c offset) 1 = [1] by simp [slice,mark]] at ran
  have read := (readInternal_one geometry walk (by omega) position single).symm.trans ran
  unfold readStream at read
  rw [bind_run (loadStream_run (withStream_at _ _ _))] at read
  cases found : diskstreamRead (imageDevice (mark (b.byteAddress c offset))) ⟨toInt32 (b.resized.byteAddress c offset : Nat)⟩ 1 with
  | error e =>
    rw [found] at read
    cases read
  | ok result =>
    obtain ⟨res,bytes,stream⟩ := result
    rw [found] at read
    cases read
    exact (marked_position (toInt32_ge _) (toInt32_lt _) bound found).symm

theorem byteAddress_small (b : BootSector) (fields : b.Fields) (sized : b.bytesPerSector = 512) (cluster : b.DataCluster c)
    (inside : offset < b.clusterSize) : b.byteAddress c offset < 2196875771904 := by
  obtain ⟨low,word⟩ := cluster.bounds
  have reserved := fields.reservedSectors
  have entries := fields.rootDirEntries
  have tables : b.fatCopies*b.sectorsPerFat ≤ 255*65535 :=
    Nat.mul_le_mul (Nat.le_of_lt_succ fields.fatCopies) (Nat.le_of_lt_succ fields.sectorsPerFat)
  have data : (c-2)*b.sectorsPerCluster ≤ 65533*255 := Nat.mul_le_mul (by omega) (Nat.le_of_lt_succ fields.sectorsPerCluster)
  have perCluster := fields.sectorsPerCluster
  unfold BootSector.byteAddress BootSector.dataStart BootSector.rootStart
  unfold BootSector.clusterSize at inside
  rw [sized] at inside ⊢
  omega

theorem exactData_iff (geometry : Geometry disk fprivate b) (fields : b.Fields) (some : b.sectorsPerCluster ≠ 0)
    (sized : b.bytesPerSector = 512) : ExactData b disk fprivate ↔ b.clusters = 0 ∨ b.dataEnd ≤ 2147483648 := by
  have bytes : b.clusterSize = b.sectorsPerCluster*512 := by
    unfold BootSector.clusterSize
    rw [sized]
  constructor
  · intro exact'
    by_cases none : b.clusters = 0
    · exact .inl none
    · have last : b.DataCluster b.lastCluster := ⟨by unfold BootSector.lastCluster; omega,Nat.le_refl _⟩
      have inside : b.clusterSize-1 < b.clusterSize := by omega
      have found := read_exact geometry fields exact' last inside (by omega) (byteAddress_small b fields sized last inside)
      rw [BootSector.resized_eq sized] at found
      have high := (toInt32_le (b.byteAddress b.lastCluster (b.clusterSize-1))).2
      have ends := b.byteAddress_last (by omega) (by omega)
      exact .inr (by omega)
  · intro room
    have fits {c offset : Nat} (cluster : b.DataCluster c) (inside : offset < b.clusterSize) : b.byteAddress c offset < 2147483648 := by
      have before := b.byteAddress_end cluster inside
      rcases room with none | room
      · unfold BootSector.DataCluster BootSector.lastCluster at cluster
        omega
      · omega
    have ends {c offset count : Nat} (cluster : b.DataCluster c) (inside : offset+count ≤ b.clusterSize) (some : 0 < b.clusterSize)
        (first : offset < b.clusterSize) : b.byteAddress c offset+count ≤ 2147483648 := by
      have last := fits cluster (show b.clusterSize-1 < b.clusterSize by omega)
      unfold BootSector.byteAddress at last ⊢
      omega
    refine ⟨fun image start offset total c walked walk cluster inside => ?_,fun image c t cluster table inside => ?_⟩
    · obtain ⟨low,word⟩ := cluster.bounds
      have perCluster := fields.sectorsPerCluster
      have first := Nat.mod_lt offset (show b.clusterSize > 0 by omega)
      have small := fits cluster first
      have position := bytePosition_eq geometry fields low word offset
      rw [BootSector.resized_eq sized,toInt32_natCast small] at position
      have rest : (offset : Int).tmod fprivate.bytesPerCluster = ((offset%b.clusterSize : Nat) : Int) := by
        rw [geometry.cluster,bytes]
        rfl
      have single : ¬ (total : Int) > toInt32 (fprivate.bytesPerCluster-(offset : Int).tmod fprivate.bytesPerCluster) := by
        rw [rest,geometry.cluster,toInt32_eq (by omega) (by omega)]
        omega
      have read := diskstreamRead_image image (b.byteAddress c (offset%b.clusterSize)) total (ends cluster inside (by omega) first) small
      obtain ⟨after,ran⟩ : ∃ after, readStream (imageDevice image) fprivate.clusterReadStream (total : Nat)
          (walked.withStream fprivate.clusterReadStream ⟨(b.byteAddress c (offset%b.clusterSize) : Nat)⟩) =
            .ok ((eok,slice image (b.byteAddress c (offset%b.clusterSize)) total),after) := by
        unfold readStream
        rw [bind_run (loadStream_run (withStream_at _ _ _)),read]
        exact ⟨_,rfl⟩
      exact ⟨after,(readInternal_one geometry walk (by omega) position single).trans ran⟩
    · obtain ⟨low,word⟩ := cluster.bounds
      have small := fits cluster (show 0 < b.clusterSize by omega)
      have position := clusterStart_eq geometry fields low word
      rw [BootSector.resized_eq sized,toInt32_natCast small,← geometry.sectorSize] at position
      obtain ⟨after,counted,_⟩ := totalItems_run image (geometry.mounted fields) position table
        (ends cluster (by omega) (by omega) (by omega))
      exact ⟨after,counted⟩

theorem FormatAllows.perCluster {b : BootSector} (allowed : b.FormatAllows) : b.sectorsPerCluster ≠ 0 := by
  intro zero
  have sizes := allowed.sectorsPerCluster
  rw [zero] at sizes
  exact absurd sizes (by decide)

theorem exactData_sized (geometry : Geometry disk fprivate b) (fields : b.Fields) (allowed : b.FormatAllows)
    (exact' : ExactData b disk fprivate) : b.bytesPerSector = 512 := by
  have two : b.DataCluster 2 := ⟨Nat.le_refl _,by have some := allowed.clusters.1; unfold BootSector.lastCluster; omega⟩
  have some := FormatAllows.perCluster allowed
  have sizes := allowed.bytesPerSector
  simp only [List.mem_cons,List.not_mem_nil,or_false] at sizes
  have positive : 0 < b.clusterSize := Nat.mul_pos (by omega) (by omega)
  have reserved := fields.reservedSectors
  have entries := fields.rootDirEntries
  have tables : b.fatCopies*b.sectorsPerFat ≤ 255*65535 :=
    Nat.mul_le_mul (Nat.le_of_lt_succ fields.fatCopies) (Nat.le_of_lt_succ fields.sectorsPerFat)
  have start : b.rootStart ≤ 65535+255*65535 := by
    unfold BootSector.rootStart
    omega
  have bound : b.byteAddress 2 0 < 2196875771904 := by
    unfold BootSector.byteAddress BootSector.dataStart
    rw [Nat.sub_self,Nat.zero_mul]
    rcases sizes with size | size | size | size <;> rw [size] <;> omega
  have found := read_exact geometry fields exact' two positive (by omega) bound
  have low := (toInt32_le (b.resized.byteAddress 2 0)).1
  have first : 1 ≤ b.rootStart := Nat.le_trans allowed.reservedSectors (Nat.le_add_right _ _)
  rw [BootSector.resized_byteAddress] at found low
  unfold BootSector.byteAddress BootSector.dataStart at found
  generalize toInt32 _ = position at found low
  rcases sizes with size | size | size | size
  · exact size
  · rw [size] at found
    omega
  · rw [size] at found
    omega
  · rw [size] at found
    omega

end NutsOS.Fat16
