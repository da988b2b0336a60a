import NutsOS.Fat16.Cluster

-- What one access of the driver reads, on a mounted volume whose sectors
-- arrive, and that it moves nothing but stream positions.
namespace NutsOS.Fat16
open Word32 Bytes DiskStreams

-- What fat16_resolve leaves behind: live streams and a consistent geometry.
structure Mounted (disk : Disk) (fprivate : FatPrivate) : Prop where
  private_eq : disk.fsPrivate = some fprivate
  fatStream : fprivate.fatReadStream ≠ 0
  streams : ∀ ptr ∈ [fprivate.clusterReadStream,fprivate.fatReadStream,fprivate.directoryStream],
    (disk.streams ptr).isSome
  sector : 0 < disk.sectorSize
  cluster : fprivate.bytesPerCluster = fprivate.primaryHeader.sectorsPerCluster * disk.sectorSize
  int : fprivate.bytesPerCluster < 2147483648
  root : 0 ≤ fprivate.rootDirectory.endingSectorPos

structure SameVolume (before after : Disk) : Prop where
  sectorSize : after.sectorSize = before.sectorSize
  filesystem : after.filesystem = before.filesystem
  fsPrivate : after.fsPrivate = before.fsPrivate
  streams : ∀ ptr, (before.streams ptr).isSome → (after.streams ptr).isSome

theorem SameVolume.refl (disk : Disk) : SameVolume disk disk := ⟨rfl,rfl,rfl,fun _ live => live⟩

theorem SameVolume.trans (one : SameVolume before middle) (two : SameVolume middle after) :
    SameVolume before after :=
  ⟨two.sectorSize.trans one.sectorSize,two.filesystem.trans one.filesystem,two.fsPrivate.trans one.fsPrivate,
    fun ptr live => two.streams ptr (one.streams ptr live)⟩

theorem withStream_same (disk : Disk) (ptr : Nat) (stream : DiskStream) :
    SameVolume disk (disk.withStream ptr stream) := by
  refine ⟨rfl,rfl,rfl,?_⟩
  intro a live
  by_cases equal : a = ptr <;> simp [Disk.withStream,equal,live]

theorem Mounted.after {before after : Disk} (mounted : Mounted before fprivate) (same : SameVolume before after) :
    Mounted after fprivate := by
  refine ⟨same.fsPrivate.trans mounted.private_eq,mounted.fatStream,?_,?_,?_,mounted.int,mounted.root⟩
  · exact fun ptr member => same.streams ptr (mounted.streams ptr member)
  · rw [same.sectorSize]; exact mounted.sector
  · rw [same.sectorSize]; exact mounted.cluster

theorem loadPrivate_run (mounted : Mounted disk fprivate) : loadPrivate disk = .ok (fprivate,disk) :=
  loadPrivate_known mounted.private_eq

theorem seekStream_run (live : (disk.streams ptr).isSome) (pos : Int) :
    seekStream ptr pos disk = .ok (0,disk.withStream ptr ⟨pos⟩) := by
  obtain ⟨stream,found⟩ := Option.isSome_iff_exists.mp live
  have loaded : loadStream ptr disk = .ok (stream,disk) := loadStream_run found
  unfold seekStream
  rw [Prog.bind_run loaded]
  rfl

theorem withStream_at (disk : Disk) (ptr : Nat) (stream : DiskStream) :
    (disk.withStream ptr stream).streams ptr = some stream := if_pos rfl

-- Every access of the driver is a seek followed by a read of the same stream.
theorem seek_read_arrives (arrives : ∀ lba, Asks pos total lba → (dev lba).isSome) (live : (disk.streams ptr).isSome)
    (start : pos < 2147483648) (fits : pos+total ≤ 2147483648) :
    ∃ sought after, seekStream ptr (pos : Nat) disk = .ok (0,sought) ∧
      readStream dev ptr (total : Nat) sought = .ok ((0,slice (bytesOf dev) pos total),after) ∧
      SameVolume disk after ∧ after.streams ptr = some ⟨toInt32 ((pos+total : Nat) : Int)⟩ := by
  have loaded : loadStream ptr (disk.withStream ptr ⟨pos⟩) = .ok (⟨pos⟩,disk.withStream ptr ⟨pos⟩) := loadStream_run (withStream_at _ _ _)
  have whole := (diskstreamRead_reads dev pos total fits start).arrived arrives
  refine ⟨_,(disk.withStream ptr ⟨pos⟩).withStream ptr ⟨toInt32 ((pos+total : Nat) : Int)⟩,seekStream_run live _,?_,
    (withStream_same _ _ _).trans (withStream_same _ _ _),withStream_at _ _ _⟩
  unfold readStream
  rw [Prog.bind_run loaded,whole]
  rfl

theorem seek_read_run (pos total : Nat) (image : Nat → UInt8) (live : (disk.streams ptr).isSome)
    (start : pos < 2147483648) (fits : pos+total ≤ 2147483648) :
    ∃ sought after, seekStream ptr (pos : Nat) disk = .ok (0,sought) ∧
      readStream (imageDevice image) ptr (total : Nat) sought = .ok ((0,slice image pos total),after) ∧
      SameVolume disk after ∧ after.streams ptr = some ⟨toInt32 ((pos+total : Nat) : Int)⟩ := by
  have read := seek_read_arrives (fun lba _ => imageDevice_arrives image lba) live start fits
  rw [bytesOf_image] at read
  exact read

def fatEntry (image : Nat → UInt8) (fprivate : FatPrivate) (cluster : Nat) : Nat :=
  (image (fprivate.fatTableAddress+2*cluster)).toNat + 256*(image (fprivate.fatTableAddress+2*cluster+1)).toNat

theorem getFatEntry_run (image : Nat → UInt8) (mounted : Mounted disk fprivate)
    (fits : fprivate.fatTableAddress+2*cluster+2 ≤ 2147483648) :
    ∃ after, fat16GetFatEntryForCluster (imageDevice image) (cluster : Nat) disk =
        .ok ((fatEntry image fprivate cluster : Nat),after) ∧ SameVolume disk after ∧
      after.streams fprivate.fatReadStream = some ⟨toInt32 ((fprivate.fatTableAddress+2*cluster+2 : Nat) : Int)⟩ := by
  have live := mounted.streams fprivate.fatReadStream (by simp)
  have double : toInt32 ((cluster : Int)*nutsosFat16FatEntrySize) = ((2*cluster : Nat) : Int) := by
    unfold nutsosFat16FatEntrySize
    rw [toInt32_eq (by omega) (by omega)]
    omega
  have position : toInt32 ((fprivate.fatTableAddress : Int)+((2*cluster : Nat) : Int)) =
      ((fprivate.fatTableAddress+2*cluster : Nat) : Int) := by
    rw [← Int.natCast_add,toInt32_natCast (by omega)]
  obtain ⟨sought,after,seek,read,same,moved⟩ := seek_read_run _ 2 image live (by omega) fits
  have arrived : readStream (imageDevice image) fprivate.fatReadStream 2 sought =
      .ok ((0,slice image (fprivate.fatTableAddress+2*cluster) 2),after) := read
  refine ⟨after,?_,same,moved⟩
  unfold fat16GetFatEntryForCluster
  rw [Prog.bind_run (loadPrivate_run mounted)]
  simp only [mounted.fatStream,if_false,double,position]
  rw [Prog.bind_run seek]
  simp only [show ¬ (0 : Int) < 0 by decide,if_false]
  rw [Prog.bind_run arrived]
  rfl

def WalkEnds (entry : Int) : Prop := nutsosFat16IsLastSector entry ∨ entry = nutsosFat16BadSector ∨
  nutsosFat16IsReservedSector entry ∨ entry = nutsosFat16FreeCluster

instance : DecidablePred WalkEnds := fun _ => inferInstanceAs (Decidable (_ ∨ _))

theorem walkChain_read (read : fat16GetFatEntryForCluster dev c disk = .ok (entry,after)) (count : Nat) :
    walkChain dev (count+1) c disk = if WalkEnds entry then .ok (-eio,after) else walkChain dev count entry after := by
  rw [walkChain,Prog.bind_run read]
  by_cases last : nutsosFat16IsLastSector entry
  · rw [if_pos last,if_pos (.inl last)]
    rfl
  rw [if_neg last]
  by_cases bad : entry = nutsosFat16BadSector
  · rw [if_pos bad,if_pos (.inr (.inl bad))]
    rfl
  rw [if_neg bad]
  by_cases reserved : nutsosFat16IsReservedSector entry
  · rw [if_pos reserved,if_pos (.inr (.inr (.inl reserved)))]
    rfl
  rw [if_neg reserved]
  by_cases free : entry = nutsosFat16FreeCluster
  · rw [if_pos free,if_pos (.inr (.inr (.inr free)))]
    rfl
  rw [if_neg free,if_neg]
  rintro (one | two | three | four)
  · exact last one
  · exact bad two
  · exact reserved three
  · exact free four

end NutsOS.Fat16
