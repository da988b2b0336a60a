import NutsOS.Fat16.Classes
import NutsOS.Fat16.Contents
import NutsOS.Fat16.Output

-- A walk along the chain can stop at any cluster and go on from there later.
namespace NutsOS.Fat16
open Word32 DiskStreams Prog

def EntriesArrive (dev : BlockDevice) (base : Disk) (c : Int) : Prop := ∀ i d, LooksUp dev base c i d →
  ∀ disk, SameVolume base disk → ∃ entry after, fat16GetFatEntryForCluster dev d disk = .ok (entry,after) ∧ 0 ≤ entry

theorem EntriesArrive.next (arrive : EntriesArrive dev base c) (same : SameVolume base disk)
    (read : fat16GetFatEntryForCluster dev c disk = .ok (entry,after)) (on : ¬ WalkEnds entry) : EntriesArrive dev base entry :=
  fun i d looked => arrive (i+1) d (.next same read on looked)

theorem entriesArrive_image (image : Nat → UInt8) (mounted : Mounted base fprivate) (table : fprivate.fatTableAddress ≤ 65535*512)
    (word : c ≤ 0xFFFF) : EntriesArrive (imageDevice image) base (c : Nat) := by
  have reads : ∀ n ≤ 0xFFFF, ∀ disk, SameVolume base disk → ∃ after,
      fat16GetFatEntryForCluster (imageDevice image) (n : Nat) disk = .ok ((fatEntry image fprivate n : Nat),after) := by
    intro n low disk same
    obtain ⟨after,read,_⟩ := getFatEntry_run image (mounted.after same) (by omega : fprivate.fatTableAddress+2*n+2 ≤ 2147483648)
    exact ⟨after,read⟩
  intro i d looked
  generalize start : (c : Int) = from' at looked
  induction looked generalizing c with
  | first =>
    intro disk same
    obtain ⟨after,read⟩ := reads c word disk same
    exact ⟨_,after,start ▸ read,Int.natCast_nonneg _⟩
  | next same read on later ih =>
    obtain ⟨after,known⟩ := reads c word _ same
    rw [start,read] at known
    cases known
    exact ih (fatEntry_word image fprivate c) rfl

theorem walkChain_add (same : SameVolume base disk) (arrive : EntriesArrive dev base c) (start : 0 ≤ c) (i j : Nat) :
    ∃ r after, walkChain dev i c disk = .ok (r,after) ∧ SameVolume base after ∧
      walkChain dev (i+j) c disk = if r < 0 then .ok (r,after) else walkChain dev j r after := by
  induction i generalizing c disk with
  | zero =>
    refine ⟨c,disk,rfl,same,?_⟩
    rw [if_neg (by omega),Nat.zero_add]
  | succ i ih =>
    obtain ⟨entry,after,read,sign⟩ := arrive 0 c .first disk same
    have later := same.trans (getFatEntry_reads dev c _ _ _ read)
    rw [Nat.succ_add_eq_add_succ i j,show i+(j+1) = (i+j)+1 by omega,walkChain_read read,walkChain_read read]
    by_cases ends : WalkEnds entry
    · rw [if_pos ends,if_pos ends]
      exact ⟨-eio,after,rfl,later,(if_pos (by decide)).symm⟩
    · rw [if_neg ends,if_neg ends]
      exact ih later (arrive.next same read ends) sign

def clusterFound (dev : BlockDevice) (disk : Disk) (fromCluster offset : Int) : Except Fault Int :=
  (fat16GetClusterForOffset dev fromCluster offset disk).map Prod.fst

theorem clusterFound_steps (dev : BlockDevice) (mounted : Mounted disk fprivate) (size : fprivate.bytesPerCluster ≠ 0) (c : Int)
    (steps : Nat) : clusterFound dev disk c (steps*fprivate.bytesPerCluster) = (walkChain dev steps c disk).map Prod.fst := by
  unfold clusterFound
  rw [clusterForOffset_walk dev mounted,if_neg size,Int.mul_tdiv_cancel _ size,Int.toNat_natCast]

theorem clusterFound_same (dev : BlockDevice) (mounted : Mounted base fprivate) (one : SameVolume base disk) (two : SameVolume base later)
    (c offset : Int) : clusterFound dev disk c offset = clusterFound dev later c offset :=
  (getClusterForOffset_agree dev c offset disk later (copies_alike mounted ⟨one,two⟩)).value

-- Walking i entries and then j entries against walking i+j entries. The call
-- that goes on may come in any later state of the volume.
structure WalksCompose (dev : BlockDevice) (disk : Disk) (bytesPerCluster : Int) (c : Int) (i j : Nat) : Prop where
  returns : bytesPerCluster ≠ 0 → ∃ r, clusterFound dev disk c (i*bytesPerCluster) = .ok r
  resumed : ∀ r later, clusterFound dev disk c (i*bytesPerCluster) = .ok r → 0 ≤ r → SameVolume disk later →
    clusterFound dev disk c ((i+j : Nat)*bytesPerCluster) = clusterFound dev later r (j*bytesPerCluster)
  failed : ∀ r, clusterFound dev disk c (i*bytesPerCluster) = .ok r → r < 0 →
    clusterFound dev disk c ((i+j : Nat)*bytesPerCluster) = .ok r

theorem cluster_walks_compose (dev : BlockDevice) (mounted : Mounted disk fprivate) (c : Nat) (arrive : EntriesArrive dev disk c)
    (i j : Nat) : WalksCompose dev disk fprivate.bytesPerCluster c i j := by
  by_cases size : fprivate.bytesPerCluster = 0
  · -- every call divides by zero
    have failed : ∀ r, clusterFound dev disk c (i*fprivate.bytesPerCluster) ≠ .ok r := by
      intro r found
      unfold clusterFound at found
      rw [clusterForOffset_walk dev mounted,if_pos size] at found
      cases found
    exact ⟨fun some => absurd size some,fun r later found => absurd found (failed r),fun r found => absurd found (failed r)⟩
  obtain ⟨r,after,first,same,whole⟩ := walkChain_add (.refl disk) arrive (Int.natCast_nonneg c) i j
  have found : clusterFound dev disk c (i*fprivate.bytesPerCluster) = .ok r := by
    rw [clusterFound_steps dev mounted size,first]
    rfl
  refine ⟨fun _ => ⟨r,found⟩,fun r' later again sign moved => ?_,fun r' again sign => ?_⟩
  · cases found.symm.trans again
    rw [clusterFound_steps dev mounted size,whole,if_neg (by omega),← clusterFound_steps dev (mounted.after same) size]
    exact clusterFound_same dev mounted same moved _ _
  · cases found.symm.trans again
    rw [clusterFound_steps dev mounted size,whole,if_pos sign]
    rfl

theorem two_links_compose : WalksCompose (imageDevice (secondEntry 3 0)) chainDisk 512 (2 : Nat) 1 1 :=
  cluster_walks_compose (imageDevice (secondEntry 3 0)) chain_mounted 2
    (entriesArrive_image (secondEntry 3 0) chain_mounted (by decide) (by decide)) 1 1

end NutsOS.Fat16
