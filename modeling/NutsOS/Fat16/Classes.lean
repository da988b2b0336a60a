import Mathlib.Logic.Function.Iterate
import NutsOS.Fat16.Reader

-- Which entries of the table the cluster walk follows, and where it stops.
namespace NutsOS.Fat16
open Word32 DiskStreams

def IsData (n : Nat) : Prop := 2 ≤ n ∧ n ≤ 0xFFEF

def Tested (n : Nat) : Prop :=
  n = 0 ∨ n = 0xFFF0 ∨ n = 0xFFF5 ∨ n = 0xFFF6 ∨ n = 0xFFF7 ∨ n = 0xFFF8 ∨ n = 0xFFFF

-- The values that name no data cluster and pass every test.
def Missed (n : Nat) : Prop := n = 1 ∨ (0xFFF1 ≤ n ∧ n ≤ 0xFFF4) ∨ (0xFFF9 ≤ n ∧ n ≤ 0xFFFE)

instance : DecidablePred IsData := fun _ => inferInstanceAs (Decidable (_ ∧ _))
instance : DecidablePred Tested := fun _ => inferInstanceAs (Decidable (_ ∨ _))
instance : DecidablePred Missed := fun _ => inferInstanceAs (Decidable (_ ∨ _))

theorem entry_classes (word : n ≤ 0xFFFF) : ¬ IsData n ↔ Tested n ∨ Missed n := by
  unfold IsData Tested Missed
  omega

theorem tested_not_missed (tested : Tested n) : ¬ Missed n := by
  unfold Tested at tested
  unfold Missed
  omega

theorem fatEntry_word (image : Nat → UInt8) (fprivate : FatPrivate) (c : Nat) : fatEntry image fprivate c ≤ 0xFFFF := by
  have low := (image (fprivate.fatTableAddress+2*c)).toNat_lt
  have high := (image (fprivate.fatTableAddress+2*c+1)).toNat_lt
  unfold fatEntry
  omega

def clusterAt (image : Nat → UInt8) (fprivate : FatPrivate) (c i : Nat) : Nat := (fatEntry image fprivate)^[i] c

theorem clusterAt_succ (image : Nat → UInt8) (fprivate : FatPrivate) (c i : Nat) :
    clusterAt image fprivate c (i+1) = fatEntry image fprivate (clusterAt image fprivate c i) := Function.iterate_succ_apply' _ _ _

theorem clusterAt_word (image : Nat → UInt8) (fprivate : FatPrivate) (start : c ≤ 0xFFFF) (i : Nat) :
    clusterAt image fprivate c i ≤ 0xFFFF := by
  cases i with
  | zero => exact start
  | succ i =>
    rw [clusterAt_succ]
    exact fatEntry_word _ _ _

def ReadLast (disk : Disk) (fprivate : FatPrivate) (c : Nat) : Prop :=
  disk.streams fprivate.fatReadStream = some ⟨((fprivate.fatTableAddress+2*c+2 : Nat) : Int)⟩

theorem ReadLast.unique (one : ReadLast disk fprivate c) (two : ReadLast disk fprivate d) : c = d := by
  have same := one.symm.trans two
  simp only [Option.some.injEq,DiskStream.mk.injEq] at same
  omega

theorem tested_iff (n : Nat) : Tested n ↔ WalkEnds n := by
  simp only [Tested,WalkEnds,nutsosFat16IsLastSector,nutsosFat16IsReservedSector,nutsosFat16BadSector,nutsosFat16FreeCluster,
    Bool.or_eq_true,beq_iff_eq]
  omega

theorem walkChain_entry (image : Nat → UInt8) (mounted : Mounted disk fprivate) (table : fprivate.fatTableAddress ≤ 65535*512)
    (word : c ≤ 0xFFFF) : ∃ after, SameVolume disk after ∧ ReadLast after fprivate c ∧
      ∀ count, walkChain (imageDevice image) (count+1) (c : Nat) disk =
        if Tested (fatEntry image fprivate c) then .ok (-eio,after)
        else walkChain (imageDevice image) count (fatEntry image fprivate c : Nat) after := by
  obtain ⟨after,read,same,moved⟩ := getFatEntry_run image mounted (by omega : fprivate.fatTableAddress+2*c+2 ≤ 2147483648)
  rw [toInt32_natCast (by omega)] at moved
  refine ⟨after,same,moved,fun count => ?_⟩
  rw [walkChain_read read]
  simp only [tested_iff]

theorem walkChain_data (image : Nat → UInt8) (mounted : Mounted disk fprivate) (table : fprivate.fatTableAddress ≤ 65535*512)
    (start : c ≤ 0xFFFF) (count : Nat) (data : ∀ i < count, IsData (clusterAt image fprivate c (i+1))) :
    ∃ after, SameVolume disk after ∧ ∀ rest, walkChain (imageDevice image) (count+rest) (c : Nat) disk =
      walkChain (imageDevice image) rest (clusterAt image fprivate c count : Nat) after := by
  induction count with
  | zero => exact ⟨disk,.refl disk,fun rest => by rw [Nat.zero_add]; rfl⟩
  | succ count ih =>
    obtain ⟨middle,same,walked⟩ := ih (fun i low => data i (by omega))
    obtain ⟨after,later,_,step⟩ := walkChain_entry image (mounted.after same) table (clusterAt_word image fprivate start count)
    refine ⟨after,same.trans later,fun rest => ?_⟩
    have next := data count (Nat.lt_succ_self count)
    have untested : ¬ Tested (fatEntry image fprivate (clusterAt image fprivate c count)) := by
      rw [← clusterAt_succ]
      exact fun tested => (entry_classes (clusterAt_word image fprivate start _)).mpr (.inl tested) next
    rw [show count+1+rest = count+(rest+1) by omega,walked,step,if_neg untested,clusterAt_succ]

theorem walkChain_stops (image : Nat → UInt8) (mounted : Mounted disk fprivate) (table : fprivate.fatTableAddress ≤ 65535*512)
    (start : c ≤ 0xFFFF) (count : Nat) : ∃ res after, walkChain (imageDevice image) count (c : Nat) disk = .ok (res,after) ∧
      (0 ≤ res ∨ ∃ e, Tested (fatEntry image fprivate e) ∧ ReadLast after fprivate e) := by
  induction count generalizing c disk with
  | zero => exact ⟨c,disk,rfl,.inl (Int.natCast_nonneg c)⟩
  | succ count ih =>
    obtain ⟨after,same,read,step⟩ := walkChain_entry image mounted table start
    rw [step]
    by_cases tested : Tested (fatEntry image fprivate c)
    · exact ⟨-eio,after,if_pos tested,.inr ⟨c,tested,read⟩⟩
    · rw [if_neg tested]
      exact ih (mounted.after same) (fatEntry_word _ _ _)

-- What a walk of `steps` entries from cluster c should come to: the cluster
-- they lead to, and -EIO right behind the first entry that is no data cluster.
structure FollowsData (image : Nat → UInt8) (fprivate : FatPrivate) (c steps : Nat) (res : Int) (after : Disk) : Prop where
  reached : (∀ i < steps, IsData (clusterAt image fprivate c (i+1))) →
    res = clusterAt image fprivate c steps ∧ 2 ≤ res ∧ res ≤ 0xFFEF
  refused : ∀ i < steps, (∀ j ≤ i, IsData (clusterAt image fprivate c j)) → ¬ IsData (clusterAt image fprivate c (i+1)) →
    res = -eio ∧ ReadLast after fprivate (clusterAt image fprivate c i)

-- The first entry on the way that names no data cluster is one the walk tests for.
def NoneMissed (image : Nat → UInt8) (fprivate : FatPrivate) (c steps : Nat) : Prop :=
  ∀ i < steps, (∀ j ≤ i, IsData (clusterAt image fprivate c j)) → ¬ Missed (clusterAt image fprivate c (i+1))

theorem walkChain_follows (image : Nat → UInt8) (mounted : Mounted disk fprivate) (table : fprivate.fatTableAddress ≤ 65535*512)
    (start : IsData c) (steps : Nat) : ∃ res after, walkChain (imageDevice image) steps (c : Nat) disk = .ok (res,after) ∧
      (FollowsData image fprivate c steps res after ↔ NoneMissed image fprivate c steps) := by
  have word : c ≤ 0xFFFF := by
    unfold IsData at start
    omega
  obtain ⟨res,after,ran,ends⟩ := walkChain_stops image mounted table word steps
  refine ⟨res,after,ran,?_⟩
  constructor
  · intro follows i low data missed
    have bad : ¬ IsData (clusterAt image fprivate c (i+1)) := (entry_classes (clusterAt_word image fprivate word _)).mpr (.inr missed)
    obtain ⟨error,last⟩ := follows.refused i low data bad
    rcases ends with positive | ⟨e,tested,read⟩
    · rw [error] at positive
      exact absurd positive (by decide)
    · rw [read.unique last,← clusterAt_succ] at tested
      exact tested_not_missed tested missed
  · intro clean
    refine ⟨fun data => ?_,fun i low data bad => ?_⟩
    · obtain ⟨end',_,walked⟩ := walkChain_data image mounted table word steps data
      have whole := walked 0
      rw [Nat.add_zero,ran] at whole
      cases whole
      have inRange : IsData (clusterAt image fprivate c steps) := by
        cases steps with
        | zero => exact start
        | succ steps => exact data steps (Nat.lt_succ_self steps)
      unfold IsData at inRange
      exact ⟨rfl,by omega,by omega⟩
    · have tested : Tested (fatEntry image fprivate (clusterAt image fprivate c i)) := by
        rw [← clusterAt_succ]
        exact ((entry_classes (clusterAt_word image fprivate word _)).mp bad).resolve_right (clean i low data)
      obtain ⟨middle,same,walked⟩ := walkChain_data image mounted table word i (fun j before => data (j+1) (by omega))
      obtain ⟨last,_,read,step⟩ := walkChain_entry image (mounted.after same) table (clusterAt_word image fprivate word i)
      obtain ⟨rest,left⟩ : ∃ rest, steps = i+(rest+1) := ⟨steps-i-1,by omega⟩
      rw [left,walked,step,if_pos tested] at ran
      cases ran
      exact ⟨rfl,read⟩

theorem clusterForOffset_walk (dev : BlockDevice) (mounted : Mounted disk fprivate) (c offset : Int) :
    fat16GetClusterForOffset dev c offset disk = if fprivate.bytesPerCluster = 0 then .error .divideByZero
      else walkChain dev (offset.tdiv fprivate.bytesPerCluster).toNat c disk := by
  unfold fat16GetClusterForOffset
  rw [Prog.bind_run (loadPrivate_run mounted)]
  split <;> rfl

theorem clusterForOffset_follows (image : Nat → UInt8) (mounted : Mounted disk fprivate) (table : fprivate.fatTableAddress ≤ 65535*512)
    (start : IsData c) (offset : Int) :
    (∃ res after, fat16GetClusterForOffset (imageDevice image) (c : Nat) offset disk = .ok (res,after) ∧
      FollowsData image fprivate c (offset.tdiv fprivate.bytesPerCluster).toNat res after) ↔
    fprivate.bytesPerCluster ≠ 0 ∧ NoneMissed image fprivate c (offset.tdiv fprivate.bytesPerCluster).toNat := by
  obtain ⟨res,after,ran,follows⟩ := walkChain_follows image mounted table start (offset.tdiv fprivate.bytesPerCluster).toNat
  rw [clusterForOffset_walk _ mounted]
  by_cases zero : fprivate.bytesPerCluster = 0
  · rw [if_pos zero]
    refine ⟨?_,fun some => absurd zero some.1⟩
    rintro ⟨_,_,failed,_⟩
    cases failed
  · rw [if_neg zero,ran]
    constructor
    · rintro ⟨_,_,same,holds⟩
      cases same
      exact ⟨zero,follows.mp holds⟩
    · exact fun clean => ⟨res,after,rfl,follows.mpr clean.2⟩

-- One sector to a cluster, and the table in the second sector of the disk.
def chainPrivate : FatPrivate := ⟨⟨1,1,1,16,1⟩,⟨0,0,2,3⟩,512,512,4096,8192,12288⟩

def chainDisk : Disk := ⟨512,some .fat16,some chainPrivate,fun _ => some ⟨0⟩⟩

theorem chain_mounted : Mounted chainDisk chainPrivate :=
  ⟨rfl,by decide,fun _ _ => rfl,by decide,by decide,by decide,by decide⟩

def secondEntry (low high : UInt8) (pos : Nat) : UInt8 := if pos = 516 then low else if pos = 517 then high else 0

theorem second_link_followed : ∃ res after, fat16GetClusterForOffset (imageDevice (secondEntry 3 0)) (2 : Nat) 512 chainDisk = .ok (res,after) ∧
    FollowsData (secondEntry 3 0) chainPrivate 2 1 res after := by
  refine (clusterForOffset_follows _ chain_mounted (by decide) (by decide) 512).mpr ⟨by decide,?_⟩
  intro i low _
  obtain rfl : i = 0 := Nat.lt_one_iff.mp low
  decide

theorem end_mark_followed : ∃ res after,
    fat16GetClusterForOffset (imageDevice (secondEntry 0xFE 0xFF)) (2 : Nat) 512 chainDisk = .ok (res,after) ∧
    res = 0xFFFE ∧ ¬ FollowsData (secondEntry 0xFE 0xFF) chainPrivate 2 1 res after := by
  have entry : fatEntry (secondEntry 0xFE 0xFF) chainPrivate 2 = 0xFFFE := by decide
  obtain ⟨after,_,_,step⟩ := walkChain_entry (secondEntry 0xFE 0xFF) chain_mounted (by decide) (by decide : 2 ≤ 0xFFFF)
  refine ⟨0xFFFE,after,?_,rfl,fun follows => ?_⟩
  · rw [clusterForOffset_walk _ chain_mounted,if_neg (by decide)]
    exact (step 0).trans (by rw [entry,if_neg (by decide)]; rfl)
  have refused := (follows.refused 0 (by decide) (fun j low => ?_) (by decide)).1
  · exact absurd refused (by decide)
  · obtain rfl : j = 0 := Nat.le_zero.mp low
    decide

end NutsOS.Fat16
