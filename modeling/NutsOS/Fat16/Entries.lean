import Mathlib.Data.List.Range
import NutsOS.Fat16.Chain
import NutsOS.Fat16.Walk

-- Directory tables on the disk, as the counting loop and the array see them.
namespace NutsOS.Fat16
open Word32 Bytes DiskStreams Prog Files Stdutil

def entryOf (byte : Nat → UInt8) (i : Nat) : FatDirectoryItem := directoryItem (slice byte (32*i) 32)

def Deleted (byte : Nat → UInt8) (i : Nat) : Prop := byte (32*i) = nutsosFat16UnusedEntry

instance : Decidable (Deleted byte i) := inferInstanceAs (Decidable (_ = _))

-- The terminator stands at index t, behind t other entries.
structure EndsAt (byte : Nat → UInt8) (t : Nat) : Prop where
  before : ∀ i, i < t → byte (32*i) ≠ nutsosFat16NomoreEntry
  last : byte (32*t) = nutsosFat16NomoreEntry

def liveCount (byte : Nat → UInt8) : Nat → Nat → Nat
  | _,0 => 0
  | i,count+1 => (if Deleted byte i then 0 else 1)+liveCount byte (i+1) count

theorem liveCount_deleted (byte : Nat → UInt8) (deleted : Deleted byte i) (count : Nat) :
    liveCount byte i (count+1) = liveCount byte (i+1) count := by
  rw [liveCount,if_pos deleted,Nat.zero_add]

theorem liveCount_live (byte : Nat → UInt8) (live : ¬ Deleted byte i) (count : Nat) :
    liveCount byte i (count+1) = liveCount byte (i+1) count+1 := by
  rw [liveCount,if_neg live,Nat.add_comm]

theorem liveCount_le (byte : Nat → UInt8) (i count : Nat) : liveCount byte i count ≤ count := by
  induction count generalizing i with
  | zero => exact Nat.le_refl _
  | succ count ih =>
    have rest := ih (i+1)
    rw [liveCount]
    split <;> omega

theorem liveCount_append (byte : Nat → UInt8) (i m n : Nat) :
    liveCount byte i (m+n) = liveCount byte i m+liveCount byte (i+m) n := by
  induction m generalizing i with
  | zero => simp [liveCount]
  | succ m ih =>
    have rest := ih (i+1)
    rw [Nat.succ_add,liveCount,rest,liveCount,show i+1+m = i+(m+1) by omega]
    omega

theorem liveCount_all (live : ∀ j, i ≤ j → j < i+count → ¬ Deleted byte j) : liveCount byte i count = count := by
  induction count generalizing i with
  | zero => rfl
  | succ count ih =>
    rw [liveCount_live _ (live i (Nat.le_refl _) (by omega)),ih (fun j low high => live j (by omega) (by omega))]

theorem readEntry_run (image : Nat → UInt8) (stands : disk.streams ptr = some ⟨((pos : Nat) : Int)⟩)
    (fits : pos+32 ≤ 2147483648) :
    readStream (imageDevice image) ptr 32 disk =
      .ok ((0,slice image pos 32),disk.withStream ptr ⟨toInt32 ((pos+32 : Nat) : Int)⟩) := by
  have loaded : loadStream ptr disk = .ok (⟨pos⟩,disk) := loadStream_run stands
  have read := diskstreamRead_image image pos 32 fits (by omega)
  unfold readStream
  rw [bind_run loaded]
  have same : diskstreamRead (imageDevice image) ⟨pos⟩ 32 = _ := read
  rw [same]
  rfl

theorem countItems_run (fuel i count : Nat) (image : Nat → UInt8) (ends : EndsAt (fun j => image (pos+j)) t)
    (fits : pos+32*(t+1) ≤ 2147483648) (left : i+count = t) (enough : count < fuel) (res : Nat)
    (stands : disk.streams ptr = some ⟨((pos+32*i : Nat) : Int)⟩) :
    ∃ after, countItems (imageDevice image) ptr fuel res disk =
      .ok (((res+liveCount (fun j => image (pos+j)) i count : Nat) : Int),after) ∧ SameVolume disk after := by
  induction fuel generalizing i count res disk with
  | zero => cases enough
  | succ fuel ih =>
    have read := readEntry_run image stands (by omega)
    have first : charOf (slice image (pos+32*i) 32) = image (pos+32*i) := rfl
    have same := withStream_same disk ptr ⟨toInt32 ((pos+32*i+32 : Nat) : Int)⟩
    rw [countItems,bind_run read]
    dsimp only
    rw [if_neg (by decide),first]
    cases count with
    | zero =>
      obtain rfl : i = t := left
      rw [if_neg (by rw [show image (pos+32*i) = _ from ends.last]; decide),if_pos ends.last]
      exact ⟨_,rfl,same⟩
    | succ count =>
      have next : (disk.withStream ptr ⟨toInt32 ((pos+32*i+32 : Nat) : Int)⟩).streams ptr =
          some ⟨((pos+32*(i+1) : Nat) : Int)⟩ := by
        rw [withStream_at,toInt32_natCast (by omega),show pos+32*i+32 = pos+32*(i+1) by omega]
      by_cases deleted : image (pos+32*i) = nutsosFat16UnusedEntry
      · rw [if_pos deleted]
        obtain ⟨after,counted,later⟩ := ih (i+1) count (by omega) (by omega) res next
        refine ⟨after,?_,same.trans later⟩
        rw [counted,liveCount_deleted (fun j => image (pos+j)) deleted]
      · rw [if_neg deleted,if_neg (ends.before i (by omega))]
        obtain ⟨after,counted,later⟩ := ih (i+1) count (by omega) (by omega) (res+1) next
        refine ⟨after,?_,same.trans later⟩
        rw [← Int.natCast_succ,counted,liveCount_live (fun j => image (pos+j)) deleted,Nat.add_right_comm,Nat.add_assoc]

theorem totalItems_run (image : Nat → UInt8) (mounted : Mounted disk fprivate)
    (start : toInt32 ((sector : Nat)*disk.sectorSize) = ((pos : Nat) : Int))
    (ends : EndsAt (fun j => image (pos+j)) t) (fits : pos+32*(t+1) ≤ 2147483648) :
    ∃ after, fat16GetTotalItemsForDirectory (imageDevice image) sector disk =
      .ok ((liveCount (fun j => image (pos+j)) 0 t : Nat),after) ∧ SameVolume disk after := by
  have live := mounted.streams fprivate.directoryStream (by simp)
  have same := withStream_same disk fprivate.directoryStream ⟨((pos : Nat) : Int)⟩
  obtain ⟨after,counted,later⟩ := countItems_run 67108872 0 t image ends fits (Nat.zero_add t) (by omega) 0
    (withStream_at disk fprivate.directoryStream ⟨((pos : Nat) : Int)⟩)
  refine ⟨after,?_,same.trans later⟩
  unfold fat16GetTotalItemsForDirectory
  rw [bind_run (loadPrivate_run mounted),get_bind,start,bind_run (seekStream_run live _),if_neg (by decide)]
  rw [Nat.zero_add] at counted
  exact counted

theorem directoryItems_get (count : Nat) (byte : Nat → UInt8) (base size i : Nat) (inside : i < count) (fits : 32*count ≤ size) :
    (directoryItems count (slice byte base size))[i]? = some (directoryItem (slice byte (base+32*i) 32)) := by
  induction count generalizing base size i with
  | zero => cases inside
  | succ count ih =>
    rw [directoryItems]
    cases i with
    | zero =>
      have first := drop_take_slice byte base 0 32 size (by omega)
      rw [List.drop_zero,Nat.add_zero] at first
      rw [first]
      rfl
    | succ i =>
      obtain ⟨rest,rfl⟩ := Nat.exists_eq_add_of_le (show 32 ≤ size by omega)
      have dropped : (slice byte base (32+rest)).drop 32 = slice byte (base+32) rest := by
        rw [← slice_append,List.drop_left' (by simp)]
      rw [dropped,List.getElem?_cons_succ,ih (base+32) rest i (by omega) (by omega),
        show base+32+32*i = base+32*(i+1) by omega]

end NutsOS.Fat16
