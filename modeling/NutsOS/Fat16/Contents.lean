import NutsOS.Fat16.Shared
import NutsOS.Fat16.Tree
import NutsOS.Fat16.Walk

-- The tables that the driver takes from the disk, whatever its streams did before.
namespace NutsOS.Fat16
open Word32 HeapAlloc Files DiskStreams Prog

def tableOf (dev : BlockDevice) (cluster : Nat) : DiskProg (Except Int (List FatDirectoryItem)) := do
  let fprivate ← loadPrivate
  let res ← fat16GetTotalItemsForDirectory dev (toUint32 (fat16ClusterToSector fprivate cluster))
  if res < 0 then return .error res
  let (read,bytes) ← fat16ReadInternal dev cluster 0 (toInt32 (res*32))
  if read < 0 then return .error read
  return .ok (directoryItems res.toNat bytes)

def volumeOf (dev : BlockDevice) (disk : Disk) : Volume := fun cluster => (tableOf dev cluster disk).map Prod.fst

def Copies (base one two : Disk) : Prop := SameVolume base one ∧ SameVolume base two

theorem agree_copies {x : DiskProg α} {S : Disk → Disk → Prop} (agree : Agree (Copies base) S x x) (reads : Reads x) :
    Agree (Copies base) (Copies base) x x := by
  intro one two copies
  have same := agree one two copies
  generalize left : x one = first at same
  generalize right : x two = second at same
  cases same with
  | ok a _ => exact .ok a ⟨copies.1.trans (reads _ _ _ left),copies.2.trans (reads _ _ _ right)⟩
  | error e => exact .error e

theorem copies_alike (mounted : Mounted base fprivate) (copies : Copies base one two) : Alike fprivate one two where
  privateOne := (mounted.after copies.1).private_eq
  privateTwo := (mounted.after copies.2).private_eq
  sector := copies.1.sectorSize.trans copies.2.sectorSize.symm
  streamsOne ptr member := (mounted.after copies.1).streams ptr (by simp at member ⊢; tauto)
  streamsTwo ptr member := (mounted.after copies.2).streams ptr (by simp at member ⊢; tauto)

def Standing (ptr : Nat) (one two : Disk) : Prop := ∃ stream, one.streams ptr = some stream ∧ two.streams ptr = some stream

theorem readStanding_agree (dev : BlockDevice) (ptr : Nat) (total : Int) :
    Agree (Standing ptr) (Standing ptr) (readStream dev ptr total) (readStream dev ptr total) := by
  intro one two ⟨stream,heldOne,heldTwo⟩
  unfold readStream
  rw [bind_run (loadStream_run heldOne),bind_run (loadStream_run heldTwo)]
  cases diskstreamRead dev stream total with
  | error e => exact .error e
  | ok result => exact .ok _ ⟨result.2.2,if_pos rfl,if_pos rfl⟩

theorem countItems_agree (dev : BlockDevice) (ptr fuel : Nat) (res : Int) :
    Agree (Standing ptr) (Standing ptr) (countItems dev ptr fuel res) (countItems dev ptr fuel res) := by
  induction fuel generalizing res with
  | zero => exact agree_fault _
  | succ fuel ih =>
    refine agree_bind (readStanding_agree dev ptr 32) (fun result => agree_ite (agree_pure _) ?_)
    exact agree_ite (ih res) (agree_ite (agree_pure _) (ih (res+1)))

theorem totalItems_agree (mounted : Mounted base fprivate) (dev : BlockDevice) (sector : Nat) :
    Agree (Copies base) (Copies base) (fat16GetTotalItemsForDirectory dev sector) (fat16GetTotalItemsForDirectory dev sector) := by
  refine agree_copies (S := Standing fprivate.directoryStream) ?_ (totalItems_reads dev sector)
  intro one two copies
  have alike := copies_alike mounted copies
  have first := mounted.after copies.1
  have second := mounted.after copies.2
  obtain ⟨a,heldOne⟩ := Option.isSome_iff_exists.mp (first.streams fprivate.directoryStream (by simp))
  obtain ⟨b,heldTwo⟩ := Option.isSome_iff_exists.mp (second.streams fprivate.directoryStream (by simp))
  unfold fat16GetTotalItemsForDirectory
  rw [bind_run (loadPrivate_run first),bind_run (loadPrivate_run second),get_bind,get_bind,alike.sector]
  have sought : Same (Standing fprivate.directoryStream) (seekStream fprivate.directoryStream (toInt32 (sector*two.sectorSize)) one)
      (seekStream fprivate.directoryStream (toInt32 (sector*two.sectorSize)) two) := by
    unfold seekStream
    rw [bind_run (loadStream_run heldOne),bind_run (loadStream_run heldTwo)]
    exact .ok _ ⟨_,if_pos rfl,if_pos rfl⟩
  exact sought.bind (fun res => agree_ite (agree_pure _) (countItems_agree dev _ _ _))

theorem tableOf_agree (mounted : Mounted base fprivate) (dev : BlockDevice) (cluster : Nat) :
    Agree (Copies base) (Copies base) (tableOf dev cluster) (tableOf dev cluster) := by
  have known : Agree (Copies base) (Copies base) loadPrivate loadPrivate := by
    intro one two copies
    rw [loadPrivate_run (mounted.after copies.1),loadPrivate_run (mounted.after copies.2)]
    exact .ok _ copies
  have read (offset total : Int) := agree_copies (agree_strengthen (readInternal_agree dev cluster offset total)
    (fun _ _ copies => copies_alike mounted copies)) (readInternal_reads dev _ _ _)
  refine agree_bind known (fun found => agree_bind (totalItems_agree mounted dev _) (fun res => ?_))
  refine agree_ite (agree_pure _) (agree_bind (read _ _) (fun result => ?_))
  exact agree_ite (agree_pure _) (agree_pure _)

theorem volumeOf_same (mounted : Mounted base fprivate) (same : SameVolume base disk) (dev : BlockDevice) :
    volumeOf dev disk = volumeOf dev base := by
  funext cluster
  exact (tableOf_agree mounted dev cluster disk base ⟨same,.refl base⟩).value

theorem freeDirectory_total {k : Kernel} (nonnull : ptr ≠ 0) (held : k.objs ptr = some (.fatDirectory directory)) :
    ∃ after, fat16FreeDirectory ptr k = .ok ((),after) := by
  unfold fat16FreeDirectory
  rw [if_neg nonnull,bind_run (loadAs_run asFatDirectory held rfl)]
  by_cases none : directory.item = 0
  · rw [when_false (by simp [none])]
    exact ⟨_,rfl⟩
  · rw [when_true none]
    exact ⟨_,rfl⟩

-- How loading a directory ends, by what the disk has for it.
inductive LoadOutcome (dev : BlockDevice) (entry : FatDirectoryItem) (k : Kernel) : Except Fault (Nat × Kernel) → Prop where
  | full : LoadOutcome dev entry k (.ok (errToPtr (-enomem),after))
  | fault (table : tableOf dev entry.low16BitsFirstCluster k.disk = .error f) : LoadOutcome dev entry k (.error f)
  | refused (table : tableOf dev entry.low16BitsFirstCluster k.disk = .ok (.error (-eio),disk)) :
      LoadOutcome dev entry k (.ok (errToPtr (-eio),after))
  | loaded (table : tableOf dev entry.low16BitsFirstCluster k.disk = .ok (.ok items,disk)) (nonnull : ptr ≠ 0)
      (held : after.objs ptr = some (.fatDirectory directory)) : LoadOutcome dev entry k (.ok (ptr,after))

theorem load_outcome {k : Kernel} (valid : HeapValid k) (mounted : Mounted k.disk fprivate) (dev : BlockDevice)
    (sub : FatDirectoryItem.isSubdirectory entry = true) : LoadOutcome dev entry k (fat16LoadFatDirectory dev entry k) := by
  have known := loadPrivate_run mounted
  unfold fat16LoadFatDirectory
  rw [if_neg (by simp [sub])]
  obtain ⟨directory,one,allocated⟩ := kzalloc_total 16 (by decide) (.fatDirectory ⟨0,0,0,0⟩) k
  obtain ⟨first,result⟩ := kzalloc_fresh valid (by decide) allocated
  rw [bind_run allocated]
  rcases result with ⟨none,_⟩ | ⟨nonnull,fresh,held⟩
  · rw [if_pos none]
    exact .full
  have diskOne := kzalloc_disk allocated
  have knownOne : onDisk loadPrivate one = .ok (fprivate,one) := onDisk_run (by rw [diskOne]; exact known)
  rw [if_neg nonnull,bind_run knownOne]
  dsimp only
  cases counted : fat16GetTotalItemsForDirectory dev (toUint32 (fat16ClusterToSector fprivate (entry.low16BitsFirstCluster : Nat))) k.disk with
  | error f =>
    have failed : onDisk (fat16GetTotalItemsForDirectory dev
      (toUint32 (fat16ClusterToSector fprivate (entry.low16BitsFirstCluster : Nat)))) one =
        .error f := onDisk_fault (by rw [diskOne]; exact counted)
    rw [bind_fault failed]
    refine .fault ?_
    unfold tableOf
    rw [bind_run known,bind_fault counted]
  | ok answer =>
    obtain ⟨res,diskTwo⟩ := answer
    let two : Kernel := {one with disk := diskTwo}
    have countedOne : onDisk (fat16GetTotalItemsForDirectory dev
      (toUint32 (fat16ClusterToSector fprivate (entry.low16BitsFirstCluster : Nat)))) one =
        .ok (res,two) := onDisk_run (by rw [diskOne]; exact counted)
    obtain ⟨second,_⟩ := onDisk_grown (totalItems_reads dev _) first.valid countedOne
    have count := totalItems_result dev _ _ _ _ counted
    rw [bind_run countedOne]
    by_cases negative : res < 0
    · obtain ⟨three,freed⟩ := freeDirectory_total (k := two) nonnull held
      have code : res = -eio := count.resolve_right (fun bound => by omega)
      have table : tableOf dev entry.low16BitsFirstCluster k.disk = .ok (.error (-eio),diskTwo) := by
        unfold tableOf
        rw [bind_run known,bind_run counted,if_pos negative,code]
        rfl
      rw [if_pos negative,bind_run freed,code]
      exact .refused table
    rw [if_neg negative]
    have bound := count.resolve_left (fun code => negative (by rw [code]; decide))
    have size : toUint32 (toInt32 (res*32)) ≤ 4294963200 := by
      unfold toUint32 toInt32
      split <;> omega
    obtain ⟨items,three,array⟩ := kzalloc_total _ size (.directoryItems (List.replicate res.toNat zeroDirectoryItem)) two
    let four := three.place directory (.fatDirectory ⟨items,res,0,0⟩)
    have stored : store directory (.fatDirectory ⟨items,res,0,0⟩) three = .ok ((),four) := rfl
    have heldFour : four.objs directory = some (.fatDirectory ⟨items,res,0,0⟩) := Kernel.place_same _ _ _
    have diskFour : four.disk = diskTwo := kzalloc_disk array
    rw [bind_run array,bind_run stored]
    by_cases null : items = 0
    · obtain ⟨five,freed⟩ := freeDirectory_total nonnull heldFour
      rw [if_pos null,bind_run freed]
      exact .full
    rw [if_neg null]
    cases reading : fat16ReadInternal dev (entry.low16BitsFirstCluster : Nat) 0 (toInt32 (res*32)) diskTwo with
    | error f =>
      have failed : onDisk (fat16ReadInternal dev (entry.low16BitsFirstCluster : Nat) 0 (toInt32 (res*32))) four = .error f :=
        onDisk_fault (by rw [diskFour]; exact reading)
      rw [bind_fault failed]
      refine .fault ?_
      unfold tableOf
      rw [bind_run known,bind_run counted,if_neg negative,bind_fault reading]
    | ok answer =>
      obtain ⟨⟨read,bytes⟩,diskFive⟩ := answer
      let five : Kernel := {four with disk := diskFive}
      have readFour : onDisk (fat16ReadInternal dev (entry.low16BitsFirstCluster : Nat) 0 (toInt32 (res*32))) four = .ok ((read,bytes),five) :=
        onDisk_run (by rw [diskFour]; exact reading)
      have heldFive : five.objs directory = some (.fatDirectory ⟨items,res,0,0⟩) := heldFour
      rw [bind_run readFour]
      dsimp only
      by_cases broken : read < 0
      · obtain ⟨six,freed⟩ := freeDirectory_total nonnull heldFive
        have code : read = -eio :=
          (readInternalLevel_result dev _ (.inl (Int.natCast_nonneg _)) _ _ _ _ _ reading).resolve_left (fun low => by dsimp only at low; omega)
        have table : tableOf dev entry.low16BitsFirstCluster k.disk = .ok (.error (-eio),diskFive) := by
          unfold tableOf
          rw [bind_run known,bind_run counted,if_neg negative,bind_run reading]
          dsimp only
          rw [if_pos broken,code]
          rfl
        rw [if_pos broken,bind_run freed,code]
        exact .refused table
      rw [if_neg broken]
      have table : tableOf dev entry.low16BitsFirstCluster k.disk = .ok (.ok (directoryItems res.toNat bytes),diskFive) := by
        unfold tableOf
        rw [bind_run known,bind_run counted,if_neg negative,bind_run reading]
        dsimp only
        rw [if_neg broken]
        rfl
      by_cases nothing : toInt32 (res*32) = 0
      · rw [when_false (by simp [nothing])]
        exact .loaded table nonnull heldFive
      rw [when_true nothing]
      have some : res ≠ 0 := fun zero => nothing (by rw [zero]; rfl)
      have sized : toUint32 (toInt32 (res*32)) = 0 → res = 0 := by
        unfold toUint32 toInt32
        split <;> omega
      have made := itemArray_made valid (first.trans second) fresh held sized array
      obtain ⟨list,arrayFour⟩ := (made.entries.resolve_left null).resolve_right (fun empty => some empty.1)
      have arrayHeld : five.objs items = Option.some (.directoryItems list) := arrayFour
      have different : directory ≠ items := by
        intro same
        rw [← same,heldFive] at arrayHeld
        cases arrayHeld
      let six := five.place items (.directoryItems (directoryItems list.length bytes))
      have filled : (do
          let old ← loadAs asDirectoryItems items
          store items (.directoryItems (directoryItems old.length bytes))) five = .ok ((),six) :=
        bind_run (loadAs_run asDirectoryItems arrayHeld rfl)
      rw [bind_run filled]
      exact .loaded table nonnull ((Kernel.place_other different).trans heldFive)

end NutsOS.Fat16
