import NutsOS.Lib.Agree
import NutsOS.Fat16.Driver

-- The streams that all open files share: every access seeks before it reads,
-- so what the reader returns does not depend on where a stream stands.
namespace NutsOS.Fat16
open Word32 DiskStreams Prog

-- Two states of one mounted volume, whose streams may stand anywhere.
structure Alike (fprivate : FatPrivate) (one two : Disk) : Prop where
  privateOne : one.fsPrivate = some fprivate
  privateTwo : two.fsPrivate = some fprivate
  sector : one.sectorSize = two.sectorSize
  streamsOne : ∀ ptr ∈ [fprivate.clusterReadStream,fprivate.fatReadStream], (one.streams ptr).isSome
  streamsTwo : ∀ ptr ∈ [fprivate.clusterReadStream,fprivate.fatReadStream], (two.streams ptr).isSome

-- After a seek the stream stands at one place in both.
structure Sought (fprivate : FatPrivate) (ptr : Nat) (one two : Disk) : Prop where
  alike : Alike fprivate one two
  stream : ∃ stream, one.streams ptr = some stream ∧ two.streams ptr = some stream

theorem withStream_live {disk : Disk} (live : (disk.streams a).isSome) (ptr : Nat) (stream : DiskStream) :
    ((disk.withStream ptr stream).streams a).isSome := by
  by_cases same : a = ptr <;> simp [Disk.withStream,same,live]

theorem Alike.withStream (alike : Alike fprivate one two) (ptr : Nat) (a b : DiskStream) :
    Alike fprivate (one.withStream ptr a) (two.withStream ptr b) :=
  ⟨alike.privateOne,alike.privateTwo,alike.sector,fun p member => withStream_live (alike.streamsOne p member) ptr a,
    fun p member => withStream_live (alike.streamsTwo p member) ptr b⟩

theorem loadPrivate_agree {f : FatPrivate → DiskProg α} {S : Disk → Disk → Prop}
    (rest : Agree (Alike fprivate) S (f fprivate) (f fprivate)) :
    Agree (Alike fprivate) S (loadPrivate >>= f) (loadPrivate >>= f) := by
  intro one two alike
  rw [bind_run (loadPrivate_known alike.privateOne),bind_run (loadPrivate_known alike.privateTwo)]
  exact rest one two alike

theorem seekStream_agree (member : ptr ∈ [fprivate.clusterReadStream,fprivate.fatReadStream]) (pos : Int) :
    Agree (Alike fprivate) (Sought fprivate ptr) (seekStream ptr pos) (seekStream ptr pos) := by
  intro one two alike
  obtain ⟨a,heldOne⟩ := Option.isSome_iff_exists.mp (alike.streamsOne ptr member)
  obtain ⟨b,heldTwo⟩ := Option.isSome_iff_exists.mp (alike.streamsTwo ptr member)
  unfold seekStream
  rw [bind_run (loadStream_run heldOne),bind_run (loadStream_run heldTwo)]
  exact .ok _ ⟨alike.withStream ptr _ _,⟨pos⟩,if_pos rfl,if_pos rfl⟩

theorem readStream_agree (dev : BlockDevice) (ptr : Nat) (total : Int) :
    Agree (Sought fprivate ptr) (Alike fprivate) (readStream dev ptr total) (readStream dev ptr total) := by
  intro one two sought
  obtain ⟨stream,heldOne,heldTwo⟩ := sought.stream
  unfold readStream
  rw [bind_run (loadStream_run heldOne),bind_run (loadStream_run heldTwo)]
  cases diskstreamRead dev stream total with
  | error e => exact .error e
  | ok result => exact .ok _ (sought.alike.withStream ptr _ _)

theorem sought_pure (a : α) : Agree (Sought fprivate ptr) (Alike fprivate) (pure a : DiskProg α) (pure a) :=
  agree_strengthen (agree_pure a) (fun _ _ sought => sought.alike)

theorem getFatEntry_agree (dev : BlockDevice) (cluster : Int) : Agree (Alike fprivate) (Alike fprivate)
    (fat16GetFatEntryForCluster dev cluster) (fat16GetFatEntryForCluster dev cluster) := by
  refine loadPrivate_agree (agree_ite (agree_pure _) ?_)
  refine agree_bind (seekStream_agree (by simp) _) (fun res => agree_ite (sought_pure res) ?_)
  exact agree_bind (readStream_agree dev _ 2) (fun result => agree_ite (agree_pure _) (agree_pure _))

theorem walkChain_agree (dev : BlockDevice) (count : Nat) (cluster : Int) : Agree (Alike fprivate) (Alike fprivate)
    (walkChain dev count cluster) (walkChain dev count cluster) := by
  induction count generalizing cluster with
  | zero => exact agree_pure cluster
  | succ count ih =>
    refine agree_bind (getFatEntry_agree dev cluster) (fun entry => ?_)
    exact agree_ite (agree_pure _) (agree_ite (agree_pure _) (agree_ite (agree_pure _) (agree_ite (agree_pure _) (ih entry))))

theorem getClusterForOffset_agree (dev : BlockDevice) (cluster offset : Int) : Agree (Alike fprivate) (Alike fprivate)
    (fat16GetClusterForOffset dev cluster offset) (fat16GetClusterForOffset dev cluster offset) :=
  loadPrivate_agree (agree_ite (agree_fault _) (walkChain_agree dev _ cluster))

theorem readInternalLevel_agree (dev : BlockDevice) (fuel : Nat) (cluster offset total : Int) :
    Agree (Alike fprivate) (Alike fprivate) (readInternalLevel dev fuel cluster offset total)
      (readInternalLevel dev fuel cluster offset total) := by
  induction fuel generalizing cluster offset total with
  | zero => exact agree_fault _
  | succ fuel ih =>
    refine loadPrivate_agree (agree_bind (getClusterForOffset_agree dev cluster offset) (fun target => ?_))
    refine agree_ite (agree_pure _) (agree_get (fun one two alike => ?_))
    -- the position comes from the sector size, which is the same
    rw [alike.sector]
    refine agree_bind (seekStream_agree (by simp) _) (fun res => agree_ite (sought_pure _) ?_) one two alike
    refine agree_bind (readStream_agree dev _ _) (fun result => agree_ite (agree_pure _) ?_)
    exact agree_ite (agree_bind (ih _ _ _) (fun rest => agree_pure _)) (agree_pure _)

theorem readInternal_agree (dev : BlockDevice) (cluster offset total : Int) : Agree (Alike fprivate) (Alike fprivate)
    (fat16ReadInternal dev cluster offset total) (fat16ReadInternal dev cluster offset total) :=
  readInternalLevel_agree dev _ cluster offset total

end NutsOS.Fat16
