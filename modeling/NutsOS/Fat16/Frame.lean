import NutsOS.Lib.Frame
import NutsOS.Fat16.Directory
import NutsOS.Fat16.Reader

-- Reading a disk moves stream positions and nothing else, whatever is on it.
namespace NutsOS.Fat16
open Word32 DiskStreams Prog

abbrev Reads (x : DiskProg α) : Prop := Within SameVolume x

theorem reads_pure (a : α) : Reads (pure a) := within_pure SameVolume.refl a

theorem reads_bind {x : DiskProg α} {f : α → DiskProg β} (first : Reads x) (rest : ∀ a, Reads (f a)) : Reads (x >>= f) :=
  within_bind (R := SameVolume) (fun one two => one.trans two) first rest

theorem reads_get : Reads (Prog.get : DiskProg Disk) := within_get SameVolume.refl

theorem reads_withStream (ptr : Nat) (stream : DiskStream) :
    Reads (Prog.modify (fun disk => disk.withStream ptr stream)) :=
  within_modify (fun disk => withStream_same disk ptr stream)

theorem loadPrivate_reads : Reads loadPrivate := by
  apply reads_bind reads_get
  intro disk
  cases disk.fsPrivate with
  | none => exact within_fault _
  | some fprivate => exact reads_pure _

theorem loadStream_reads (ptr : Nat) : Reads (loadStream ptr) := by
  apply reads_bind reads_get
  intro disk
  cases disk.streams ptr with
  | none => exact within_fault _
  | some stream => exact reads_pure _

theorem seekStream_reads (ptr : Nat) (pos : Int) : Reads (seekStream ptr pos) := by
  apply reads_bind (loadStream_reads ptr)
  intro stream
  exact reads_bind (reads_withStream ptr _) (fun _ => reads_pure _)

theorem readStream_reads (dev : BlockDevice) (ptr : Nat) (total : Int) : Reads (readStream dev ptr total) := by
  apply reads_bind (loadStream_reads ptr)
  intro stream
  cases diskstreamRead dev stream total with
  | error e => exact within_fault _
  | ok result => exact reads_bind (reads_withStream ptr _) (fun _ => reads_pure _)

theorem getFatEntry_reads (dev : BlockDevice) (cluster : Int) : Reads (fat16GetFatEntryForCluster dev cluster) := by
  apply reads_bind loadPrivate_reads
  intro fprivate
  refine within_ite (reads_pure _) (reads_bind (seekStream_reads _ _) (fun res => ?_))
  refine within_ite (reads_pure _) (reads_bind (readStream_reads _ _ _) (fun result => ?_))
  exact within_ite (reads_pure _) (reads_pure _)

theorem walkChain_reads (dev : BlockDevice) (count : Nat) (cluster : Int) : Reads (walkChain dev count cluster) := by
  induction count generalizing cluster with
  | zero => exact reads_pure _
  | succ count ih =>
    apply reads_bind (getFatEntry_reads dev cluster)
    intro entry
    refine within_ite (reads_pure _) (within_ite (reads_pure _) (within_ite (reads_pure _) ?_))
    exact within_ite (reads_pure _) (ih entry)

theorem clusterForOffset_reads (dev : BlockDevice) (cluster offset : Int) :
    Reads (fat16GetClusterForOffset dev cluster offset) := by
  apply reads_bind loadPrivate_reads
  intro fprivate
  exact within_ite (within_fault _) (walkChain_reads dev _ cluster)

theorem readInternalLevel_reads (dev : BlockDevice) (fuel : Nat) (cluster offset total : Int) :
    Reads (readInternalLevel dev fuel cluster offset total) := by
  induction fuel generalizing cluster offset total with
  | zero => exact within_fault _
  | succ fuel ih =>
    apply reads_bind loadPrivate_reads
    intro fprivate
    refine reads_bind (clusterForOffset_reads dev cluster offset) (fun target => ?_)
    refine within_ite (reads_pure _) (reads_bind reads_get (fun disk => ?_))
    refine reads_bind (seekStream_reads _ _) (fun res => within_ite (reads_pure _) ?_)
    refine reads_bind (readStream_reads _ _ _) (fun result => within_ite (reads_pure _) ?_)
    exact within_ite (reads_bind (ih _ _ _) (fun _ => reads_pure _)) (reads_pure _)

theorem readInternal_reads (dev : BlockDevice) (cluster offset total : Int) :
    Reads (fat16ReadInternal dev cluster offset total) := readInternalLevel_reads dev _ cluster offset total

theorem countItems_reads (dev : BlockDevice) (stream fuel : Nat) (res : Int) : Reads (countItems dev stream fuel res) := by
  induction fuel generalizing res with
  | zero => exact within_fault _
  | succ fuel ih =>
    refine reads_bind (readStream_reads _ _ _) (fun result => within_ite (reads_pure _) ?_)
    exact within_ite (ih res) (within_ite (reads_pure _) (ih (res+1)))

theorem totalItems_reads (dev : BlockDevice) (sector : Nat) : Reads (fat16GetTotalItemsForDirectory dev sector) := by
  apply reads_bind loadPrivate_reads
  intro fprivate
  refine reads_bind reads_get (fun disk => reads_bind (seekStream_reads _ _) (fun res => ?_))
  exact within_ite (reads_pure _) (countItems_reads dev _ _ _)

theorem readLoop_result (dev : BlockDevice) (fuel : Nat) (pos left : Int)
    (ran : diskstreamReadLoop dev fuel pos left = .ok (res,bytes,stream)) : res = eok := by
  induction fuel generalizing pos left res bytes stream with
  | zero => cases ran
  | succ fuel ih =>
    rw [diskstreamReadLoop] at ran
    dsimp only at ran
    generalize (if left > nutsosSectorSize-pos.tmod nutsosSectorSize then nutsosSectorSize-pos.tmod nutsosSectorSize
      else left) = now at ran
    unfold diskReadBlock at ran
    cases found : dev (toUint32 (pos.tdiv nutsosSectorSize)) with
    | none =>
      rw [found] at ran
      cases ran
    | some sector =>
      rw [found] at ran
      dsimp only at ran
      rw [if_neg (by decide)] at ran
      split at ran
      · cases ran
      · split at ran
        · split at ran
          · cases ran
          · next more => cases ran; exact ih _ _ more
        · cases ran
          rfl

theorem readStream_result (dev : BlockDevice) (ptr : Nat) (total : Int) :
    Returns (fun result => result.1 = eok) (readStream dev ptr total) := by
  apply returns_any
  intro stream
  cases ran : diskstreamRead dev stream total with
  | error e => exact returns_fault _
  | ok result => exact returns_any (fun _ => returns_pure (readLoop_result dev _ _ _ ran))

-- The only error of the accesses, which the chain's end marks bring about.
def OkOrEio (res : Int) : Prop := 0 ≤ res ∨ res = -eio

theorem okOrEio_eok (ok : res = eok) : OkOrEio res := .inl (Int.le_of_eq ok.symm)

theorem getFatEntry_result (dev : BlockDevice) (cluster : Int) :
    Returns OkOrEio (fat16GetFatEntryForCluster dev cluster) := by
  have seek : ∀ ptr pos, Returns OkOrEio (seekStream ptr pos) := fun _ _ =>
    returns_any (fun _ => returns_any (fun _ => returns_pure (.inl (Int.le_refl 0))))
  refine returns_any (fun fprivate => returns_ite (fun _ => returns_pure (.inr rfl)) (fun _ => ?_))
  refine returns_bind (seek _ _) (fun res ok => returns_ite (fun _ => returns_pure ok) (fun _ => ?_))
  refine returns_bind (readStream_result _ _ _) (fun result ok => returns_ite (fun _ => returns_pure (okOrEio_eok ok)) (fun _ => ?_))
  refine returns_pure (.inl ?_)
  unfold word16
  omega

theorem walkChain_result (dev : BlockDevice) (count : Nat) {cluster : Int} (start : OkOrEio cluster) :
    Returns OkOrEio (walkChain dev count cluster) := by
  induction count generalizing cluster with
  | zero => exact returns_pure start
  | succ count ih =>
    have failed : Returns OkOrEio (pure (-eio) : DiskProg Int) := returns_pure (.inr rfl)
    refine returns_bind (getFatEntry_result dev cluster) (fun entry ok => ?_)
    exact returns_ite (fun _ => failed) (fun _ => returns_ite (fun _ => failed) (fun _ =>
      returns_ite (fun _ => failed) (fun _ => returns_ite (fun _ => failed) (fun _ => ih ok))))

theorem readInternalLevel_result (dev : BlockDevice) (fuel : Nat) {cluster : Int} (start : OkOrEio cluster)
    (offset total : Int) : Returns (fun result => OkOrEio result.1) (readInternalLevel dev fuel cluster offset total) := by
  induction fuel generalizing cluster offset total with
  | zero => exact returns_fault _
  | succ fuel ih =>
    refine returns_any (fun fprivate => ?_)
    have walked : Returns OkOrEio (fat16GetClusterForOffset dev cluster offset) :=
      returns_any (fun fprivate => returns_ite (fun _ => returns_fault _) (fun _ => walkChain_result dev _ start))
    have sought : ∀ ptr pos, Returns OkOrEio (seekStream ptr pos) := fun _ _ =>
      returns_any (fun _ => returns_any (fun _ => returns_pure (.inl (Int.le_refl 0))))
    refine returns_bind walked (fun target ok => returns_ite (fun _ => returns_pure ok) (fun _ => ?_))
    refine returns_any (fun disk => ?_)
    refine returns_bind (sought _ _) (fun res ok => returns_ite (fun _ => returns_pure ok) (fun _ => ?_))
    refine returns_bind (readStream_result _ _ _) (fun result ok => returns_ite (fun _ => returns_pure (okOrEio_eok ok)) (fun _ => ?_))
    refine returns_ite (fun _ => ?_) (fun _ => returns_pure (okOrEio_eok ok))
    exact returns_bind (ih (by assumption) _ _) (fun rest ok => returns_pure ok)

def ItemCount (total : Int) : Prop := total = -eio ∨ (0 ≤ total ∧ total ≤ 67108872)

theorem countItems_result (dev : BlockDevice) (stream fuel : Nat) {res : Int} (start : 0 ≤ res)
    (bound : res+fuel ≤ 67108872) : Returns ItemCount (countItems dev stream fuel res) := by
  induction fuel generalizing res with
  | zero => exact returns_fault _
  | succ fuel ih =>
    refine returns_any (fun result => returns_ite (fun _ => returns_pure (.inl rfl)) (fun _ => ?_))
    refine returns_ite (fun _ => ih start (by omega)) (fun _ => returns_ite (fun _ => ?_) (fun _ => ?_))
    · exact returns_pure (.inr ⟨start,by omega⟩)
    · exact ih (by omega) (by omega)

theorem totalItems_result (dev : BlockDevice) (sector : Nat) :
    Returns ItemCount (fat16GetTotalItemsForDirectory dev sector) := by
  refine returns_any (fun fprivate => returns_any (fun disk => returns_any (fun res => ?_)))
  exact returns_ite (fun _ => returns_pure (.inl rfl)) (fun _ =>
    countItems_result dev _ _ (Int.le_refl 0) (by decide))

end NutsOS.Fat16
