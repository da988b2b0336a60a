import NutsOS.Fat16.Driver
import NutsOS.Lib.Triple

-- On a volume with a cluster size, opening and reading divide by no zero.
namespace NutsOS.Fat16
open DiskStreams Prog Files

def NoDivision (fault : Fault) : Prop := fault ≠ .divideByZero

theorem deref_noDivision (ptr : Nat) : NoDivision (Fault.deref ptr) := by
  unfold NoDivision Fault.deref
  split <;> exact Fault.noConfusion

def MountedAs (fprivate : FatPrivate) (disk : Disk) : Prop := disk.fsPrivate = some fprivate

variable {fprivate : FatPrivate}

theorem copySector_noDivision (buf : Nat → UInt8) (count : Nat) (offset : Int) (failed : copySector buf count offset = .error e) :
    NoDivision e := by
  induction count generalizing offset with
  | zero => cases failed
  | succ count ih =>
    rw [copySector] at failed
    split at failed
    · cases failed
      exact Fault.noConfusion
    · split at failed
      case h_1 _ inner =>
        cases failed
        exact ih _ inner
      · cases failed

theorem readLoop_noDivision (dev : BlockDevice) (fuel : Nat) (pos left : Int)
    (failed : diskstreamReadLoop dev fuel pos left = .error e) : NoDivision e := by
  induction fuel generalizing pos left with
  | zero =>
    cases failed
    exact Fault.noConfusion
  | succ fuel ih =>
    rw [diskstreamReadLoop] at failed
    dsimp only at failed
    generalize (if left > nutsosSectorSize-pos.tmod nutsosSectorSize then nutsosSectorSize-pos.tmod nutsosSectorSize
      else left) = now at failed
    unfold diskReadBlock at failed
    cases found : dev (Word32.toUint32 (pos.tdiv nutsosSectorSize)) with
    | none =>
      rw [found] at failed
      cases failed
      exact Fault.noConfusion
    | some sector =>
      rw [found] at failed
      dsimp only at failed
      rw [if_neg (by decide)] at failed
      split at failed
      case h_1 _ inner =>
        cases failed
        exact copySector_noDivision _ _ _ inner
      · split at failed
        · split at failed
          case h_1 _ inner =>
            cases failed
            exact ih _ _ inner
          · cases failed
        · cases failed

abbrev Divides (fprivate : FatPrivate) (x : DiskProg α) (Q : α → Prop) : Prop := Stays NoDivision (MountedAs fprivate) x Q

theorem divides_pure (a : α) : Divides fprivate (pure a) (fun _ => True) := stays_pure trivial

theorem loadPrivate_divides : Divides fprivate loadPrivate (· = fprivate) := by
  intro disk mounted
  rw [loadPrivate_known mounted]
  exact .ok ⟨mounted,rfl⟩

theorem loadStream_divides (ptr : Nat) : Divides fprivate (loadStream ptr) (fun _ => True) := by
  refine stays_bind stays_get (fun disk _ => ?_)
  split
  · exact stays_fault (deref_noDivision ptr) _
  · exact stays_pure trivial

theorem seekStream_divides (ptr : Nat) (pos : Int) : Divides fprivate (seekStream ptr pos) (fun _ => True) := by
  refine stays_bind (loadStream_divides ptr) (fun _ _ => ?_)
  exact stays_bind (stays_modify (fun _ mounted => mounted)) (fun _ _ => divides_pure _)

theorem readStream_divides (dev : BlockDevice) (ptr : Nat) (total : Int) : Divides fprivate (readStream dev ptr total) (fun _ => True) := by
  refine stays_bind (loadStream_divides ptr) (fun stream _ => ?_)
  split
  case h_1 e failed => exact stays_fault (readLoop_noDivision dev _ _ _ failed) _
  · exact stays_bind (stays_modify (fun _ mounted => mounted)) (fun _ _ => divides_pure _)

theorem getFatEntry_divides (dev : BlockDevice) (cluster : Int) : Divides fprivate (fat16GetFatEntryForCluster dev cluster) (fun _ => True) := by
  refine stays_bind loadPrivate_divides (fun _ _ => stays_ite (fun _ => divides_pure _) (fun _ => ?_))
  refine stays_bind (seekStream_divides _ _) (fun _ _ => stays_ite (fun _ => divides_pure _) (fun _ => ?_))
  exact stays_bind (readStream_divides dev _ _) (fun _ _ => stays_ite (fun _ => divides_pure _) (fun _ => divides_pure _))

theorem walkChain_divides (dev : BlockDevice) (count : Nat) (cluster : Int) :
    Divides fprivate (walkChain dev count cluster) (fun _ => True) := by
  induction count generalizing cluster with
  | zero => exact divides_pure _
  | succ count ih =>
    refine stays_bind (getFatEntry_divides dev cluster) (fun entry _ => ?_)
    refine stays_ite (fun _ => divides_pure _) (fun _ => stays_ite (fun _ => divides_pure _) (fun _ => ?_))
    exact stays_ite (fun _ => divides_pure _) (fun _ => stays_ite (fun _ => divides_pure _) (fun _ => ih entry))

theorem clusterForOffset_divides (sized : fprivate.bytesPerCluster ≠ 0) (dev : BlockDevice) (cluster offset : Int) :
    Divides fprivate (fat16GetClusterForOffset dev cluster offset) (fun _ => True) := by
  refine stays_bind loadPrivate_divides (fun found same => ?_)
  subst same
  exact stays_ite (fun zero => absurd zero sized) (fun _ => walkChain_divides dev _ _)

theorem readInternalLevel_divides (sized : fprivate.bytesPerCluster ≠ 0) (dev : BlockDevice) (fuel : Nat) (cluster offset total : Int) :
    Divides fprivate (readInternalLevel dev fuel cluster offset total) (fun _ => True) := by
  induction fuel generalizing cluster offset total with
  | zero => exact stays_fault (e := Fault.unbounded) Fault.noConfusion _
  | succ fuel ih =>
    refine stays_bind loadPrivate_divides (fun _ _ => stays_bind (clusterForOffset_divides sized dev _ _) (fun _ _ => ?_))
    refine stays_ite (fun _ => divides_pure _) (fun _ => stays_bind stays_get (fun _ _ => ?_))
    refine stays_bind (seekStream_divides _ _) (fun _ _ => stays_ite (fun _ => divides_pure _) (fun _ => ?_))
    refine stays_bind (readStream_divides dev _ _) (fun _ _ => stays_ite (fun _ => divides_pure _) (fun _ => ?_))
    exact stays_ite (fun _ => stays_bind (ih _ _ _) (fun _ _ => divides_pure _)) (fun _ => divides_pure _)

theorem countItems_divides (dev : BlockDevice) (stream fuel : Nat) (res : Int) :
    Divides fprivate (countItems dev stream fuel res) (fun _ => True) := by
  induction fuel generalizing res with
  | zero => exact stays_fault (e := Fault.unbounded) Fault.noConfusion _
  | succ fuel ih =>
    refine stays_bind (readStream_divides dev _ _) (fun _ _ => stays_ite (fun _ => divides_pure _) (fun _ => ?_))
    exact stays_ite (fun _ => ih res) (fun _ => stays_ite (fun _ => divides_pure _) (fun _ => ih (res+1)))

theorem totalItems_divides (dev : BlockDevice) (sector : Nat) :
    Divides fprivate (fat16GetTotalItemsForDirectory dev sector) (fun _ => True) := by
  refine stays_bind loadPrivate_divides (fun _ _ => stays_bind stays_get (fun _ _ => ?_))
  refine stays_bind (seekStream_divides _ _) (fun _ _ => stays_ite (fun _ => divides_pure _) (fun _ => ?_))
  exact countItems_divides dev _ _ _

abbrev KernelDivides (fprivate : FatPrivate) (x : KernelProg α) : Prop :=
  Stays NoDivision (fun k : Kernel => MountedAs fprivate k.disk) x (fun _ => True)

theorem kernel_pure (a : α) : KernelDivides fprivate (pure a) := stays_pure trivial

theorem onDisk_divides {x : DiskProg α} {Q : α → Prop} (divides : Divides fprivate x Q) :
    Stays NoDivision (fun k : Kernel => MountedAs fprivate k.disk) (onDisk x) Q := stays_focus (fun _ _ => rfl) divides

theorem loadAs_divides (view : Obj → Option α) (ptr : Nat) : KernelDivides fprivate (loadAs view ptr) := by
  refine stays_bind stays_get (fun k _ => ?_)
  split
  · exact stays_fault (deref_noDivision ptr) _
  · exact kernel_pure _

theorem store_divides (ptr : Nat) (obj : Obj) : KernelDivides fprivate (store ptr obj) := stays_modify (fun _ mounted => mounted)

theorem kfree_divides (ptr : Nat) : KernelDivides fprivate (kfree ptr) :=
  stays_bind stays_get (fun _ _ => stays_modify (fun _ mounted => mounted))

theorem kzalloc_divides (size : Nat) (zero : Obj) : KernelDivides fprivate (kzalloc size zero) := by
  have kmalloc : KernelDivides fprivate (kmalloc size) :=
    stays_bind stays_get (fun _ _ => stays_bind (stays_modify (fun _ mounted => mounted)) (fun _ _ => kernel_pure _))
  refine stays_bind kmalloc (fun _ _ => stays_ite (fun _ => kernel_pure _) (fun _ => ?_))
  refine stays_ite (fun _ => stays_fault (e := Fault.outOfBounds size) Fault.noConfusion _)
    (fun _ => stays_ite (fun _ => kernel_pure _) (fun _ => ?_))
  exact stays_bind (store_divides _ _) (fun _ _ => kernel_pure _)

theorem freeDirectory_divides (directory : Nat) : KernelDivides fprivate (fat16FreeDirectory directory) := by
  refine stays_ite (fun _ => kernel_pure _) (fun _ => stays_bind (loadAs_divides _ _) (fun _ _ => ?_))
  exact stays_bind (stays_when (fun _ => kfree_divides _)) (fun _ _ => kfree_divides _)

theorem itemFree_divides (item : Nat) : KernelDivides fprivate (fat16FatItemFree item) := by
  refine stays_ite (fun _ => kernel_pure _) (fun _ => stays_bind (loadAs_divides _ _) (fun found _ => ?_))
  cases found.type with
  | directory => exact stays_bind (freeDirectory_divides _) (fun _ _ => kfree_divides _)
  | file => exact stays_bind (kfree_divides _) (fun _ _ => kfree_divides _)

theorem loadFatDirectory_divides (sized : fprivate.bytesPerCluster ≠ 0) (dev : BlockDevice) (item : FatDirectoryItem) :
    KernelDivides fprivate (fat16LoadFatDirectory dev item) := by
  refine stays_ite (fun _ => kernel_pure _) (fun _ => stays_bind (kzalloc_divides _ _) (fun directory _ => ?_))
  refine stays_ite (fun _ => kernel_pure _) (fun _ => stays_bind (onDisk_divides loadPrivate_divides) (fun _ _ => ?_))
  have failed (res : Int) : KernelDivides fprivate (do fat16FreeDirectory directory; return errToPtr res) :=
    stays_bind (freeDirectory_divides directory) (fun _ _ => kernel_pure _)
  refine stays_bind (onDisk_divides (totalItems_divides dev _)) (fun _ _ => stays_ite (fun _ => failed _) (fun _ => ?_))
  refine stays_bind (kzalloc_divides _ _) (fun items _ => stays_bind (store_divides _ _) (fun _ _ => ?_))
  refine stays_ite (fun _ => failed _) (fun _ => stays_bind (onDisk_divides (readInternalLevel_divides sized dev _ _ _ _)) (fun _ _ => ?_))
  refine stays_ite (fun _ => failed _) (fun _ => stays_bind (stays_when (fun _ => ?_)) (fun _ _ => kernel_pure _))
  exact stays_bind (loadAs_divides _ _) (fun _ _ => store_divides _ _)

theorem newFatItem_divides (sized : fprivate.bytesPerCluster ≠ 0) (dev : BlockDevice) (item : FatDirectoryItem) :
    KernelDivides fprivate (fat16NewFatItemForDirectoryItem dev item) := by
  have copy : KernelDivides fprivate (fat16CopyDirectoryItem item) :=
    stays_bind (kzalloc_divides _ _) (fun _ _ => stays_ite (fun _ => kernel_pure _) (fun _ =>
      stays_bind (store_divides _ _) (fun _ _ => kernel_pure _)))
  refine stays_bind (kzalloc_divides _ _) (fun _ _ => stays_ite (fun _ => kernel_pure _) (fun _ => stays_ite (fun _ => ?_) (fun _ => ?_)))
  · exact stays_bind (loadFatDirectory_divides sized dev item) (fun _ _ => stays_bind (store_divides _ _) (fun _ _ => kernel_pure _))
  · exact stays_bind copy (fun _ _ => stays_bind (store_divides _ _) (fun _ _ => kernel_pure _))

theorem findItem_divides (sized : fprivate.bytesPerCluster ≠ 0) (dev : BlockDevice) (directory : FatDirectory) (name : List UInt8)
    (count i : Nat) :
    KernelDivides fprivate (findItem dev directory name count i) := by
  induction count generalizing i with
  | zero => exact kernel_pure _
  | succ count ih =>
    refine stays_bind (loadAs_divides _ _) (fun items _ => ?_)
    cases items[i]? with
    | none => exact stays_fault (e := Fault.outOfBounds i) Fault.noConfusion _
    | some item => exact stays_ite (fun _ => newFatItem_divides sized dev item) (fun _ => ih (i+1))

theorem loadPart_divides (path : Nat) : KernelDivides fprivate (loadPart path) :=
  stays_bind (loadAs_divides _ _) (fun _ _ => stays_bind (loadAs_divides _ _) (fun _ _ => kernel_pure _))

theorem walkParts_divides (sized : fprivate.bytesPerCluster ≠ 0) (dev : BlockDevice) (fuel item part : Nat) :
    KernelDivides fprivate (walkParts dev fuel item part) := by
  induction fuel generalizing item part with
  | zero => exact stays_fault (e := Fault.unbounded) Fault.noConfusion _
  | succ fuel ih =>
    refine stays_ite (fun _ => kernel_pure _) (fun _ => stays_bind (loadAs_divides _ _) (fun _ _ => ?_))
    refine stays_ite (fun _ => stays_bind (itemFree_divides _) (fun _ _ => kernel_pure _)) (fun _ => ?_)
    refine stays_bind (loadPart_divides _) (fun _ _ => stays_bind (loadAs_divides _ _) (fun _ _ => ?_))
    refine stays_bind (findItem_divides sized dev _ _ _ _) (fun _ _ => stays_bind (itemFree_divides _) (fun _ _ => ?_))
    exact stays_ite (fun _ => kernel_pure _) (fun _ => ih _ _)

theorem fat16Open_divides (sized : fprivate.bytesPerCluster ≠ 0) (dev : BlockDevice) (path : Nat) (mode : FileMode) :
    KernelDivides fprivate (fat16Open dev path mode) := by
  have entry : KernelDivides fprivate (fat16GetDirectoryEntry dev path) := by
    refine stays_bind (onDisk_divides loadPrivate_divides) (fun _ _ => stays_bind (loadPart_divides _) (fun _ _ => ?_))
    refine stays_bind (findItem_divides sized dev _ _ _ _) (fun _ _ => stays_ite (fun _ => kernel_pure _) (fun _ => ?_))
    exact walkParts_divides sized dev _ _ _
  refine stays_ite (fun _ => kernel_pure _) (fun _ => stays_bind (kzalloc_divides _ _) (fun _ _ => ?_))
  refine stays_ite (fun _ => kernel_pure _) (fun _ => stays_bind entry (fun _ _ => stays_bind (store_divides _ _) (fun _ _ => ?_)))
  exact stays_ite (fun _ => stays_bind (kfree_divides _) (fun _ _ => kernel_pure _)) (fun _ => kernel_pure _)

theorem itemsLoop_divides {readItem : Int → KernelProg (Int × List UInt8)} (each : ∀ offset, KernelDivides fprivate (readItem offset))
    (filesize size nmemb : Nat) (offset : Int) : KernelDivides fprivate (itemsLoop readItem filesize size nmemb offset) := by
  induction nmemb generalizing offset with
  | zero => exact kernel_pure _
  | succ nmemb ih =>
    refine stays_ite (fun _ => kernel_pure _) (fun _ => stays_bind (each offset) (fun _ _ => ?_))
    exact stays_ite (fun _ => kernel_pure _) (fun _ => stays_bind (ih _) (fun _ _ => kernel_pure _))

theorem fat16Read_divides (sized : fprivate.bytesPerCluster ≠ 0) (dev : BlockDevice) (descriptor size nmemb : Nat) :
    KernelDivides fprivate (fat16Read dev descriptor size nmemb) :=
  stays_bind (loadAs_divides _ _) (fun _ _ => stays_bind (loadAs_divides _ _) (fun _ _ => stays_bind (loadAs_divides _ _) (fun _ _ =>
    itemsLoop_divides (fun _ => onDisk_divides (readInternalLevel_divides sized dev _ _ _ _)) _ _ _ _)))

end NutsOS.Fat16
