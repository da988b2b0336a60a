import NutsOS.Fat16.Watched
import NutsOS.Lib.Triple

-- The driver with every access to the union of struct fat_item in the open: it
-- stops where a member is read that the item's tag does not designate.
namespace NutsOS.Fat16
open Word32 DiskStreams Files Prog

def designated : FatItemType → Member
  | .directory => .directory
  | .file => .item

-- A fault of the driver, a member of an item with another tag, or an open file
-- whose data is no longer there.
inductive Misuse where
  | fault (fault : Fault)
  | member (read : Member) (type : FatItemType)
  | freed

def tagged (dev : BlockDevice) : Services Misuse where
  run := embed .fault
  kzalloc size zero := embed .fault (NutsOS.kzalloc size zero)
  kfree ptr := embed .fault (NutsOS.kfree ptr)
  loadFatDirectory item := embed .fault (fat16LoadFatDirectory dev item)
  reading found member x := if designated found.type = member then x else Prog.fault (.member member found.type)

theorem tagged_watching (dev : BlockDevice) : Watching Misuse.fault (tagged dev) dev where
  run x := watches_embed x
  kzalloc size zero := watches_embed (NutsOS.kzalloc size zero)
  kfree ptr := watches_embed (NutsOS.kfree ptr)
  loadFatDirectory item := watches_embed (fat16LoadFatDirectory dev item)
  reading := by
    intro α x y found member same
    show Watches _ (if designated found.type = member then x else _) y
    by_cases right : designated found.type = member
    · rw [if_pos right]
      exact same
    · rw [if_neg right]
      exact watches_stop (fun _ other => by cases other) y

-- What a call on an open file starts with: its descriptor, and the item there.
def dataFreed (k : Kernel) (descriptor : Nat) : Bool :=
  match k.objs descriptor >>= asFatFileDescriptor with
  | none => descriptor ≠ 0
  | some desc => desc.item ≠ 0 ∧ (k.objs desc.item >>= asFatItem).isNone

def unlessFreed (descriptor : Nat) (x : Prog Misuse Kernel α) : Prog Misuse Kernel α := do
  if dataFreed (← Prog.get) descriptor then Prog.fault .freed else x

theorem unlessFreed_watches {x : Prog Misuse Kernel α} {y : KernelProg α} (descriptor : Nat) (same : Watches Misuse.fault x y) :
    Watches Misuse.fault (unlessFreed descriptor x) y := by
  intro k
  show Matches _ ((if dataFreed k descriptor then fault .freed else x : Prog Misuse Kernel α) k) _
  by_cases freed : dataFreed k descriptor = true
  · rw [if_pos freed]
    exact watches_stop (fun _ other => by cases other) y k
  · rw [if_neg freed]
    exact same k

theorem dataFreed_missing {k : Kernel} (freed : dataFreed k descriptor = true) :
    loadAs asFatFileDescriptor descriptor k = .error (.wildDeref descriptor) ∨
      ∃ desc, loadAs asFatFileDescriptor descriptor k = .ok (desc,k) ∧ desc.item ≠ 0 ∧ loadAs asFatItem desc.item k = .error (.wildDeref desc.item) := by
  have missing {β : Type} {view : Obj → Option β} {ptr : Nat} (none : k.objs ptr >>= view = none) (some : ptr ≠ 0) :
      loadAs view ptr k = .error (.wildDeref ptr) := by
    unfold loadAs
    rw [get_bind,none]
    show Except.error (Fault.deref ptr) = _
    unfold Fault.deref
    rw [if_neg some]
  unfold dataFreed at freed
  cases held : k.objs descriptor >>= asFatFileDescriptor with
  | none =>
    rw [held] at freed
    exact .inl (missing held (by simpa using freed))
  | some desc =>
    rw [held] at freed
    obtain ⟨some,gone⟩ : desc.item ≠ 0 ∧ k.objs desc.item >>= asFatItem = none := by simpa using freed
    refine .inr ⟨desc,?_,some,missing gone some⟩
    unfold loadAs
    rw [get_bind,held]
    rfl

theorem dataFreed_read {k : Kernel} (freed : dataFreed k descriptor = true) (x : FatFileDescriptor → FatItem → KernelProg α) :
    ∃ ptr, (do
      let desc ← loadAs asFatFileDescriptor descriptor
      let item ← loadAs asFatItem desc.item
      x desc item : KernelProg α) k = .error (.wildDeref ptr) := by
  rcases dataFreed_missing freed with gone | ⟨desc,loaded,_,gone⟩
  · exact ⟨_,bind_fault gone⟩
  · exact ⟨_,(bind_run loaded).trans (bind_fault gone)⟩

theorem dataFreed_close {k : Kernel} (freed : dataFreed k descriptor = true) : ∃ ptr, fat16Close descriptor k = .error (.wildDeref ptr) := by
  rcases dataFreed_missing freed with gone | ⟨desc,loaded,some,gone⟩
  · exact ⟨_,bind_fault gone⟩
  · have stops : fat16FatItemFree desc.item k = .error (.wildDeref desc.item) := by
      unfold fat16FatItemFree
      rw [if_neg some]
      exact bind_fault gone
    exact ⟨_,(bind_run loaded).trans (bind_fault stops)⟩

def IsFault (stop : Misuse) : Prop := ∃ e, stop = .fault e

abbrev Respects (x : Prog Misuse Kernel α) : Prop := Stays IsFault (fun _ => True) x (fun _ => True)

theorem tagged_load {make : α → Obj} (typed : ∀ obj value, view obj = some value → obj = make value) (dev : BlockDevice) (ptr : Nat) (k : Kernel) :
    Ends IsFault (fun value after => k = after ∧ k.objs ptr = some (make value)) ((tagged dev).run (loadAs view ptr) k) :=
  ends_embed _ (fun e => ⟨e,rfl⟩) (fun _ _ ran => load_held typed ran)

theorem respects_pure (a : α) : Respects (pure a) := stays_pure trivial

theorem embed_respects (x : KernelProg α) : Respects (embed Misuse.fault x) :=
  fun _ _ => ends_embed _ (fun e => ⟨e,rfl⟩) (fun _ _ _ => ⟨trivial,trivial⟩)

section
variable (dev : BlockDevice)

theorem run_respects (x : KernelProg α) : Respects ((tagged dev).run x) := embed_respects x

theorem kzalloc_respects (size : Nat) (zero : Obj) : Respects ((tagged dev).kzalloc size zero) := embed_respects (NutsOS.kzalloc size zero)

theorem kfree_respects (ptr : Nat) : Respects ((tagged dev).kfree ptr) := embed_respects (NutsOS.kfree ptr)

theorem loadFatDirectory_respects (item : FatDirectoryItem) : Respects ((tagged dev).loadFatDirectory item) :=
  embed_respects (fat16LoadFatDirectory dev item)

-- The tag was tested before.
theorem reading_respects {found : FatItem} {x : Prog Misuse Kernel α} (type : designated found.type = member) (rest : Respects x) :
    Respects ((tagged dev).reading found member x) := by
  show Respects (if designated found.type = member then x else _)
  rw [if_pos type]
  exact rest

theorem fatItemFree_respects (item : Nat) : Respects (fatItemFreeWith (tagged dev) item) := by
  have released (directory : Nat) : Respects (freeDirectoryWith (tagged dev) directory) := by
    refine stays_ite (fun _ => respects_pure _) (fun _ => stays_bind (run_respects dev _) (fun found _ => ?_))
    exact stays_bind (stays_when (fun _ => kfree_respects dev _)) (fun _ _ => kfree_respects dev _)
  refine stays_ite (fun _ => respects_pure _) (fun _ => stays_bind (run_respects dev _) (fun found _ => ?_))
  split
  case h_1 type =>
    exact stays_bind (reading_respects dev (by rw [type]; rfl) (released _)) (fun _ _ => kfree_respects dev _)
  case h_2 type =>
    exact stays_bind (reading_respects dev (by rw [type]; rfl) (kfree_respects dev _)) (fun _ _ => kfree_respects dev _)

theorem findItem_respects (directory : FatDirectory) (name : List UInt8) (count i : Nat) :
    Respects (findItemWith (tagged dev) directory name count i) := by
  have copied (item : FatDirectoryItem) : Respects (copyDirectoryItemWith (tagged dev) item) := by
    refine stays_bind (kzalloc_respects dev _ _) (fun copy _ => stays_ite (fun _ => respects_pure _) (fun _ => ?_))
    exact stays_bind (run_respects dev _) (fun _ _ => respects_pure _)
  have made (item : FatDirectoryItem) : Respects (newFatItemWith (tagged dev) item) := by
    refine stays_bind (kzalloc_respects dev _ _) (fun fatItem _ => stays_ite (fun _ => respects_pure _) (fun _ => stays_ite (fun _ => ?_) (fun _ => ?_)))
    · exact stays_bind (loadFatDirectory_respects dev item) (fun _ _ => stays_bind (run_respects dev _) (fun _ _ => respects_pure _))
    · exact stays_bind (copied item) (fun _ _ => stays_bind (run_respects dev _) (fun _ _ => respects_pure _))
  induction count generalizing i with
  | zero => exact respects_pure 0
  | succ count ih =>
    refine stays_bind (run_respects dev _) (fun items _ => ?_)
    cases items[i]? with
    | none => exact run_respects dev _
    | some item => exact stays_ite (fun _ => made item) (fun _ => ih (i+1))

theorem walkParts_respects (fuel item next : Nat) : Respects (walkPartsWith (tagged dev) fuel item next) := by
  induction fuel generalizing item next with
  | zero => exact run_respects dev _
  | succ fuel ih =>
    refine stays_ite (fun _ => respects_pure _) (fun _ => stays_bind (run_respects dev _) (fun current _ => ?_))
    refine stays_ite (fun _ => stays_bind (fatItemFree_respects dev item) (fun _ _ => respects_pure _)) (fun directory => ?_)
    refine stays_bind (run_respects dev _) (fun part _ => ?_)
    refine stays_bind (reading_respects dev (by rw [not_not.mp directory]; rfl) (run_respects dev _)) (fun target _ => ?_)
    refine stays_bind (findItem_respects dev _ _ _ _) (fun found _ => ?_)
    exact stays_bind (fatItemFree_respects dev item) (fun _ _ => stays_ite (fun _ => respects_pure _) (fun _ => ih found part.2))

theorem open_respects (path : Nat) (mode : FileMode) : Respects (openWith (tagged dev) path mode) := by
  have entry : Respects (getDirectoryEntryWith (tagged dev) path) := by
    refine stays_bind (run_respects dev _) (fun _ _ => stays_bind (run_respects dev _) (fun part _ => ?_))
    refine stays_bind (findItem_respects dev _ _ _ _) (fun root _ => stays_ite (fun _ => respects_pure _) (fun _ => ?_))
    exact walkParts_respects dev 4294967296 root part.2
  refine stays_ite (fun _ => respects_pure _) (fun _ => stays_bind (kzalloc_respects dev _ _) (fun _ _ => ?_))
  refine stays_ite (fun _ => respects_pure _) (fun _ => stays_bind entry (fun _ _ => stays_bind (run_respects dev _) (fun _ _ => ?_)))
  exact stays_ite (fun _ => stays_bind (kfree_respects dev _) (fun _ _ => respects_pure _)) (fun _ => respects_pure _)

theorem seek_respects (descriptor offset : Nat) (mode : FileSeekMode) : Respects (seekWith (tagged dev) descriptor offset mode) := by
  refine stays_bind (run_respects dev _) (fun desc _ => stays_bind (run_respects dev _) (fun descItem _ => ?_))
  refine stays_ite (fun _ => respects_pure _) (fun file => ?_)
  refine stays_bind (reading_respects dev (by rw [not_not.mp file]; rfl) (run_respects dev _)) (fun ritem _ => ?_)
  cases mode with
  | set => exact stays_ite (fun _ => respects_pure _) (fun _ => stays_bind (run_respects dev _) (fun _ _ => respects_pure _))
  | seekEnd => exact respects_pure _
  | other => exact respects_pure _
  | cur => exact stays_ite (fun _ => respects_pure _) (fun _ => stays_bind (run_respects dev _) (fun _ _ => respects_pure _))

theorem stat_respects (descriptor : Nat) : Respects (statWith (tagged dev) descriptor) := by
  refine stays_bind (run_respects dev _) (fun desc _ => stays_bind (run_respects dev _) (fun descItem _ => ?_))
  refine stays_ite (fun _ => respects_pure _) (fun file => ?_)
  exact stays_bind (reading_respects dev (by rw [not_not.mp file]; rfl) (run_respects dev _)) (fun ritem _ => respects_pure _)

theorem close_respects (descriptor : Nat) : Respects (closeWith (tagged dev) descriptor) :=
  stays_bind (run_respects dev _) (fun _ _ => stays_bind (fatItemFree_respects dev _) (fun _ _ =>
    stays_bind (kfree_respects dev _) (fun _ _ => respects_pure _)))

end

def OpenAs (k : Kernel) (descriptor : Nat) (type : FatItemType) : Prop :=
  ∃ desc target, k.objs descriptor = some (.fatFileDescriptor desc) ∧ k.objs desc.item = some (.fatItem ⟨target,type⟩)

-- The read does not test the tag.
theorem read_respects {k : Kernel} (file : ¬ OpenAs k descriptor .directory) (dev : BlockDevice) (size nmemb : Nat) :
    Ends IsFault (fun _ _ => True) (readWith (tagged dev) dev descriptor size nmemb k) := by
  unfold readWith
  refine (tagged_load asFatFileDescriptor_eq dev descriptor k).bind (fun fatDesc one held => ?_)
  obtain ⟨rfl,held⟩ := held
  refine (tagged_load asFatItem_eq dev fatDesc.item k).bind (fun fatItem two found => ?_)
  obtain ⟨rfl,found⟩ := found
  obtain ⟨target,type⟩ := fatItem
  cases type with
  | directory => exact absurd ⟨fatDesc,target,held,found⟩ file
  | file =>
    have rest : Respects (do
        let item ← (tagged dev).reading ⟨target,.file⟩ .item ((tagged dev).run (loadAs asDirectoryItem target))
        (tagged dev).run (readItems dev item size nmemb (toInt32 fatDesc.pos))) :=
      stays_bind (reading_respects dev rfl (run_respects dev _)) (fun _ _ => run_respects dev _)
    exact (rest k trivial).weaken (fun _ _ _ => trivial)

theorem read_stops {k : Kernel} (directory : OpenAs k descriptor .directory) (dev : BlockDevice) (size nmemb : Nat) :
    readWith (tagged dev) dev descriptor size nmemb k = .error (.member .item .directory) := by
  obtain ⟨desc,target,held,found⟩ := directory
  have one : (tagged dev).run (loadAs asFatFileDescriptor descriptor) k = .ok (desc,k) := embed_run (loadAs_run asFatFileDescriptor held rfl)
  have two : (tagged dev).run (loadAs asFatItem desc.item) k = .ok (⟨target,.directory⟩,k) := embed_run (loadAs_run asFatItem found rfl)
  unfold readWith
  rw [bind_run one,bind_run two]
  rfl

theorem OpenAs.held {k : Kernel} (held : OpenAs k descriptor type) : dataFreed k descriptor = false := by
  obtain ⟨desc,target,descriptor,item⟩ := held
  unfold dataFreed
  rw [descriptor]
  show decide (desc.item ≠ 0 ∧ (k.objs desc.item >>= asFatItem).isNone) = false
  rw [item]
  exact decide_eq_false (fun both => by cases both.2)

end NutsOS.Fat16
