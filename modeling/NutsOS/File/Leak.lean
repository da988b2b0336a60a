import NutsOS.File.Table
import NutsOS.Heap.Pinned
import NutsOS.Lib.Triple

-- What fopen leaves behind: no call frees the root of a parsed path.
namespace NutsOS.Files
open Word32 HeapAlloc Fat16 DiskStreams Stdutil Prog Runs

-- The pointers in an object that a close or a failed open passes to kfree.
def Sound (saddr total b : Nat) : Obj → Prop
  | .fatItem ⟨target,.file⟩ => Elsewhere saddr total b target
  | .fatDirectory directory => Elsewhere saddr total b directory.item
  | _ => True

-- Block b holds a path's root, and no other object leads to it.
structure Leaked (saddr total b : Nat) (k : Kernel) : Prop where
  base : k.heap.saddr = saddr
  blocks : k.heap.table.total = total
  pinned : Pinned k.heap b
  root : ∃ root, k.objs (saddr+b*4096) = some (.pathRoot root)
  others : ∀ ptr obj, k.objs ptr = some obj → ptr ≠ saddr+b*4096 → Elsewhere saddr total b ptr ∧ Sound saddr total b obj

variable {saddr total b : Nat}

theorem Leaked.low (leaked : Leaked saddr total b k) : 0 < saddr := by
  have low := leaked.pinned.pool.low
  rw [leaked.base] at low
  omega

theorem Leaked.congr {k l : Kernel} (leaked : Leaked saddr total b k) (heap : l.heap = k.heap) (objs : l.objs = k.objs) :
    Leaked saddr total b l :=
  ⟨by rw [heap]; exact leaked.base,by rw [heap]; exact leaked.blocks,by rw [heap]; exact leaked.pinned,
    by rw [objs]; exact leaked.root,by rw [objs]; exact leaked.others⟩

theorem Leaked.withHeap (leaked : Leaked saddr total b k) (kept : PinKept k.heap heap b) :
    Leaked saddr total b (k.withHeap heap) :=
  ⟨kept.saddr.trans leaked.base,kept.total.trans leaked.blocks,kept.pinned,leaked.root,leaked.others⟩

theorem Leaked.place (leaked : Leaked saddr total b k) (elsewhere : Elsewhere saddr total b ptr) (sound : Sound saddr total b obj) :
    Leaked saddr total b (k.place ptr obj) := by
  have different := elsewhere.different leaked.low
  refine ⟨leaked.base,leaked.blocks,leaked.pinned,?_,?_⟩
  · rw [Kernel.place_other (Ne.symm different)]
    exact leaked.root
  · intro a held present other
    by_cases same : a = ptr
    · rw [same,Kernel.place_same] at present
      cases present
      exact ⟨same ▸ elsewhere,sound⟩
    · rw [Kernel.place_other same] at present
      exact leaked.others a held present other

theorem Leaked.replaceRoot (leaked : Leaked saddr total b k) (root : PathRoot) :
    Leaked saddr total b (k.place (saddr+b*4096) (.pathRoot root)) := by
  refine ⟨leaked.base,leaked.blocks,leaked.pinned,⟨root,Kernel.place_same _ _ _⟩,?_⟩
  intro a held present other
  rw [Kernel.place_other other] at present
  exact leaked.others a held present other

theorem Leaked.drop (leaked : Leaked saddr total b k) (elsewhere : Elsewhere saddr total b ptr) :
    Leaked saddr total b (k.drop ptr) := by
  have different := elsewhere.different leaked.low
  refine ⟨leaked.base,leaked.blocks,leaked.pinned,?_,?_⟩
  · rw [Kernel.drop_other (Ne.symm different)]
    exact leaked.root
  · intro a held present other
    by_cases same : a = ptr
    · rw [same,Kernel.drop_same] at present
      cases present
    · rw [Kernel.drop_other same] at present
      exact leaked.others a held present other

theorem kzalloc_leaked (size : Nat) (sound : Sound saddr total b zero) :
    Keeps (Leaked saddr total b) (kzalloc size zero) (Elsewhere saddr total b) := by
  apply triple_of_ok
  intro k ptr after leaked ran
  obtain ⟨⟨got,heap,written⟩,called⟩ : ∃ result, heapMalloc k.heap size = result := ⟨_,rfl⟩
  obtain ⟨kept,elsewhere⟩ := leaked.pinned.malloc called
  rw [leaked.base,leaked.blocks] at elsewhere
  have grown := leaked.withHeap kept
  unfold kzalloc at ran
  rw [bind_run (kmalloc_run called)] at ran
  by_cases null : got = 0
  · rw [if_pos null] at ran
    cases ran
    exact ⟨grown,.inl rfl⟩
  · rw [if_neg null] at ran
    by_cases short : heapAlignValueToUpper size < size
    · rw [if_pos short] at ran
      cases ran
    · rw [if_neg short] at ran
      by_cases none : size = 0
      · rw [if_pos none] at ran
        cases ran
        exact ⟨grown,elsewhere⟩
      · rw [if_neg none] at ran
        cases ran
        exact ⟨grown.place elsewhere sound,elsewhere⟩

theorem kfree_leaked (elsewhere : Elsewhere saddr total b ptr) : Keeps (Leaked saddr total b) (kfree ptr) (fun _ => True) := by
  apply triple_of_ok
  intro k result after leaked ran
  cases ran
  rw [← leaked.base,← leaked.blocks] at elsewhere
  have kept := leaked.withHeap (leaked.pinned.free elsewhere)
  rw [leaked.base,leaked.blocks] at elsewhere
  exact ⟨kept.drop elsewhere,trivial⟩

theorem store_leaked (elsewhere : Elsewhere saddr total b ptr) (sound : Sound saddr total b obj) :
    Keeps (Leaked saddr total b) (store ptr obj) (fun _ => True) := keeps_modify (fun _ leaked => leaked.place elsewhere sound)

theorem load_leaked {view : Obj → Option α} (apart : ∀ root, view (.pathRoot root) = none) (ptr : Nat) :
    Keeps (Leaked saddr total b) (loadAs view ptr)
      (fun value => Elsewhere saddr total b ptr ∧ ∃ obj, view obj = some value ∧ Sound saddr total b obj) := by
  apply triple_of_ok
  intro k value after leaked ran
  obtain ⟨⟨obj,held,typed⟩,rfl⟩ := loadAs_ok.mp ran
  have other : ptr ≠ saddr+b*4096 := by
    intro same
    obtain ⟨root,present⟩ := leaked.root
    rw [same,present] at held
    cases held
    rw [apart] at typed
    cases typed
  obtain ⟨elsewhere,sound⟩ := leaked.others ptr obj held other
  exact ⟨leaked,elsewhere,obj,typed,sound⟩

theorem load_root (ptr : Nat) : Keeps (Leaked saddr total b) (loadAs asPathRoot ptr)
    (fun _ => ptr = saddr+b*4096 ∨ Elsewhere saddr total b ptr) := by
  apply triple_of_ok
  intro k value after leaked ran
  obtain ⟨⟨obj,held,typed⟩,rfl⟩ := loadAs_ok.mp ran
  by_cases same : ptr = saddr+b*4096
  · exact ⟨leaked,.inl same⟩
  · exact ⟨leaked,.inr (leaked.others ptr obj held same).1⟩

theorem store_root (place : ptr = saddr+b*4096 ∨ Elsewhere saddr total b ptr) (root : PathRoot) :
    Keeps (Leaked saddr total b) (store ptr (.pathRoot root)) (fun _ => True) := by
  rcases place with same | elsewhere
  · rw [same]
    exact keeps_modify (fun _ leaked => leaked.replaceRoot root)
  · exact store_leaked elsewhere trivial

theorem onDisk_leaked (x : DiskProg α) : Keeps (Leaked saddr total b) (onDisk x) (fun _ => True) :=
  keeps_focus (fun _ _ leaked => leaked.congr rfl rfl) x

-- The path parser.
theorem storeChars_leaked (buf : Nat) (chars : List UInt8) :
    Keeps (Leaked saddr total b) (storeChars buf chars) (fun _ => True) :=
  keeps_bind (load_leaked (fun _ => rfl) buf) (fun _ found =>
    keeps_ite (fun _ => keeps_fault _ _) (fun _ => store_leaked found.1 trivial))

theorem extractNextPathPart_leaked (path : List UInt8) :
    Keeps (Leaked saddr total b) (pathparserExtractNextPathPart path) (fun _ => True) := by
  refine keeps_bind (kzalloc_leaked _ trivial) (fun buf elsewhere => ?_)
  refine keeps_bind (keeps_when (fun _ => storeChars_leaked _ _)) (fun _ _ => ?_)
  refine keeps_ite (fun _ => ?_) (fun _ => keeps_pure trivial)
  exact keeps_bind (kfree_leaked elsewhere) (fun _ _ => keeps_pure trivial)

theorem parsePathPart_leaked (lastPart : Nat) (path : List UInt8) :
    Keeps (Leaked saddr total b) (pathparserParsePathPart lastPart path) (fun _ => True) := by
  refine keeps_bind (extractNextPathPart_leaked path) (fun taken _ => keeps_ite (fun _ => keeps_pure trivial) (fun _ => ?_))
  refine keeps_bind (kzalloc_leaked _ trivial) (fun part elsewhere => ?_)
  refine keeps_bind (load_leaked (fun _ => rfl) part) (fun _ _ => ?_)
  refine keeps_bind (store_leaked elsewhere trivial) (fun _ _ => ?_)
  refine keeps_bind (keeps_when (fun _ => ?_)) (fun _ _ => keeps_pure trivial)
  exact keeps_bind (load_leaked (fun _ => rfl) lastPart) (fun _ last => store_leaked last.1 trivial)

theorem parseParts_leaked (fuel part : Nat) (path : List UInt8) :
    Keeps (Leaked saddr total b) (parseParts fuel part path) (fun _ => True) := by
  induction fuel generalizing part path with
  | zero => exact keeps_fault _ _
  | succ fuel ih =>
    exact keeps_bind (parsePathPart_leaked part path) (fun taken _ =>
      keeps_ite (fun _ => keeps_pure trivial) (fun _ => ih taken.1 taken.2))

theorem createRoot_leaked (drive : Int) : Keeps (Leaked saddr total b) (pathparserCreateRoot drive) (fun _ => True) := by
  refine keeps_bind (kzalloc_leaked _ trivial) (fun ptr elsewhere => ?_)
  refine keeps_bind (load_root ptr) (fun _ place => ?_)
  exact keeps_bind (store_root place _) (fun _ _ => keeps_pure trivial)

theorem pathparserParse_leaked {P : Kernel → Prop} (taken : ¬ PathRefused path)
    (rooted : ∀ drive, Triple (fun _ => True) P (pathparserCreateRoot drive) (fun _ k => Leaked saddr total b k)) :
    Triple (fun _ => True) P (pathparserParse path) (fun _ k => Leaked saddr total b k) := by
  have short : ¬ strlen path > nutsosMaxPath := fun long => taken (.inl long)
  have valid : pathparserIsPathValid path = true := by
    cases drive : pathparserIsPathValid path with
    | true => rfl
    | false => exact absurd (.inr drive) taken
  obtain ⟨drive,positive⟩ := extractDrive_valid valid
  unfold pathparserParse
  rw [if_neg short,drive]
  dsimp only
  rw [if_neg positive]
  refine triple_bind (rooted _) (fun ptr => keeps_triple (Q := fun _ => True) ?_)
  refine keeps_ite (fun _ => keeps_pure trivial) (fun _ => ?_)
  refine keeps_bind (parsePathPart_leaked _ _) (fun first _ => keeps_ite (fun _ => keeps_pure trivial) (fun _ => ?_))
  refine keeps_bind (load_root ptr) (fun _ place => ?_)
  refine keeps_bind (store_root place _) (fun _ _ => ?_)
  exact keeps_bind (parseParts_leaked _ _ _) (fun _ _ => keeps_pure trivial)

-- The driver.
theorem freeDirectory_leaked (directory : Nat) : Keeps (Leaked saddr total b) (fat16FreeDirectory directory) (fun _ => True) := by
  refine keeps_ite (fun _ => keeps_pure trivial) (fun _ => ?_)
  refine keeps_bind (load_leaked (fun _ => rfl) directory) (fun found held => ?_)
  obtain ⟨elsewhere,obj,typed,sound⟩ := held
  rw [asFatDirectory_eq obj found typed] at sound
  exact keeps_bind (keeps_when (fun _ => kfree_leaked sound)) (fun _ _ => kfree_leaked elsewhere)

theorem fatItemFree_leaked (item : Nat) : Keeps (Leaked saddr total b) (fat16FatItemFree item) (fun _ => True) := by
  refine keeps_ite (fun _ => keeps_pure trivial) (fun _ => ?_)
  refine keeps_bind (load_leaked (fun _ => rfl) item) (fun found held => ?_)
  obtain ⟨elsewhere,obj,typed,sound⟩ := held
  rw [asFatItem_eq obj found typed] at sound
  obtain ⟨target,type⟩ := found
  cases type with
  | directory => exact keeps_bind (freeDirectory_leaked _) (fun _ _ => kfree_leaked elsewhere)
  | file => exact keeps_bind (kfree_leaked sound) (fun _ _ => kfree_leaked elsewhere)

theorem loadFatDirectory_leaked (dev : BlockDevice) (item : FatDirectoryItem) :
    Keeps (Leaked saddr total b) (fat16LoadFatDirectory dev item) (fun _ => True) := by
  have failed (directory : Nat) (e : Int) : Keeps (Leaked saddr total b) (do
      fat16FreeDirectory directory
      return errToPtr e) (fun _ => True) := keeps_bind (freeDirectory_leaked _) (fun _ _ => keeps_pure trivial)
  refine keeps_ite (fun _ => keeps_pure trivial) (fun _ => ?_)
  refine keeps_bind (kzalloc_leaked _ (.inl rfl)) (fun directory elsewhere => keeps_ite (fun _ => keeps_pure trivial) (fun _ => ?_))
  refine keeps_bind (onDisk_leaked _) (fun fatPrivate _ => ?_)
  refine keeps_bind (onDisk_leaked _) (fun res _ => keeps_ite (fun _ => failed _ _) (fun _ => ?_))
  refine keeps_bind (kzalloc_leaked _ trivial) (fun items pointer => ?_)
  refine keeps_bind (store_leaked elsewhere pointer) (fun _ _ => keeps_ite (fun _ => failed _ _) (fun _ => ?_))
  refine keeps_bind (onDisk_leaked _) (fun read _ => keeps_ite (fun _ => failed _ _) (fun _ => ?_))
  refine keeps_bind (keeps_when (fun _ => ?_)) (fun _ _ => keeps_pure trivial)
  exact keeps_bind (load_leaked (fun _ => rfl) items) (fun _ _ => store_leaked pointer trivial)

theorem copyDirectoryItem_leaked (item : FatDirectoryItem) :
    Keeps (Leaked saddr total b) (fat16CopyDirectoryItem item) (Elsewhere saddr total b) := by
  refine keeps_bind (kzalloc_leaked _ trivial) (fun copy elsewhere => keeps_ite (fun _ => keeps_pure (.inl rfl)) (fun _ => ?_))
  exact keeps_bind (store_leaked elsewhere trivial) (fun _ _ => keeps_pure elsewhere)

theorem newFatItem_leaked (dev : BlockDevice) (item : FatDirectoryItem) :
    Keeps (Leaked saddr total b) (fat16NewFatItemForDirectoryItem dev item) (fun _ => True) := by
  refine keeps_bind (kzalloc_leaked _ trivial) (fun fatItem elsewhere => keeps_ite (fun _ => keeps_pure trivial) (fun _ => ?_))
  refine keeps_ite (fun _ => ?_) (fun _ => ?_)
  · refine keeps_bind (loadFatDirectory_leaked dev item) (fun directory _ => ?_)
    exact keeps_bind (store_leaked elsewhere trivial) (fun _ _ => keeps_pure trivial)
  · refine keeps_bind (copyDirectoryItem_leaked item) (fun copy pointer => ?_)
    exact keeps_bind (store_leaked elsewhere pointer) (fun _ _ => keeps_pure trivial)

theorem findItem_leaked (dev : BlockDevice) (directory : FatDirectory) (name : List UInt8) (count i : Nat) :
    Keeps (Leaked saddr total b) (findItem dev directory name count i) (fun _ => True) := by
  induction count generalizing i with
  | zero => exact keeps_pure trivial
  | succ count ih =>
    refine keeps_bind (load_leaked (fun _ => rfl) directory.item) (fun items _ => ?_)
    cases items[i]? with
    | none => exact keeps_fault _ _
    | some item => exact keeps_ite (fun _ => newFatItem_leaked dev item) (fun _ => ih (i+1))

theorem loadPart_leaked (path : Nat) : Keeps (Leaked saddr total b) (loadPart path) (fun _ => True) :=
  keeps_bind (load_leaked (fun _ => rfl) path) (fun part _ =>
    keeps_bind (load_leaked (fun _ => rfl) part.part) (fun _ _ => keeps_pure trivial))

theorem walkParts_leaked (dev : BlockDevice) (fuel item next : Nat) :
    Keeps (Leaked saddr total b) (walkParts dev fuel item next) (fun _ => True) := by
  induction fuel generalizing item next with
  | zero => exact keeps_fault _ _
  | succ fuel ih =>
    refine keeps_ite (fun _ => keeps_pure trivial) (fun _ => ?_)
    refine keeps_bind (load_leaked (fun _ => rfl) item) (fun current _ => keeps_ite (fun _ => ?_) (fun _ => ?_))
    · exact keeps_bind (fatItemFree_leaked item) (fun _ _ => keeps_pure trivial)
    · refine keeps_bind (loadPart_leaked next) (fun part _ => ?_)
      refine keeps_bind (load_leaked (fun _ => rfl) current.target) (fun directory _ => ?_)
      refine keeps_bind (findItem_leaked dev directory part.1 _ _) (fun found _ => ?_)
      refine keeps_bind (fatItemFree_leaked item) (fun _ _ => ?_)
      exact keeps_ite (fun _ => keeps_pure trivial) (fun _ => ih found part.2)

theorem getDirectoryEntry_leaked (dev : BlockDevice) (path : Nat) :
    Keeps (Leaked saddr total b) (fat16GetDirectoryEntry dev path) (fun _ => True) := by
  refine keeps_bind (onDisk_leaked _) (fun fatPrivate _ => ?_)
  refine keeps_bind (loadPart_leaked path) (fun part _ => ?_)
  refine keeps_bind (findItem_leaked dev _ part.1 _ _) (fun item _ => keeps_ite (fun _ => keeps_pure trivial) (fun _ => ?_))
  exact walkParts_leaked dev _ item part.2

theorem fat16Open_leaked (dev : BlockDevice) (path : Nat) (mode : FileMode) :
    Keeps (Leaked saddr total b) (fat16Open dev path mode) (fun _ => True) := by
  refine keeps_ite (fun _ => keeps_pure trivial) (fun _ => ?_)
  refine keeps_bind (kzalloc_leaked _ trivial) (fun descriptor elsewhere => keeps_ite (fun _ => keeps_pure trivial) (fun _ => ?_))
  refine keeps_bind (getDirectoryEntry_leaked dev path) (fun item _ => ?_)
  refine keeps_bind (store_leaked elsewhere trivial) (fun _ _ => keeps_ite (fun _ => ?_) (fun _ => keeps_pure trivial))
  exact keeps_bind (kfree_leaked elsewhere) (fun _ _ => keeps_pure trivial)

theorem fat16Close_leaked (descriptor : Nat) : Keeps (Leaked saddr total b) (fat16Close descriptor) (fun _ => True) := by
  refine keeps_bind (load_leaked (fun _ => rfl) descriptor) (fun found held => ?_)
  refine keeps_bind (fatItemFree_leaked found.item) (fun _ _ => ?_)
  exact keeps_bind (kfree_leaked held.1) (fun _ _ => keeps_pure trivial)

-- The calls of file.c.
theorem setErrno_leaked (e : Int) : Keeps (Leaked saddr total b) (setErrno e) (fun _ => True) :=
  keeps_modify (fun _ leaked => leaked.congr rfl rfl)

theorem newDescriptorFrom_leaked (count i : Nat) :
    Keeps (Leaked saddr total b) (newDescriptorFrom count i) (fun _ => True) := by
  induction count generalizing i with
  | zero => exact keeps_pure trivial
  | succ count ih =>
    refine keeps_bind keeps_get (fun k _ => keeps_ite (fun _ => ?_) (fun _ => ih (i+1)))
    refine keeps_bind (kzalloc_leaked _ trivial) (fun desc elsewhere => ?_)
    refine keeps_bind (load_leaked (fun _ => rfl) desc) (fun found _ => ?_)
    refine keeps_bind (store_leaked elsewhere trivial) (fun _ _ => ?_)
    exact keeps_bind (keeps_modify (fun _ leaked => leaked.congr rfl rfl)) (fun _ _ => keeps_pure trivial)

theorem openDescriptor_leaked (fprivate : Nat) (mode : FileMode) :
    Keeps (Leaked saddr total b) (openDescriptor fprivate mode) (fun _ => True) := by
  refine keeps_bind (newDescriptorFrom_leaked _ _) (fun made _ => ?_)
  refine keeps_bind (setErrno_leaked _) (fun _ _ => keeps_ite (fun _ => keeps_pure trivial) (fun _ => ?_))
  refine keeps_bind (load_leaked (fun _ => rfl) made.2) (fun found held => ?_)
  exact keeps_bind (store_leaked held.1 trivial) (fun _ _ => keeps_pure trivial)

theorem openPath_leaked {P : Kernel → Prop} (taken : ¬ PathRefused filename)
    (rooted : ∀ drive, Triple (fun _ => True) P (pathparserCreateRoot drive) (fun _ k => Leaked saddr total b k)) :
    Triple (fun _ => True) P (openPath dev filename modeStr) (fun _ k => Leaked saddr total b k) := by
  refine triple_bind (pathparserParse_leaked taken rooted) (fun root => keeps_triple (Q := fun _ => True) ?_)
  refine keeps_ite (fun _ => keeps_pure trivial) (fun _ => ?_)
  refine keeps_bind (load_root root) (fun path _ => keeps_ite (fun _ => keeps_pure trivial) (fun _ => ?_))
  refine keeps_ite (fun _ => keeps_pure trivial) (fun _ => keeps_bind keeps_get (fun k _ => ?_))
  refine keeps_ite (fun _ => keeps_pure trivial) (fun _ => keeps_ite (fun _ => keeps_pure trivial) (fun _ => ?_))
  refine keeps_bind (fat16Open_leaked dev _ _) (fun fprivate _ => ?_)
  exact keeps_ite (fun _ => keeps_pure trivial) (fun _ => keeps_pure trivial)

theorem fopen_leaked {P : Kernel → Prop} (taken : ¬ PathRefused filename)
    (rooted : ∀ drive, Triple (fun _ => True) P (pathparserCreateRoot drive) (fun _ k => Leaked saddr total b k)) :
    Triple (fun _ => True) P (fopen dev filename modeStr) (fun _ k => Leaked saddr total b k) := by
  refine triple_bind (openPath_leaked taken rooted) (fun opened => keeps_triple (Q := fun _ => True) ?_)
  cases opened with
  | error e => exact keeps_bind (setErrno_leaked e) (fun _ _ => keeps_pure trivial)
  | ok fprivate => exact openDescriptor_leaked fprivate _

theorem fclose_leaked (fd : Int) : Keeps (Leaked saddr total b) (fclose fd) (fun _ => True) := by
  refine keeps_bind keeps_get (fun k _ => keeps_ite (fun _ => keeps_pure trivial) (fun _ => ?_))
  refine keeps_bind (load_leaked (fun _ => rfl) _) (fun found _ => ?_)
  have system : Keeps (Leaked saddr total b) (loadFilesystem found) (fun _ => True) := by
    unfold loadFilesystem
    cases found.filesystem with
    | none => exact keeps_fault _ _
    | some system => exact keeps_pure trivial
  refine keeps_bind system (fun system _ => ?_)
  cases system with
  | fat16 => exact keeps_bind (fat16Close_leaked _) (fun _ _ => keeps_pure trivial)

structure Idle (k : Kernel) : Prop where
  heap : HeapValid k
  table : ∀ i, k.fileDescriptors i = 0
  items : ∀ ptr item, k.objs ptr ≠ some (.fatItem item)
  directories : ∀ ptr directory, k.objs ptr ≠ some (.fatDirectory directory)

theorem Idle.sound {k : Kernel} (idle : Idle k) (held : k.objs ptr = some obj) (saddr total b : Nat) :
    Sound saddr total b obj := by
  cases obj with
  | fatItem item => exact absurd held (idle.items ptr item)
  | fatDirectory directory => exact absurd held (idle.directories ptr directory)
  | _ => trivial

-- The first path's root lies in a block that was free; without one the parser
-- does not return.
theorem createRoot_pins {k : Kernel} (idle : Idle k) : ∃ b, (b < k.heap.table.total → IsFree k.heap.table.entries b) ∧
    ∀ drive, Triple (fun _ => True) (fun s => s.heap = k.heap ∧ s.objs = k.objs) (pathparserCreateRoot drive)
      (fun _ s => Leaked k.heap.saddr k.heap.table.total b s) := by
  obtain ⟨chunks,holds⟩ := id idle.heap
  rcases heapMalloc_cases 8 k.heap (by decide) with refused | ⟨b,inside,free,granted⟩
  · refine ⟨k.heap.table.total,fun below => absurd below (Nat.lt_irrefl _),fun drive => triple_of_ok (fun s root after ⟨heap,objs⟩ ran => ?_)⟩
    rw [← heap] at refused
    obtain ⟨ptr,one,allocated,ran⟩ := bind_ok.mp ran
    unfold kzalloc at allocated
    rw [bind_run (kmalloc_run refused)] at allocated
    cases allocated
    have null : s.objs 0 = none := by
      rw [objs]
      exact idle.heap.null
    rw [bind_fault (loadAs_null (k := s.withHeap s.heap) null asPathRoot)] at ran
    cases ran
  · have here : IsFree k.heap.table.entries b := free b (Nat.le_refl b) (by rw [show blocksFor 8 = 1 by decide]; omega) inside
    refine ⟨b,fun _ => here,fun drive => triple_of_ok (fun s root after ⟨heap,objs⟩ ran => ?_)⟩
    have valid : HeapValid s := idle.heap.congr heap (fun _ live => by rw [← objs]; exact live)
    rw [← heap] at inside free granted
    obtain ⟨allocated,_⟩ := kzalloc_granted 8 valid (.pathRoot ⟨0,0⟩) (by decide) (by decide) inside free granted
    obtain ⟨ptr,one,made,ran⟩ := bind_ok.mp ran
    rw [allocated] at made
    cases made
    have pinned : Pinned (s.heap.granted ⟨b,1⟩).2.1 b := by
      rw [heap] at inside ⊢
      exact holds.tiled.pinned holds.pool holds.stops inside here
    have leaked : Leaked k.heap.saddr k.heap.table.total b
        ((s.withHeap (s.heap.granted ⟨b,1⟩).2.1).place (s.heap.saddr+b*4096) (.pathRoot ⟨0,0⟩)) := by
      rw [heap] at *
      refine ⟨rfl,rfl,pinned,⟨_,Kernel.place_same _ _ _⟩,fun a obj held other => ?_⟩
      rw [Kernel.place_other other] at held
      have before : k.objs a = some obj := by
        rw [← objs]
        exact held
      obtain ⟨c,member,equal⟩ := holds.owned a (by simp [before])
      have starts := holds.tiled.starts c member
      exact ⟨.inr ⟨c.start,starts,fun same => other (by rw [equal,same]),equal⟩,idle.sound before _ _ _⟩
    obtain ⟨_,two,loaded,ran⟩ := bind_ok.mp ran
    obtain ⟨_,rfl⟩ := loadAs_ok.mp loaded
    cases ran
    rw [heap] at leaked ⊢
    exact leaked.replaceRoot _

def allocated (k : Kernel) : Set Nat := {i | i < k.heap.table.total ∧ ¬ IsFree k.heap.table.entries i}

-- The run's successful opens are those that hand out a descriptor; each is
-- closed once, and no other number is.
def Closes (s : FileRun) : FileAction → Prop
  | .fopen _ _ => True
  | .fclose fd => ∃ i : Nat, (i : Int)+1 = fd ∧ s.opened i ≠ 0

structure Matched (s : FileRun) (trace : List (FileAction × FileRun)) : Prop where
  once : Guarded Closes s trace
  all : (final s trace).opened = fun _ => 0
  alive : (final s trace).fault = none

-- The path is turned down before anything is allocated.
def OpenRefused (_ : FileRun) : FileAction → Prop
  | .fopen filename _ => PathRefused filename
  | .fclose _ => True

-- What a run of refused opens leaves as it was.
structure Untouched (k : Kernel) (s : FileRun) : Prop where
  heap : s.kernel.heap = k.heap
  objs : s.kernel.objs = k.objs
  table : s.kernel.fileDescriptors = k.fileDescriptors

theorem fopen_path_refused (refused : PathRefused filename) (dev : BlockDevice) (modeStr : List UInt8) (k : Kernel) :
    fopen dev filename modeStr k = .ok (0,{k with errno := -einvarg}) := by
  apply fopen_refused
  unfold openPath
  rw [bind_run (pathparserParse_refused refused k)]
  rfl

theorem refused_step (alive : s.fault = none) (null : s.kernel.objs 0 = none) (refused : PathRefused filename) (dev : BlockDevice)
    (modeStr : List UInt8) : FileStep dev s (.fopen filename modeStr) ⟨{s.kernel with errno := -einvarg},s.opened,none⟩ := by
  have called := fopen_path_refused refused dev modeStr s.kernel
  have same : handOut {s.kernel with errno := -einvarg} 0 s.opened = s.opened := by
    unfold handOut
    rw [show ({s.kernel with errno := -einvarg} : Kernel).objs 0 = none from null]
  rw [← same]
  exact .fopen alive called

theorem untouched_step {k : Kernel} (idle : Idle k) (s : FileRun) (action : FileAction) (u : FileRun) (same : Untouched k s)
    (refused : OpenRefused s action) (step : FileStep dev s action u) : Untouched k u := by
  have empty (fd : Int) : fclose fd s.kernel = .ok (-eio,s.kernel) := by
    refine (rejected_of_free ?_ dev).fclose
    unfold fileGetDescriptor
    rw [same.table]
    split
    · rfl
    · exact idle.table _
  cases step with
  | fopen _ ran =>
    rw [fopen_path_refused refused] at ran
    cases ran
    exact ⟨same.heap,same.objs,same.table⟩
  | fclose _ ran =>
    rw [empty] at ran
    cases ran
    exact ⟨same.heap,same.objs,same.table⟩
  | faulted _ ran =>
    rw [empty] at ran
    cases ran

theorem leaked_step (dev : BlockDevice) (s : FileRun) (action : FileAction) (u : FileRun) (leaked : Leaked saddr total b s.kernel)
    (step : FileStep dev s action u) : Leaked saddr total b u.kernel := by
  cases step with
  | @fopen filename modeStr _ _ _ _ ran =>
    by_cases refused : PathRefused filename
    · rw [fopen_path_refused refused] at ran
      cases ran
      exact leaked.congr rfl rfl
    · exact (fopen_leaked refused (fun drive => keeps_triple (createRoot_leaked drive))).returned leaked ran
  | fclose _ ran => exact ((fclose_leaked _).returned leaked ran).1
  | faulted => exact leaked

-- The first path that is parsed takes a block for good.
theorem run_kept_or_leaks {k : Kernel} (idle : Idle k) (ran : IsRun (FileStep dev) (.start k) trace) :
    (Guarded OpenRefused (.start k) trace ∧ Untouched k (final (.start k) trace)) ∨
      (¬ Guarded OpenRefused (.start k) trace ∧ ∃ b, b ∈ allocated (final (.start k) trace).kernel ∧ b ∉ allocated k) := by
  obtain ⟨b,free,rooted⟩ := createRoot_pins idle
  have turns (s : FileRun) (action : FileAction) (u : FileRun) (same : Untouched k s) (taken : ¬ OpenRefused s action)
      (step : FileStep dev s action u) : Leaked k.heap.saddr k.heap.table.total b u.kernel := by
    cases step with
    | fopen _ ran => exact (fopen_leaked taken rooted).returned ⟨same.heap,same.objs⟩ ran
    | fclose => exact absurd trivial taken
    | faulted => exact absurd trivial taken
  rcases final_split (untouched_step idle) turns
    (leaked_step dev) (show Untouched k (.start k) from ⟨rfl,rfl,rfl⟩) ran with same | ⟨unguarded,leaked⟩
  · exact .inl same
  · refine .inr ⟨unguarded,b,⟨leaked.pinned.inside,leaked.pinned.taken⟩,fun before => ?_⟩
    exact before.2 (free before.1)

theorem run_allocated {k : Kernel} (idle : Idle k) (ran : IsRun (FileStep dev) (.start k) trace) :
    allocated (final (.start k) trace).kernel = allocated k ↔ Guarded OpenRefused (.start k) trace := by
  rcases run_kept_or_leaks idle ran with ⟨guarded,same⟩ | ⟨unguarded,b,taken,free⟩
  · refine ⟨fun _ => guarded,fun _ => ?_⟩
    unfold allocated
    rw [same.heap]
  · refine ⟨fun equal => ?_,fun guarded => absurd guarded unguarded⟩
    rw [equal] at taken
    exact absurd taken free

theorem sample_idle : Idle sampleKernel := by
  obtain ⟨valid,empty⟩ := sample_start
  have arrays (ptr : Nat) (obj : Obj) (held : sampleKernel.objs ptr = some obj) : obj = .directoryItems [sampleEntry] := by
    obtain ⟨item,one,allocated,grown,_⟩ := kzalloc_run 32 (boot_valid bootEntries sampleDisk rfl) (.directoryItems [sampleEntry])
      (by decide) (by decide)
    unfold sampleKernel rootKernel at held
    rw [allocated] at held
    cases grown with
    | null => cases held
    | fresh _ heap =>
      by_cases same : ptr = item
      · subst same
        have placed := Kernel.place_same ((bootKernel bootEntries sampleDisk).withHeap heap) ptr (.directoryItems [sampleEntry])
        exact Option.some.inj (held.symm.trans placed)
      · have placed : (((bootKernel bootEntries sampleDisk).withHeap heap).place item (.directoryItems [sampleEntry])).objs ptr = _ :=
          Kernel.place_other same
        cases held.symm.trans placed
  refine ⟨valid,empty,fun ptr item held => ?_,fun ptr directory held => ?_⟩
  · cases arrays ptr _ held
  · cases arrays ptr _ held

-- No path, a drive letter, and a path of 257 characters.
def refusedOpens : List FileAction :=
  [.fopen [] [charR],.fopen [charA,colon,slash,charA] [charW],.fopen (pathOf asciiZero (List.replicate 254 charA)) [charR]]

theorem refused_opens_unchanged : ∃ s, IsRun (FileStep (fun _ => none)) (.start sampleKernel) (refusedOpens.map (fun action => (action,s))) ∧
    Matched (.start sampleKernel) (refusedOpens.map (fun action => (action,s))) ∧ allocated s.kernel = allocated sampleKernel := by
  have null : sampleKernel.objs 0 = none := sample_start.1.null
  have long : PathRefused (pathOf asciiZero (List.replicate 254 charA)) := by
    left
    rw [strlen_pathOf (by decide),strlen_clean (fun c member => by rw [List.eq_of_mem_replicate member]; decide),List.length_replicate]
    decide
  have step {s : FileRun} (alive : s.fault = none) (same : s.kernel.objs = sampleKernel.objs) {filename : List UInt8} (refused : PathRefused filename) :=
    refused_step alive (by rw [same]; exact null) refused (fun _ => none)
  have ran : IsRun (FileStep (fun _ => none)) (.start sampleKernel) (refusedOpens.map (fun action => (action,_))) :=
    ⟨step rfl rfl (by decide) _,step rfl rfl (by decide) _,step rfl rfl long _,trivial⟩
  exact ⟨_,ran,⟨⟨trivial,trivial,trivial,trivial⟩,rfl,rfl⟩,(run_allocated sample_idle ran).mpr ⟨.inr rfl,.inr rfl,long,trivial⟩⟩
theorem handOut_single (nonnull : ptr ≠ 0) (out : handOut after ptr (fun _ => 0) i = ptr) (other : j ≠ i) :
    handOut after ptr (fun _ => 0) j = 0 := by
  unfold handOut at *
  cases held : after.objs ptr with
  | none => rfl
  | some obj =>
    rw [held] at out
    cases obj with
    | fileDescriptor descriptor =>
      dsimp only at out ⊢
      by_cases here : (i : Int)+1 = descriptor.index
      · exact if_neg (by omega)
      · rw [if_neg here] at out
        exact absurd out.symm nonnull
    | _ => rfl

theorem closed_file_leaks : ∃ s t, IsRun (FileStep (fun _ => none)) (.start sampleKernel)
      [(.fopen (pathOf asciiZero sampleName) [charR],s),(.fclose 1,t)] ∧
    Matched (.start sampleKernel) [(.fopen (pathOf asciiZero sampleName) [charR],s),(.fclose 1,t)] ∧
    allocated t.kernel ≠ allocated sampleKernel := by
  obtain ⟨ptr,one,opens,nonnull,out,valid,opened⟩ := sample_opened (fun _ => none)
  obtain ⟨_,_,_,two,closes,_⟩ := fclose_run valid opened
  have ran : IsRun (FileStep (fun _ => none)) (.start sampleKernel)
      [(.fopen (pathOf asciiZero sampleName) [charR],_),(.fclose 1,_)] := ⟨opens,.fclose rfl closes,trivial⟩
  refine ⟨_,_,ran,⟨⟨trivial,⟨0,rfl,out.trans_ne nonnull⟩,trivial⟩,?_,rfl⟩,fun equal => ?_⟩
  · show closed 0 1 (handOut one ptr (fun _ => 0)) = _
    funext i
    unfold closed
    rw [if_pos rfl]
    by_cases here : (i : Int)+1 = 1
    · exact if_pos here
    · rw [if_neg here]
      exact handOut_single nonnull out (by omega)
  · rcases run_kept_or_leaks sample_idle ran with ⟨guarded,_⟩ | ⟨_,b,taken,free⟩
    · exact sample_taken guarded.1
    · exact free (equal ▸ taken)

end NutsOS.Files
