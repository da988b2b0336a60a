import NutsOS.Fat16.Contents
import NutsOS.Fat16.RootFile
import NutsOS.Lib.Realizes

-- The walk of the driver computes what the tables on the disk say, unless an
-- allocation fails.
namespace NutsOS.Fat16
open Word32 HeapAlloc Files DiskStreams Prog

inductive Shortage where
  | fault (fault : Fault)
  | full

-- The driver's calls, with a stop where memory runs out.
def supplied (dev : BlockDevice) : Services Shortage where
  run := embed .fault
  kzalloc size zero := do
    let ptr ← embed .fault (NutsOS.kzalloc size zero)
    if ptr = 0 then Prog.fault .full else return ptr
  kfree ptr := embed .fault (NutsOS.kfree ptr)
  loadFatDirectory item := do
    let ptr ← embed .fault (fat16LoadFatDirectory dev item)
    if ptr = errToPtr (-enomem) then Prog.fault .full else return ptr

theorem supplied_watching (dev : BlockDevice) : Watching Shortage.fault (supplied dev) dev where
  run x := watches_embed x
  kzalloc size zero := by
    refine watches_check (watches_embed _) (fun ptr => ?_)
    by_cases null : ptr = 0
    · rw [if_pos null]
      exact watches_stop (fun _ same => by cases same) _
    · rw [if_neg null]
      exact watches_pure ptr
  kfree ptr := watches_embed (NutsOS.kfree ptr)
  loadFatDirectory item := by
    refine watches_check (watches_embed _) (fun ptr => ?_)
    by_cases short : ptr = errToPtr (-enomem)
    · rw [if_pos short]
      exact watches_stop (fun _ same => by cases same) _
    · rw [if_neg short]
      exact watches_pure ptr
  reading _ _ same := same

theorem supplied_faithful (dev : BlockDevice) : Faithful (supplied dev) := by
  refine ⟨embed_run,fun {k size zero ptr after} ran nonnull => ?_⟩
  show (embed Shortage.fault (NutsOS.kzalloc size zero) >>= fun ptr => if ptr = 0 then fault .full else pure ptr) k = _
  rw [bind_run (embed_run ran),if_neg nonnull]
  rfl

theorem supplied_load {k : Kernel} (ran : fat16LoadFatDirectory dev entry k = .ok (ptr,after)) :
    (supplied dev).loadFatDirectory entry k = if ptr = errToPtr (-enomem) then .error .full else .ok (ptr,after) := by
  show (embed Shortage.fault (fat16LoadFatDirectory dev entry) >>= fun ptr => if ptr = errToPtr (-enomem) then fault .full else pure ptr) k = _
  rw [bind_run (embed_run ran)]
  split <;> rfl

theorem supplied_load_fault {k : Kernel} (failed : fat16LoadFatDirectory dev entry k = .error f) :
    (supplied dev).loadFatDirectory entry k = .error (.fault f) := bind_fault (embed_fault failed)

theorem supplied_loads (dev : BlockDevice) : Loads (supplied dev) dev := by
  intro entry k ptr after directory ran valid held
  have notShort : ptr ≠ errToPtr (-enomem) := by
    intro short
    rw [short,error_unheld valid (errToPtr_error (.inr (.inr (.inl rfl))))] at held
    cases held
  rw [supplied_load ran,if_neg notShort]

def Full (stop : Shortage) : Prop := stop = .full

theorem kzalloc_supplied {k : Kernel} (valid : HeapValid k) (positive : 1 ≤ size) (bounded : size ≤ 4294963200) (zero : Obj)
    (dev : BlockDevice) :
    Ends Full (fun ptr after => Grown k after ∧ ptr ≠ 0 ∧ k.objs ptr = none ∧ after.objs ptr = some zero)
      ((supplied dev).kzalloc size zero k) := by
  obtain ⟨ptr,after,ran⟩ := kzalloc_total _ bounded zero k
  obtain ⟨grown,result⟩ := kzalloc_fresh valid positive ran
  show Ends Full _ ((embed Shortage.fault (kzalloc size zero) >>= fun ptr => if ptr = 0 then fault .full else pure ptr) k)
  rw [bind_run (embed_run ran)]
  rcases result with ⟨null,_⟩ | ⟨nonnull,fresh,held⟩
  · rw [if_pos null]
    exact .error rfl
  · rw [if_neg nonnull]
    exact .ok ⟨grown,nonnull,fresh,held⟩

structure Loaded (base k : Kernel) (ptr : Nat) (items : List FatDirectoryItem) : Prop where
  directory : ∃ found, DirectoryAt base k ptr found ∧ found.total = (items.length : Nat) ∧
    (items ≠ [] → k.objs found.item = some (.directoryItems items))

-- What a directory's address is, when its table is known.
def LoadedAs (base k : Kernel) (ptr : Nat) : Except Int (List FatDirectoryItem) → Prop
  | .error code => ptr = errToPtr code ∧ IsError ptr
  | .ok items => Loaded base k ptr items

theorem directoryItems_nonempty (some : directoryItems n bytes ≠ []) : n ≠ 0 := by
  intro zero
  rw [zero] at some
  exact some rfl

theorem loadFatDirectory_supplied {k : Kernel} (valid : HeapValid k) (mounted : Mounted base fprivate) (same : SameVolume base k.disk)
    (dev : BlockDevice) (sub : FatDirectoryItem.isSubdirectory entry = true) :
    Realizes Shortage.fault Full (volumeOf dev base entry.low16BitsFirstCluster)
      (fun table ptr after => Grown k after ∧ LoadedAs k after ptr table) ((supplied dev).loadFatDirectory entry k) := by
  rw [← volumeOf_same mounted same dev]
  have known := mounted.after same
  have outcome := load_outcome valid known dev sub
  generalize ran : fat16LoadFatDirectory dev entry k = result at outcome
  have value {table : Except Int (List FatDirectoryItem)} {disk : Disk}
      (read : tableOf dev entry.low16BitsFirstCluster k.disk = .ok (table,disk)) :
      volumeOf dev k.disk entry.low16BitsFirstCluster = .ok table := by
    unfold volumeOf
    rw [read]
    rfl
  cases outcome with
  | full =>
    rw [supplied_load ran,if_pos rfl]
    exact .stopped rfl
  | fault table =>
    rw [supplied_load_fault ran]
    refine .fault ?_
    unfold volumeOf
    rw [table]
    rfl
  | refused table =>
    rw [supplied_load ran,if_neg (by decide)]
    exact .ok (value table) ⟨(loadFatDirectory_grown valid ran).1,rfl,errToPtr_error (.inl rfl)⟩
  | @loaded items disk ptr after directory table nonnull held =>
    obtain ⟨grown,result⟩ := loadFatDirectory_grown valid ran
    have regular : ¬ IsError ptr := by
      intro error
      rw [error_unheld grown.valid error] at held
      cases held
    rw [supplied_loads dev ran grown.valid held]
    refine .ok (value table) ⟨grown,?_⟩
    obtain ⟨found,at',loaded⟩ := result.resolve_left regular
    obtain ⟨fprivate',counted,res,bytes,private',count,read,positive,whole,contents⟩ := loaded.read
    cases private'.symm.trans (loadPrivate_run known)
    have again : tableOf dev entry.low16BitsFirstCluster k.disk = .ok (.ok (directoryItems found.total.toNat bytes),after.disk) := by
      unfold tableOf
      rw [bind_run private',bind_run count,if_neg (by omega),bind_run read]
      dsimp only
      rw [if_neg (by omega)]
      rfl
    cases again.symm.trans table
    refine ⟨found,at',?_,fun some => contents ?_⟩
    · rw [directoryItems_length]
      omega
    · have count := directoryItems_nonempty some
      omega

-- An item that stands for a node, made of objects that `base` has not.
def Holds (base k : Kernel) (ptr : Nat) : Node → Prop
  | .file entry => ∃ target, ItemAt base k ptr ⟨target,.file⟩ ∧ k.objs target = some (.directoryItems [entry])
  | .directory items => ∃ target, ItemAt base k ptr ⟨target,.directory⟩ ∧ Loaded base k target items
  | .failed code => ItemAt base k ptr ⟨errToPtr code,.directory⟩ ∧ IsError (errToPtr code)

theorem Loaded.behind {k one two : Kernel} (loaded : Loaded one two ptr items) (item : Nat) (first : Grown k one)
    (held : (one.objs item).isSome) (obj : Obj) :
    Loaded k (two.place item obj) ptr items := by
  obtain ⟨found,at',total,array⟩ := loaded.directory
  have other {a : Nat} (empty : one.objs a = none) : a ≠ item := by
    intro same
    rw [← same,empty] at held
    cases held
  refine ⟨found,⟨?_,first.fresh at'.fresh,first.fresh at'.freshEntries,?_⟩,total,fun some => ?_⟩
  · rw [Kernel.place_other (other at'.fresh)]
    exact at'.held
  · rcases at'.entries with zero | ⟨list,array⟩ | ⟨empty,block⟩
    · exact .inl zero
    · refine .inr (.inl ⟨list,?_⟩)
      rw [Kernel.place_other (other at'.freshEntries)]
      exact array
    · exact .inr (.inr ⟨empty,block⟩)
  · rw [Kernel.place_other (other at'.freshEntries)]
    exact array some

theorem copyItem_supplied {k : Kernel} (valid : HeapValid k) (dev : BlockDevice) (entry : FatDirectoryItem) :
    Ends Full (fun copy after => Grown k after ∧ k.objs copy = none ∧ after.objs copy = some (.directoryItems [entry]))
      (copyDirectoryItemWith (supplied dev) entry k) := by
  unfold copyDirectoryItemWith
  refine (kzalloc_supplied valid (by decide) (by decide) _ dev).bind (fun copy one answer => ?_)
  obtain ⟨first,nonnull,fresh,held⟩ := answer
  have stored : (supplied dev).run (store copy (.directoryItems [entry])) one = .ok ((),one.place copy (.directoryItems [entry])) := rfl
  rw [if_neg nonnull,bind_run stored]
  exact .ok ⟨first.place fresh (by simp [held]) _,fresh,Kernel.place_same _ _ _⟩

theorem newFatItem_supplied {k : Kernel} (valid : HeapValid k) (mounted : Mounted base fprivate) (same : SameVolume base k.disk)
    (dev : BlockDevice) (entry : FatDirectoryItem) :
    Realizes Shortage.fault Full ((volumeOf dev base).node entry)
      (fun node ptr after => Grown k after ∧ ptr ≠ 0 ∧ Holds k after ptr node) (newFatItemWith (supplied dev) entry k) := by
  unfold newFatItemWith Volume.node
  refine .after (kzalloc_supplied valid (by decide) (by decide) _ dev) (fun fatItem one answer => ?_)
  obtain ⟨first,nonnull,fresh,held⟩ := answer
  rw [if_neg nonnull]
  by_cases sub : FatDirectoryItem.isSubdirectory entry = true
  · rw [if_pos sub,if_pos sub]
    refine (loadFatDirectory_supplied first.valid mounted (same.trans first.volume) dev sub).map (fun table directory two answer => ?_)
    obtain ⟨second,loaded⟩ := answer
    have kept := second.held held
    let after := two.place fatItem (.fatItem ⟨directory,.directory⟩)
    have stored : (supplied dev).run (store fatItem (.fatItem ⟨directory,.directory⟩)) two = .ok ((),after) := rfl
    rw [bind_run stored]
    refine .ok ⟨(first.trans second).place fresh (by simp [kept]) _,nonnull,?_⟩
    cases table with
    | error code =>
      obtain ⟨rfl,error⟩ := loaded
      exact ⟨⟨Kernel.place_same _ _ _,fresh,.failed error⟩,error⟩
    | ok items =>
      have behind := loaded.behind fatItem first (by simp [held]) (.fatItem ⟨directory,.directory⟩)
      obtain ⟨found,at',_⟩ := id behind.directory
      exact ⟨directory,⟨Kernel.place_same _ _ _,fresh,.directory at'⟩,behind⟩
  · rw [if_neg sub,if_neg sub]
    refine .after (copyItem_supplied first.valid dev entry) (fun copy two answer => ?_)
    obtain ⟨second,new,array⟩ := answer
    have kept := second.held held
    have different : copy ≠ fatItem := by
      intro same
      rw [same,held] at new
      cases new
    let after := two.place fatItem (.fatItem ⟨copy,.file⟩)
    have stored : (supplied dev).run (store fatItem (.fatItem ⟨copy,.file⟩)) two = .ok ((),after) := rfl
    have target : after.objs copy = some (.directoryItems [entry]) := (Kernel.place_other different).trans array
    rw [bind_run stored]
    exact .ok rfl ⟨(first.trans second).place fresh (by simp [kept]) _,nonnull,copy,
      ⟨Kernel.place_same _ _ _,fresh,.file target (first.fresh new)⟩,target⟩

def Finds (k after : Kernel) (ptr : Nat) : Option Node → Prop
  | none => ptr = 0 ∧ after = k
  | some node => ptr ≠ 0 ∧ Grown k after ∧ Holds k after ptr node

theorem findItem_search {services : Services ε} {lift : Fault → ε} (faithful : Faithful services) (seen rest : List FatDirectoryItem)
    {k : Kernel} (faults : ∀ f, services.run (fault f : KernelProg Nat) k = .error (lift f))
    (held : count ≠ 0 → k.objs directory.item = some (.directoryItems (seen++rest))) :
    findItemWith services directory (partString name) count seen.length k =
      match search name count rest seen.length with
      | .error fault => .error (lift fault)
      | .ok none => .ok (0,k)
      | .ok (some entry) => newFatItemWith services entry k := by
  induction count generalizing seen rest with
  | zero => rfl
  | succ count ih =>
    have array := held (Nat.succ_ne_zero count)
    have loaded : services.run (loadAs asDirectoryItems directory.item) k = .ok (seen++rest,k) :=
      faithful.run (loadAs_run asDirectoryItems array rfl)
    rw [findItemWith,bind_run loaded]
    cases rest with
    | nil =>
      rw [List.append_nil,List.getElem?_eq_none (Nat.le_refl _)]
      exact faults _
    | cons entry rest =>
      have here : (seen++entry::rest)[seen.length]? = some entry := by simp
      rw [here,search]
      dsimp only
      by_cases found : entryMatches entry (partString name) = true
      · rw [if_pos found,if_pos found]
      · rw [if_neg found,if_neg found]
        have next := ih (seen++[entry]) rest (fun _ => by simpa using array)
        rw [List.length_append] at next
        exact next

theorem findItemInDirectory_search {k : Kernel} {table : Table} (dev : BlockDevice) (total : directory.total.toNat = table.total)
    (held : table.total ≠ 0 → k.objs directory.item = some (.directoryItems table.items)) (name : List UInt8) :
    findItemInDirectoryWith (supplied dev) directory (partString name) k =
      match table.find name with
      | .error fault => .error (.fault fault)
      | .ok none => .ok (0,k)
      | .ok (some entry) => newFatItemWith (supplied dev) entry k := by
  unfold findItemInDirectoryWith
  rw [total]
  exact findItem_search (supplied_faithful dev) [] _ (fun _ => rfl) held

theorem findItemInDirectory_supplied {k : Kernel} {table : Table} (valid : HeapValid k) (mounted : Mounted base fprivate)
    (same : SameVolume base k.disk) (dev : BlockDevice) (total : directory.total.toNat = table.total)
    (held : table.total ≠ 0 → k.objs directory.item = some (.directoryItems table.items)) (name : List UInt8) :
    Realizes Shortage.fault Full ((volumeOf dev base).lookup table name) (fun node ptr after => Finds k after ptr node)
      (findItemInDirectoryWith (supplied dev) directory (partString name) k) := by
  unfold Volume.lookup
  rw [findItemInDirectory_search dev total held]
  cases table.find name with
  | error fault => exact .fault rfl
  | ok answer =>
    cases answer with
    | none => exact .ok rfl ⟨rfl,rfl⟩
    | some entry =>
      exact (newFatItem_supplied valid mounted same dev entry).mapped (fun node ptr after answer => ⟨answer.2.1,answer.1,answer.2.2⟩)

-- Calls that free and load as the driver does.
structure Embedded {ε : Type} (lift : Fault → ε) (services : Services ε) : Prop where
  run : ∀ {α : Type} (x : KernelProg α), services.run x = embed lift x
  kfree : ∀ ptr, services.kfree ptr = embed lift (NutsOS.kfree ptr)
  reading : ∀ {α : Type} (found : FatItem) (member : Member) (x : Prog ε Kernel α), services.reading found member x = x

theorem supplied_embedded (dev : BlockDevice) : Embedded Shortage.fault (supplied dev) := ⟨fun _ => rfl,fun _ => rfl,fun _ _ _ => rfl⟩

section
variable {ε : Type} {lift : Fault → ε} {services : Services ε} (embedded : Embedded lift services)
include embedded

theorem freeDirectory_embed (ptr : Nat) : freeDirectoryWith services ptr = embed lift (fat16FreeDirectory ptr) := by
  unfold freeDirectoryWith fat16FreeDirectory
  by_cases null : ptr = 0
  · rw [if_pos null,if_pos null]
    rfl
  rw [if_neg null,if_neg null,embed_bind,embedded.run]
  congr 1
  funext found
  rw [embed_bind,embedded.kfree,embedded.kfree]
  by_cases none : found.item = 0
  · rw [when_false (by simp [none]),when_false (by simp [none])]
    rfl
  · rw [when_true none,when_true none]

theorem fatItemFree_embed (ptr : Nat) : fatItemFreeWith services ptr = embed lift (fat16FatItemFree ptr) := by
  unfold fatItemFreeWith fat16FatItemFree
  by_cases null : ptr = 0
  · rw [if_pos null,if_pos null]
    rfl
  rw [if_neg null,if_neg null,embed_bind,embedded.run]
  congr 1
  funext found
  cases found.type with
  | directory =>
    dsimp only
    rw [embed_bind,embedded.reading,freeDirectory_embed embedded,embedded.kfree]
  | file =>
    dsimp only
    rw [embed_bind,embedded.reading,embedded.kfree,embedded.kfree]

end

theorem fatItemFree_supplied {base k : Kernel} (grown : Grown base k) (valid : ItemAt base k ptr item) (dev : BlockDevice)
    (loaded : item.type = .directory → ∃ found, k.objs item.target = some (.fatDirectory found)) :
    ∃ after, fatItemFreeWith (supplied dev) ptr k = .ok ((),after) ∧ Grown base after ∧
      (∀ a, ¬ ItemHas item k ptr a → after.objs a = k.objs a) ∧ KeepsFree k after ∧
      ∀ n, Room k.heap n → Room after.heap n := by
  have nonnull {a : Nat} {obj : Obj} (held : k.objs a = some obj) : a ≠ 0 := (grown.valid.low (by simp [held] : (k.objs a).isSome)).1
  have freed : ∃ after, fat16FatItemFree ptr k = .ok ((),after) := by
    unfold fat16FatItemFree
    rw [if_neg (nonnull valid.held),bind_run (loadAs_run asFatItem valid.held rfl)]
    obtain ⟨target,type⟩ := item
    cases type with
    | file => exact ⟨_,rfl⟩
    | directory =>
      obtain ⟨found,held⟩ := loaded rfl
      obtain ⟨one,emptied⟩ := freeDirectory_total (nonnull held) held
      dsimp only
      rw [bind_run emptied]
      exact ⟨_,rfl⟩
  obtain ⟨after,ran⟩ := freed
  obtain ⟨left,kept⟩ := fatItemFree_grown grown valid ran
  exact ⟨after,by rw [fatItemFree_embed (supplied_embedded dev)]; exact embed_run ran,left,kept,fatItemFree_keeps_free _ _ _ _ ran,
    fun n => fatItemFree_room ptr n _ _ _ ran⟩

-- Calls that find like these and give back all that an item owns, each in its own way.
structure Supplying (services : Services Shortage) (dev : BlockDevice) : Prop where
  run : ∀ {α : Type} (x : KernelProg α), services.run x = embed .fault x
  reading : ∀ {α : Type} (found : FatItem) (member : Member) (x : Prog Shortage Kernel α), services.reading found member x = x
  find : ∀ directory name, findItemInDirectoryWith services directory name = findItemInDirectoryWith (supplied dev) directory name
  free : ∀ {base k ptr item}, Grown base k → ItemAt base k ptr item →
    (item.type = .directory → ∃ found, k.objs item.target = some (.fatDirectory found)) →
    ∃ after, fatItemFreeWith services ptr k = .ok ((),after) ∧ Grown base after ∧
      (∀ a, ¬ ItemHas item k ptr a → after.objs a = k.objs a) ∧ KeepsFree k after ∧ ∀ n, Room k.heap n → Room after.heap n

theorem supplied_supplying (dev : BlockDevice) : Supplying (supplied dev) dev :=
  ⟨fun _ => rfl,fun _ _ _ => rfl,fun _ _ => rfl,fun grown valid => fatItemFree_supplied grown valid dev⟩

theorem Holds.survives {base k middle after : Kernel} (holds : Holds k middle ptr node) (heap : HeapValid middle)
    (grown : Grown base k) (same : ∀ a, k.objs a = none → after.objs a = middle.objs a) (blocks : KeepsFree middle after) :
    Holds base after ptr node := by
  cases node with
  | file entry =>
    obtain ⟨target,valid,array⟩ := holds
    refine ⟨target,valid.survives grown same blocks,?_⟩
    cases valid.target with
    | noCopy =>
      rw [heap.null] at array
      cases array
    | file held fresh =>
      rw [same _ fresh]
      exact array
  | directory items =>
    obtain ⟨target,valid,⟨found,at',total,array⟩⟩ := holds
    refine ⟨target,valid.survives grown same blocks,found,at'.survives grown same blocks,total,fun some => ?_⟩
    rw [same _ at'.freshEntries]
    exact array some
  | failed code => exact ⟨holds.1.survives grown same blocks,holds.2⟩

theorem Holds.nonnull {base k : Kernel} (holds : Holds base k ptr node) (heap : HeapValid k) : ptr ≠ 0 := by
  have away {item : FatItem} (valid : ItemAt base k ptr item) : ptr ≠ 0 := by
    intro null
    have held := valid.held
    rw [null,heap.null] at held
    cases held
  cases node with
  | file entry => exact away holds.choose_spec.1
  | directory items => exact away holds.choose_spec.1
  | failed code => exact away holds.1

def Answers (base after : Kernel) (ptr : Nat) : Option Node → Prop
  | none => ptr = 0 ∧ Grown base after
  | some node => ptr ≠ 0 ∧ Grown base after ∧ Holds base after ptr node

theorem walkParts_enter {base k : Kernel} (supplying : Supplying services dev) (grown : Grown base k)
    (valid : ItemAt base k current ⟨target,.directory⟩) (part : PartAt k next name later)
    (opened : k.objs target = some (.fatDirectory found)) (fuel : Nat) :
    walkPartsWith services (fuel+1) current next k = (do
      let nextItem ← findItemInDirectoryWith (supplied dev) found (partString name)
      fatItemFreeWith services current
      if nextItem = 0 then return 0
      walkPartsWith services fuel nextItem later) k := by
  have more := part.nonnull grown.valid
  have loaded : services.run (loadAs asFatItem current) k = .ok (⟨target,.directory⟩,k) := by
    rw [supplying.run]
    exact embed_run (loadAs_run asFatItem valid.held rfl)
  have named : services.run (loadPart next) k = .ok ((partString name,later),k) := by
    rw [supplying.run]
    exact embed_run (loadPart_run part)
  have directory : services.run (loadAs asFatDirectory target) k = .ok (found,k) := by
    rw [supplying.run]
    exact embed_run (loadAs_run asFatDirectory opened rfl)
  rw [walkPartsWith,if_neg more,bind_run loaded,if_neg (by simp),bind_run named]
  dsimp only
  rw [supplying.reading,bind_run directory,supplying.find]

theorem walkParts_leave {base k middle : Kernel} (supplying : Supplying services dev) (grown : Grown base k)
    (valid : ItemAt base k current ⟨target,.directory⟩) (opened : k.objs target = some (.fatDirectory found)) (searched : found.total ≠ 0)
    (inside : (k.objs found.item).isSome) (finds : Finds k middle nextItem (some node)) (fuel later : Nat) :
    ∃ after, (do
        fatItemFreeWith services current
        if nextItem = 0 then return 0
        walkPartsWith services fuel nextItem later) middle = walkPartsWith services fuel nextItem later after ∧
      Grown base after ∧ Holds base after nextItem node ∧ ∀ n, Room middle.heap n → Room after.heap n := by
  obtain ⟨nonnull,grownMiddle,nextHolds⟩ := finds
  have still := valid.searched opened grownMiddle (fun none => absurd none searched)
  obtain ⟨after,freed,grownAfter,kept,blocks,room⟩ := supplying.free (grown.trans grownMiddle) still
    (fun _ => ⟨found,grownMiddle.held opened⟩)
  have apart {a : Nat} (fresh : k.objs a = none) : ¬ ItemHas ⟨target,.directory⟩ middle current a :=
    valid.apart opened (grownMiddle.kept _ (by simp [opened])) inside fresh
  refine ⟨after,?_,grownAfter,nextHolds.survives grownMiddle.valid grown (fun a fresh => kept a (apart fresh)) blocks,room⟩
  rw [bind_run freed,if_neg nonnull]

theorem walkParts_supplied {base k : Kernel} (supplying : Supplying services dev) (mounted : Mounted disk fprivate)
    (same : SameVolume disk base.disk) (grown : Grown base k) (holds : Holds base k current node) (list : PathList base next names)
    (enough : names.length < fuel) :
    Realizes Shortage.fault Full ((volumeOf dev disk).walk node names) (fun node ptr after => Answers base after ptr node)
      (walkPartsWith services fuel current next k) := by
  induction names generalizing current next node k fuel with
  | nil =>
    obtain ⟨fuel,rfl⟩ := Nat.exists_eq_add_of_lt enough
    obtain rfl : next = 0 := list
    rw [walkPartsWith,if_pos rfl]
    cases node <;> exact .ok rfl ⟨holds.nonnull grown.valid,grown,holds⟩
  | cons name rest ih =>
    obtain ⟨fuel,rfl⟩ : ∃ more, fuel = more+1 := ⟨fuel-1,by rw [List.length_cons] at enough; omega⟩
    obtain ⟨buf,later,part,chars,left⟩ := list
    have partAt : PartAt k next name later := ⟨buf,grown.held part,grown.held chars⟩
    have more := partAt.nonnull grown.valid
    have loaded {item : FatItem} (valid : ItemAt base k current item) : services.run (loadAs asFatItem current) k = .ok (item,k) := by
      rw [supplying.run]
      exact embed_run (loadAs_run asFatItem valid.held rfl)
    cases node with
    | file entry =>
      obtain ⟨target,valid,_⟩ := holds
      obtain ⟨after,freed,still,_⟩ := supplying.free grown valid (fun directory => by cases directory)
      rw [walkPartsWith,if_neg more,bind_run (loaded valid),if_pos (by simp),bind_run freed]
      exact .ok rfl ⟨rfl,still⟩
    | failed code =>
      obtain ⟨valid,error⟩ := holds
      have named : services.run (loadPart next) k = .ok ((partString name,later),k) := by
        rw [supplying.run]
        exact embed_run (loadPart_run partAt)
      have fault : services.run (loadAs asFatDirectory (errToPtr code)) k = .error (.fault (.deref (errToPtr code))) := by
        rw [supplying.run]
        refine embed_fault ?_
        unfold loadAs
        rw [get_bind,error_unheld grown.valid error]
        rfl
      rw [walkPartsWith,if_neg more,bind_run (loaded valid),if_neg (by simp),bind_run named]
      dsimp only
      rw [supplying.reading,bind_fault fault]
      exact .fault rfl
    | directory items =>
      obtain ⟨target,valid,⟨found,at',total,array⟩⟩ := holds
      have count : found.total.toNat = (Table.ofItems items).total := by
        rw [total]
        rfl
      have held : (Table.ofItems items).total ≠ 0 → k.objs found.item = some (.directoryItems (Table.ofItems items).items) :=
        fun some => array (fun none => some (by rw [none]; rfl))
      rw [walkParts_enter supplying grown valid partAt at'.held]
      refine (findItemInDirectory_supplied grown.valid mounted (same.trans grown.volume) dev count held name).bind
        (fun answer nextItem middle value finds => ?_)
      cases answer with
      | none =>
        obtain ⟨rfl,rfl⟩ := finds
        obtain ⟨after,freed,still,_⟩ := supplying.free grown valid (fun _ => ⟨found,at'.held⟩)
        rw [bind_run freed,if_pos rfl]
        exact .ok rfl ⟨rfl,still⟩
      | some nextNode =>
        -- an empty directory was not searched
        have nonempty : items ≠ [] := by
          intro none
          rw [none] at value
          cases value
        have searched : found.total ≠ 0 := fun none => nonempty (List.eq_nil_of_length_eq_zero (by omega))
        obtain ⟨after,gone,grownAfter,nextHolds,_⟩ := walkParts_leave supplying grown valid at'.held searched (by simp [array nonempty]) finds
          fuel later
        rw [gone]
        exact ih grownAfter nextHolds left (by rw [List.length_cons] at enough; omega)

-- The root directory of the mounted volume, as it is searched.
structure RootSearch (k : Kernel) (fprivate : FatPrivate) (root : Table) : Prop where
  mounted : Mounted k.disk fprivate
  total : fprivate.rootDirectory.total.toNat = root.total
  held : root.total ≠ 0 → k.objs fprivate.rootDirectory.item = some (.directoryItems root.items)

theorem getDirectoryEntry_supplied {k : Kernel} (supplying : Supplying services dev) (valid : HeapValid k)
    (root : RootSearch k fprivate table) (list : PathList k path names) (some : names ≠ []) :
    Realizes Shortage.fault Full ((volumeOf dev k.disk).resolve table names) (fun node ptr after => Answers k after ptr node)
      (getDirectoryEntryWith services path k) := by
  obtain ⟨name,rest,rfl⟩ := List.exists_cons_of_ne_nil some
  have bound := list.bounded valid
  obtain ⟨buf,later,part,chars,left⟩ := list
  have known : services.run (onDisk loadPrivate) k = .ok (fprivate,k) := by
    rw [supplying.run]
    exact embed_run (onDisk_run (loadPrivate_run root.mounted))
  have named : services.run (loadPart path) k = .ok ((partString name,later),k) := by
    rw [supplying.run]
    exact embed_run (loadPart_run ⟨buf,part,chars⟩)
  unfold getDirectoryEntryWith
  rw [bind_run known,bind_run named]
  dsimp only
  rw [supplying.find]
  refine (findItemInDirectory_supplied valid root.mounted (.refl _) dev root.total root.held name).bind (fun answer item middle _ finds => ?_)
  cases answer with
  | none =>
    obtain ⟨rfl,rfl⟩ := finds
    rw [if_pos rfl]
    exact .ok rfl ⟨rfl,.refl valid⟩
  | some node =>
    obtain ⟨nonnull,grown,holds⟩ := finds
    rw [if_neg nonnull]
    exact walkParts_supplied supplying root.mounted (.refl _) grown holds left (by rw [List.length_cons] at bound; omega)

end NutsOS.Fat16
