import NutsOS.Fat16.Resolution

-- The memory that a walk takes, told from the volume and the heap in front of it.
namespace NutsOS.Fat16
open Word32 HeapAlloc Files DiskStreams Prog

-- The blocks of a directory: its own, and those of its array, one at least.
def directoryBlocks (dev : BlockDevice) (disk : Disk) (cluster : Nat) : Nat :=
  match (do
    let fprivate ← loadPrivate
    fat16GetTotalItemsForDirectory dev (toUint32 (fat16ClusterToSector fprivate cluster)) : DiskProg Int) disk with
  | .ok (total,_) => 1+max 1 (blocksFor (toUint32 (toInt32 (total*32))))
  | .error _ => 1

def itemBlocks (dev : BlockDevice) (disk : Disk) (entry : FatDirectoryItem) : Nat :=
  1+if FatDirectoryItem.isSubdirectory entry then directoryBlocks dev disk entry.low16BitsFirstCluster else 1

-- What is found on the way under these names.
def walkBlocks (dev : BlockDevice) (disk : Disk) : Table → List (List UInt8) → Nat
  | _,[] => 0
  | table,name::rest =>
    match table.find name with
    | .ok (some entry) => itemBlocks dev disk entry+
        match (volumeOf dev disk).node entry with
        | .ok (.directory items) => walkBlocks dev disk (.ofItems items) rest
        | _ => 0
    | _ => 0

theorem directoryBlocks_same (mounted : Mounted base fprivate) (same : SameVolume base disk) (dev : BlockDevice) (cluster : Nat) :
    directoryBlocks dev disk cluster = directoryBlocks dev base cluster := by
  have known : Agree (Copies base) (Copies base) loadPrivate loadPrivate := by
    intro one two copies
    rw [loadPrivate_run (mounted.after copies.1),loadPrivate_run (mounted.after copies.2)]
    exact .ok _ copies
  have agree := agree_bind known (fun found => totalItems_agree mounted dev (toUint32 (fat16ClusterToSector found (cluster : Nat))))
  have value := (agree disk base ⟨same,.refl base⟩)
  unfold directoryBlocks
  generalize (loadPrivate >>= _ : DiskProg Int) disk = one at value
  generalize (loadPrivate >>= _ : DiskProg Int) base = two at value
  cases value with
  | ok => rfl
  | error => rfl

theorem directoryBlocks_counted (known : loadPrivate disk = .ok (fprivate,disk))
    (counted : fat16GetTotalItemsForDirectory dev (toUint32 (fat16ClusterToSector fprivate (cluster : Nat))) disk = .ok (total,after)) :
    directoryBlocks dev disk cluster = 1+max 1 (blocksFor (toUint32 (toInt32 (total*32)))) := by
  unfold directoryBlocks
  rw [bind_run known,counted]

def NotFull (stop : Shortage) : Prop := stop ≠ .full

theorem kzalloc_stocked (size rest : Nat) {k : Kernel} (valid : HeapValid k) (positive : 1 ≤ size) (bounded : size ≤ 4294963200) (zero : Obj)
    (dev : BlockDevice) (room : Room k.heap (blocksFor size+rest)) :
    Ends NotFull (fun ptr after => Served k zero rest ptr after) ((supplied dev).kzalloc size zero k) := by
  obtain ⟨ptr,after,ran,served⟩ := kzalloc_served size rest valid zero positive bounded room
  show Ends _ _ ((embed Shortage.fault (kzalloc size zero) >>= fun ptr => if ptr = 0 then fault .full else pure ptr) k)
  rw [bind_run (embed_run ran),if_neg served.nonnull]
  exact .ok served

theorem array_stocked {k : Kernel} (valid : HeapValid k) (bounded : size ≤ 4294963200) (room : Room k.heap (max 1 (blocksFor size)+rest))
    (ran : kzalloc size zero k = .ok (ptr,after)) : ptr ≠ 0 ∧ Room after.heap rest := by
  by_cases empty : size = 0
  · subst empty
    have none : blocksFor 0 = 0 := rfl
    obtain ⟨other,_,again,nonnull,_⟩ := kzalloc_some 0 valid zero bounded (room.less (by omega))
    cases again.symm.trans ran
    refine ⟨nonnull,?_⟩
    cases (kzalloc_ok valid ran).2 with
    | null null => exact absurd null nonnull
    | empty _ _ same =>
      rw [same]
      exact room.less (by omega)
    | fresh positive => omega
  · obtain ⟨other,_,again,served⟩ := kzalloc_served size rest valid zero (by omega) bounded (room.less (by omega))
    cases again.symm.trans ran
    exact ⟨served.nonnull,served.room⟩

theorem freeDirectory_room (ptr n : Nat) : Within (fun k after => Room k.heap n → Room after.heap n) (fat16FreeDirectory ptr) :=
  freeDirectory_within (fun _ room => room) (fun one two room => two (one room)) (fun _ _ _ _ ran room => kfree_room room ran) ptr

theorem Counting.stocked {k : Kernel} (begun : Counting dev entry k directory total one two three fprivate) (valid : HeapValid k)
    (room : Room k.heap (directoryBlocks dev k.disk entry.low16BitsFirstCluster+rest)) :
    Room three.heap (max 1 (blocksFor (toUint32 (toInt32 (total*32))))+rest) := by
  have counted := begun.taken valid
  rw [directoryBlocks_counted counted.known counted.read,Nat.add_assoc] at room
  obtain ⟨_,_,again,served⟩ := kzalloc_served 16 _ valid (.fatDirectory ⟨0,0,0,0⟩) (by decide) (by decide) room
  cases again.symm.trans begun.allocated
  obtain ⟨_,_,equalTwo⟩ := Prog.focus_ok.mp begun.loaded
  obtain ⟨_,_,equalThree⟩ := Prog.focus_ok.mp begun.counted
  rw [equalThree,equalTwo]
  exact served.room

theorem Arrayed.stocked {three : Kernel} (arrayed : Arrayed directory total three five items) (valid : HeapValid three)
    (room : Room three.heap (max 1 (blocksFor (toUint32 (toInt32 (total*32))))+rest)) : items ≠ 0 ∧ Room five.heap rest := by
  obtain ⟨four,rfl,array⟩ := arrayed.array
  have low := arrayed.counted
  have high := arrayed.bound
  have bounded : toUint32 (toInt32 (total*32)) ≤ 4294963200 := by
    unfold toUint32 toInt32
    split <;> omega
  have left : items ≠ 0 ∧ Room four.heap rest := array_stocked valid bounded room array
  exact left

theorem filled_heap {k : Kernel} {size : Int} (ran : Prog.when (size ≠ 0) (do
    let old ← loadAs asDirectoryItems items
    store items (.directoryItems (directoryItems old.length bytes))) k = .ok ((),after)) : after.heap = k.heap := by
  by_cases none : size = 0
  · rw [when_false (by simp [none])] at ran
    cases ran
    rfl
  · rw [when_true none] at ran
    obtain ⟨old,same,loaded,stored⟩ := bind_ok.mp ran
    obtain ⟨_,rfl⟩ := loadAs_ok.mp loaded
    cases stored
    rfl

theorem load_stocked {k : Kernel} (valid : HeapValid k) (mounted : Mounted base fprivate) (same : SameVolume base k.disk)
    (room : Room k.heap (directoryBlocks dev base entry.low16BitsFirstCluster+rest))
    (ran : fat16LoadFatDirectory dev entry k = .ok (ptr,after)) : ptr ≠ errToPtr (-enomem) ∧ Room after.heap rest := by
  rw [← directoryBlocks_same mounted same] at room
  cases loadFatDirectory_cases ran with
  | noDirectory => exact ⟨by decide,room.less (by omega)⟩
  | full allocated =>
    have one : 1 ≤ directoryBlocks dev k.disk entry.low16BitsFirstCluster := by
      unfold directoryBlocks
      split <;> omega
    obtain ⟨_,_,again,served⟩ := kzalloc_served 16 0 valid (.fatDirectory ⟨0,0,0,0⟩) (by decide) (by decide)
      (room.less (by show 1+0 ≤ _; omega))
    cases again.symm.trans allocated
    exact absurd rfl served.nonnull
  | uncounted begun freed =>
    have left := begun.stocked valid room
    exact ⟨by decide,freeDirectory_room _ rest _ _ _ freed (left.less (by omega))⟩
  | noArray begun arrayed =>
    have counted := begun.taken valid
    exact absurd rfl (arrayed.stocked counted.grown.valid (begun.stocked valid room)).1
  | unread begun arrayed nonnull read freed =>
    have counted := begun.taken valid
    obtain ⟨_,left⟩ := arrayed.stocked counted.grown.valid (begun.stocked valid room)
    obtain ⟨_,_,equal⟩ := Prog.focus_ok.mp read
    refine ⟨by decide,freeDirectory_room _ rest _ _ _ freed ?_⟩
    rw [equal]
    exact left
  | read begun arrayed nonnull good read filled =>
    have counted := begun.taken valid
    obtain ⟨_,left⟩ := arrayed.stocked counted.grown.valid (begun.stocked valid room)
    obtain ⟨_,_,equal⟩ := Prog.focus_ok.mp read
    have made := arrayed.made counted valid
    obtain ⟨grown,held,_⟩ := made.read counted.fresh nonnull (readInternal_reads dev _ _ _) read
    refine ⟨fun short => ?_,?_⟩
    · have unheld := error_unheld grown.valid (errToPtr_error (.inr (.inr (.inl rfl))))
      rw [← short,held.held] at unheld
      cases unheld
    · rw [filled_heap filled,equal]
      exact left

theorem copyItem_stocked {k : Kernel} (valid : HeapValid k) (dev : BlockDevice) (entry : FatDirectoryItem) (room : Room k.heap (1+rest)) :
    Ends NotFull (fun _ after => Room after.heap rest) (copyDirectoryItemWith (supplied dev) entry k) := by
  unfold copyDirectoryItemWith
  refine (kzalloc_stocked 32 rest valid (by decide) (by decide) _ dev room).bind (fun copy one served => ?_)
  have stored : (supplied dev).run (store copy (.directoryItems [entry])) one = .ok ((),one.place copy (.directoryItems [entry])) := rfl
  rw [if_neg served.nonnull,bind_run stored]
  exact .ok served.room

theorem newFatItem_stocked {k : Kernel} (valid : HeapValid k) (mounted : Mounted base fprivate) (same : SameVolume base k.disk)
    (room : Room k.heap (itemBlocks dev base entry+rest)) :
    Ends NotFull (fun _ after => Room after.heap rest) (newFatItemWith (supplied dev) entry k) := by
  unfold itemBlocks at room
  rw [Nat.add_assoc] at room
  unfold newFatItemWith
  refine (kzalloc_stocked 8 _ valid (by decide) (by decide) _ dev room).bind (fun fatItem one served => ?_)
  have left := served.room
  rw [if_neg served.nonnull]
  by_cases sub : FatDirectoryItem.isSubdirectory entry = true
  · rw [if_pos sub] at left ⊢
    have loads : Ends NotFull (fun _ after => Room after.heap rest) ((supplied dev).loadFatDirectory entry one) := by
      cases ran : fat16LoadFatDirectory dev entry one with
      | error e =>
        rw [supplied_load_fault ran]
        exact .error (fun equal => by cases equal)
      | ok result =>
        obtain ⟨ptr,two⟩ := result
        obtain ⟨enough,roomTwo⟩ := load_stocked served.grown.valid mounted (same.trans served.grown.volume) left ran
        rw [supplied_load ran,if_neg enough]
        exact .ok roomTwo
    exact loads.bind (fun directory two roomTwo => .ok roomTwo)
  · rw [if_neg sub] at left ⊢
    exact (copyItem_stocked served.grown.valid dev entry left).bind (fun copy two roomTwo => .ok roomTwo)

theorem findItemInDirectory_stocked {k : Kernel} {table : Table} (valid : HeapValid k) (mounted : Mounted base fprivate)
    (same : SameVolume base k.disk) (total : directory.total.toNat = table.total)
    (held : table.total ≠ 0 → k.objs directory.item = some (.directoryItems table.items)) (looked : table.find name = .ok (some entry))
    (room : Room k.heap (itemBlocks dev base entry+rest)) :
    Ends NotFull (fun item after => Room after.heap rest ∧ ∃ node, (volumeOf dev base).node entry = .ok node ∧ Finds k after item (some node))
      (findItemInDirectoryWith (supplied dev) directory (partString name) k) := by
  have realizes := findItemInDirectory_supplied valid mounted same dev total held name
  have searched := findItemInDirectory_search dev total held name
  rw [looked] at searched
  have made : findItemInDirectoryWith (supplied dev) directory (partString name) k = newFatItemWith (supplied dev) entry k := searched
  have ends := newFatItem_stocked valid mounted same room
  rw [← made] at ends
  unfold Volume.lookup at realizes
  rw [looked] at realizes
  generalize findItemInDirectoryWith (supplied dev) directory (partString name) k = result at realizes ends
  cases ends with
  | error other => exact .error other
  | ok left =>
    cases value : (volumeOf dev base).node entry with
    | error e =>
      dsimp only [Bind.bind,Except.bind] at realizes
      rw [value] at realizes
      cases realizes with
      | ok absurd => cases absurd
    | ok node =>
      dsimp only [Bind.bind,Except.bind] at realizes
      rw [value] at realizes
      cases realizes with
      | ok equal finds =>
        cases equal
        exact .ok ⟨left,node,rfl,finds⟩

-- The blocks of what lies below a node.
def Node.blocks (dev : BlockDevice) (disk : Disk) (names : List (List UInt8)) : Node → Nat
  | .directory items => walkBlocks dev disk (.ofItems items) names
  | _ => 0

theorem walkBlocks_found {table : Table} (looked : table.find name = .ok (some entry)) (value : (volumeOf dev disk).node entry = .ok node) :
    walkBlocks dev disk table (name::rest) = itemBlocks dev disk entry+node.blocks dev disk rest := by
  rw [walkBlocks,looked]
  dsimp only
  rw [value]
  cases node <;> rfl

theorem walkParts_stocked {base k : Kernel} (mounted : Mounted disk fprivate) (same : SameVolume disk base.disk) (grown : Grown base k)
    (holds : Holds base k current node) (list : PathList base next names) (enough : names.length < fuel)
    (room : Room k.heap (node.blocks dev disk names)) :
    Ends NotFull (fun _ _ => True) (walkPartsWith (supplied dev) fuel current next k) := by
  induction names generalizing current next node k fuel with
  | nil =>
    obtain ⟨fuel,rfl⟩ := Nat.exists_eq_add_of_lt enough
    obtain rfl : next = 0 := list
    rw [walkPartsWith,if_pos rfl]
    exact .ok trivial
  | cons name rest ih =>
    obtain ⟨fuel,rfl⟩ : ∃ more, fuel = more+1 := ⟨fuel-1,by rw [List.length_cons] at enough; omega⟩
    obtain ⟨buf,later,part,chars,left⟩ := list
    have partAt : PartAt k next name later := ⟨buf,grown.held part,grown.held chars⟩
    have more := partAt.nonnull grown.valid
    have loaded {item : FatItem} (valid : ItemAt base k current item) : (supplied dev).run (loadAs asFatItem current) k = .ok (item,k) :=
      embed_run (loadAs_run asFatItem valid.held rfl)
    cases node with
    | file entry =>
      obtain ⟨target,valid,_⟩ := holds
      obtain ⟨after,freed,_⟩ := fatItemFree_supplied grown valid dev (fun directory => by cases directory)
      rw [walkPartsWith,if_neg more,bind_run (loaded valid),if_pos (by simp),bind_run freed]
      exact .ok trivial
    | failed code =>
      obtain ⟨valid,error⟩ := holds
      have named : (supplied dev).run (loadPart next) k = .ok ((partString name,later),k) := embed_run (loadPart_run partAt)
      have fault : (supplied dev).reading ⟨errToPtr code,.directory⟩ .directory ((supplied dev).run (loadAs asFatDirectory (errToPtr code))) k =
          .error (.fault (.deref (errToPtr code))) := by
        have absent : (loadAs asFatDirectory (errToPtr code)) k = .error (.deref (errToPtr code)) := by
          unfold loadAs
          rw [get_bind,error_unheld grown.valid error]
          rfl
        exact embed_fault absent
      rw [walkPartsWith,if_neg more,bind_run (loaded valid),if_neg (by simp),bind_run named]
      dsimp only
      rw [bind_fault fault]
      exact .error (fun equal => by cases equal)
    | directory items =>
      obtain ⟨target,valid,⟨found,at',total,array⟩⟩ := holds
      have count : found.total.toNat = (Table.ofItems items).total := by
        rw [total]
        rfl
      have held : (Table.ofItems items).total ≠ 0 → k.objs found.item = some (.directoryItems (Table.ofItems items).items) :=
        fun some => array (fun none => some (by rw [none]; rfl))
      rw [walkParts_enter (supplied_supplying dev) grown valid partAt at'.held]
      have searched := findItemInDirectory_search dev count held name
      cases looked : (Table.ofItems items).find name with
      | error e =>
        rw [looked] at searched
        rw [bind_fault searched]
        exact .error (fun equal => by cases equal)
      | ok answer =>
        cases answer with
        | none =>
          rw [looked] at searched
          obtain ⟨after,freed,_⟩ := fatItemFree_supplied grown valid dev (fun _ => ⟨found,at'.held⟩)
          rw [bind_run searched,bind_run freed,if_pos rfl]
          exact .ok trivial
        | some entry =>
          have nonempty : items ≠ [] := by
            intro none
            rw [none] at looked
            cases looked
          have searches : found.total ≠ 0 := fun none => nonempty (List.eq_nil_of_length_eq_zero (by omega))
          have stock : Room k.heap (walkBlocks dev disk (.ofItems items) (name::rest)) := room
          cases value : (volumeOf dev disk).node entry with
          | error e =>
            rw [walkBlocks,looked] at stock
            refine (findItemInDirectory_stocked grown.valid mounted (same.trans grown.volume) count held looked stock).bind
              (fun nextItem middle result => ?_)
            obtain ⟨_,_,again,_⟩ := result
            cases value.symm.trans again
          | ok nextNode =>
            rw [walkBlocks_found looked value] at stock
            refine (findItemInDirectory_stocked grown.valid mounted (same.trans grown.volume) count held looked stock).bind
              (fun nextItem middle result => ?_)
            obtain ⟨roomMiddle,other,again,finds⟩ := result
            cases value.symm.trans again
            obtain ⟨after,gone,grownAfter,nextHolds,keeps⟩ := walkParts_leave (supplied_supplying dev) grown valid at'.held searches
              (by simp [array nonempty]) finds fuel later
            rw [gone]
            exact ih grownAfter nextHolds left (by rw [List.length_cons] at enough; omega) (keeps _ roomMiddle)

-- The heap in front of the walk has room behind its last chunk for all that is
-- found on the way.
def Stocked (dev : BlockDevice) (path : Nat) (k : Kernel) : Prop := ∃ fprivate table names, RootSearch k fprivate table ∧
  PathList k path names ∧ names ≠ [] ∧ Room k.heap (walkBlocks dev k.disk table names)

-- No allocation of the walk fails.
def Supplied (dev : BlockDevice) (path : Nat) (k : Kernel) : Prop := getDirectoryEntryWith (supplied dev) path k ≠ .error .full

theorem Stocked.supplied {k : Kernel} (stocked : Stocked dev path k) (valid : HeapValid k) : Supplied dev path k := by
  obtain ⟨fprivate,table,names,root,list,some,room⟩ := stocked
  obtain ⟨name,rest,rfl⟩ := List.exists_cons_of_ne_nil some
  have bound := list.bounded valid
  obtain ⟨buf,later,part,chars,left⟩ := list
  have known : (Fat16.supplied dev).run (onDisk loadPrivate) k = .ok (fprivate,k) := embed_run (onDisk_run (loadPrivate_run root.mounted))
  have named : (Fat16.supplied dev).run (loadPart path) k = .ok ((partString name,later),k) := embed_run (loadPart_run ⟨buf,part,chars⟩)
  have ends : Ends NotFull (fun _ _ => True) (getDirectoryEntryWith (Fat16.supplied dev) path k) := by
    unfold getDirectoryEntryWith
    rw [bind_run known,bind_run named]
    dsimp only
    have searched := findItemInDirectory_search dev root.total root.held name
    cases looked : table.find name with
    | error e =>
      rw [looked] at searched
      rw [bind_fault searched]
      exact .error (fun equal => by cases equal)
    | ok answer =>
      cases answer with
      | none =>
        rw [looked] at searched
        rw [bind_run searched,if_pos rfl]
        exact .ok trivial
      | some entry =>
        cases value : (volumeOf dev k.disk).node entry with
        | error e =>
          rw [walkBlocks,looked] at room
          refine (findItemInDirectory_stocked valid root.mounted (.refl _) root.total root.held looked room).bind (fun item middle result => ?_)
          obtain ⟨_,_,again,_⟩ := result
          cases value.symm.trans again
        | ok node =>
          rw [walkBlocks_found looked value] at room
          refine (findItemInDirectory_stocked valid root.mounted (.refl _) root.total root.held looked room).bind (fun item middle result => ?_)
          obtain ⟨roomMiddle,other,again,nonnull,grown,holds⟩ := result
          cases value.symm.trans again
          rw [if_neg nonnull]
          exact walkParts_stocked root.mounted (.refl _) grown holds left (by rw [List.length_cons] at bound; omega) roomMiddle
  unfold Supplied
  intro full
  rw [full] at ends
  cases ends with
  | error other => exact other rfl

-- With no block free nothing is found, whatever is there.
structure Starved (k : Kernel) (path : Nat) : Prop where
  exhausted : Exhausted k.heap 1
  searched : ∃ fprivate table name rest answer, RootSearch k fprivate table ∧ PathList k path (name::rest) ∧ table.find name = .ok answer

theorem Starved.missing {k : Kernel} (starved : Starved k path) (dev : BlockDevice) : fat16GetDirectoryEntry dev path k = .ok (0,k) := by
  obtain ⟨fprivate,table,name,rest,answer,root,⟨buf,later,part,chars,_⟩,looked⟩ := starved.searched
  have refused (zero : Obj) : (plain dev).kzalloc 8 zero k = .ok (0,k) := kzalloc_exhausted (by decide) starved.exhausted zero
  have found : findItemInDirectoryWith (plain dev) fprivate.rootDirectory (partString name) k = .ok (0,k) := by
    unfold findItemInDirectoryWith
    rw [root.total]
    refine (findItem_search (plain_faithful dev) [] table.items (fun _ => rfl) root.held).trans ?_
    rw [show search name table.total table.items [].length = .ok answer from looked]
    cases answer with
    | none => rfl
    | some entry =>
      show newFatItemWith (plain dev) entry k = _
      unfold newFatItemWith
      rw [bind_run (refused _),if_pos rfl]
      rfl
  have known : (plain dev).run (onDisk loadPrivate) k = .ok (fprivate,k) := onDisk_run (loadPrivate_run root.mounted)
  have named : (plain dev).run (loadPart path) k = .ok ((partString name,later),k) := loadPart_run ⟨buf,part,chars⟩
  rw [← getDirectoryEntryWith_plain]
  unfold getDirectoryEntryWith
  rw [bind_run known,bind_run named]
  dsimp only
  rw [bind_run found,if_pos rfl]
  rfl

end NutsOS.Fat16
