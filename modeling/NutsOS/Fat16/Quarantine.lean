import NutsOS.Fat16.Parent

-- The walk against the recursive account of a path, and under an allocator that
-- does not hand a freed block out again.
namespace NutsOS.Fat16
open Word32 Bytes HeapAlloc Files DiskStreams Stdutil Prog

-- A tree of directories: the entries of the root, and those of every subdirectory in it.
inductive InTree (list : Nat → List FatDirectoryItem) (root : List FatDirectoryItem) : FatDirectoryItem → Prop where
  | root (member : entry ∈ root) : InTree list root entry
  | under (parent : InTree list root directory) (sub : FatDirectoryItem.isSubdirectory directory = true)
      (member : entry ∈ list directory.low16BitsFirstCluster) : InTree list root entry

def TreeLoads (volume : Volume) (list : Nat → List FatDirectoryItem) (root : List FatDirectoryItem) : Prop :=
  ∀ entry, InTree list root entry → FatDirectoryItem.isSubdirectory entry = true →
    volume entry.low16BitsFirstCluster = .ok (.ok (list entry.low16BitsFirstCluster))

def component (name : List UInt8) (items : List FatDirectoryItem) : Option FatDirectoryItem :=
  items.find? (fun entry => entryMatches entry (partString name))

-- For each further component the current item must be a directory and have it.
def descend (list : Nat → List FatDirectoryItem) : FatDirectoryItem → List (List UInt8) → Option FatDirectoryItem
  | entry,[] => some entry
  | entry,name::rest =>
    if FatDirectoryItem.isSubdirectory entry then
      (component name (list entry.low16BitsFirstCluster)).bind (fun next => descend list next rest)
    else none

-- The first component is looked up in the root.
def entryAt (list : Nat → List FatDirectoryItem) (root : List FatDirectoryItem) : List (List UInt8) → Option FatDirectoryItem
  | [] => none
  | name::rest => (component name root).bind (fun entry => descend list entry rest)

def nodeOf (list : Nat → List FatDirectoryItem) (entry : FatDirectoryItem) : Node :=
  if FatDirectoryItem.isSubdirectory entry then .directory (list entry.low16BitsFirstCluster) else .file entry

theorem search_component (inside : count ≤ items.length) (i : Nat) : search name count items i = .ok (component name (items.take count)) := by
  induction count generalizing items i with
  | zero => rfl
  | succ count ih =>
    cases items with
    | nil => cases inside
    | cons entry rest =>
      rw [search,List.take_succ_cons,component,List.find?_cons]
      cases found : entryMatches entry (partString name) with
      | true => rfl
      | false => exact ih (Nat.le_of_succ_le_succ inside) (i+1)

theorem Table.find_component {table : Table} (inside : table.total ≤ table.items.length) :
    table.find name = .ok (component name table.counted) := search_component inside 0

theorem find_ofItems (items : List FatDirectoryItem) : (Table.ofItems items).find name = .ok (component name items) := by
  rw [Table.find_component (Nat.le_refl _),Table.counted_ofItems]

section
variable {volume : Volume} {list : Nat → List FatDirectoryItem} {root : List FatDirectoryItem} (loads : TreeLoads volume list root)
include loads

theorem TreeLoads.node (inside : InTree list root entry) : volume.node entry = .ok (nodeOf list entry) := by
  unfold Volume.node nodeOf
  by_cases sub : FatDirectoryItem.isSubdirectory entry = true
  · rw [if_pos sub,if_pos sub,loads entry inside sub]
    rfl
  · rw [if_neg sub,if_neg sub]

theorem TreeLoads.lookup {table : Table} (found : table.find name = .ok (component name items)) (inside : ∀ entry ∈ items, InTree list root entry) :
    volume.lookup table name = .ok ((component name items).map (nodeOf list)) := by
  unfold Volume.lookup
  rw [found]
  cases looked : component name items with
  | none => rfl
  | some entry =>
    dsimp only [Bind.bind,Except.bind]
    rw [loads.node (inside entry (List.mem_of_find?_eq_some looked))]
    rfl

theorem TreeLoads.walk (names : List (List UInt8)) (inside : InTree list root entry) :
    volume.walk (nodeOf list entry) names = .ok ((descend list entry names).map (nodeOf list)) := by
  induction names generalizing entry with
  | nil =>
    show volume.walk (nodeOf list entry) [] = .ok (some (nodeOf list entry))
    cases nodeOf list entry <;> rfl
  | cons name rest ih =>
    rw [descend,nodeOf]
    by_cases sub : FatDirectoryItem.isSubdirectory entry = true
    · rw [if_pos sub,if_pos sub,Volume.walk,loads.lookup (find_ofItems _) (fun _ member => .under inside sub member)]
      cases looked : component name (list entry.low16BitsFirstCluster) with
      | none => rfl
      | some next => exact ih (.under inside sub (List.mem_of_find?_eq_some looked))
    · rw [if_neg sub,if_neg sub]
      rfl

end

theorem TreeLoads.resolve {volume : Volume} {table : Table} (loads : TreeLoads volume list table.counted)
    (inside : table.total ≤ table.items.length) (names : List (List UInt8)) :
    volume.resolve table names = .ok ((entryAt list table.counted names).map (nodeOf list)) := by
  cases names with
  | nil => rfl
  | cons name rest =>
    rw [Volume.resolve,entryAt,loads.lookup (Table.find_component inside) (fun _ member => .root member)]
    cases looked : component name table.counted with
    | none => rfl
    | some entry => exact loads.walk rest (.root (List.mem_of_find?_eq_some looked))

-- Calls under which a block that is given back stays taken, without its object:
-- what is read of it later is read of no object at all.
def quarantined (dev : BlockDevice) : Services Shortage :=
  {supplied dev with kfree := fun ptr => Prog.modify (fun k => k.drop ptr)}

-- A kernel and the one with all the blocks still taken.
def Shelved (heap : Heap) (k kept : Kernel) : Prop := kept = k.withHeap heap

theorem loadAs_shelved (heap : Heap) (view : Obj → Option α) (ptr : Nat) :
    Agree (Shelved heap) (Shelved heap) (embed Shortage.fault (loadAs view ptr)) (embed Shortage.fault (loadAs view ptr)) := by
  rintro k _ rfl
  unfold embed loadAs
  rw [get_bind,get_bind,Kernel.withHeap_objs]
  cases k.objs ptr >>= view with
  | none => exact .error _
  | some value => exact .ok value rfl

theorem kfree_shelved (heap : Heap) (dev : BlockDevice) (ptr : Nat) :
    Agree (Shelved heap) (Shelved heap) ((supplied dev).kfree ptr) ((quarantined dev).kfree ptr) := by
  rintro k _ rfl
  exact .ok () rfl

theorem fatItemFree_shelved (heap : Heap) (dev : BlockDevice) (item : Nat) :
    Agree (Shelved heap) (Shelved heap) (fatItemFreeWith (supplied dev) item) (fatItemFreeWith (quarantined dev) item) := by
  have released (directory : Nat) :
      Agree (Shelved heap) (Shelved heap) (freeDirectoryWith (supplied dev) directory) (freeDirectoryWith (quarantined dev) directory) := by
    refine agree_ite (agree_pure _) (agree_bind (loadAs_shelved heap _ _) (fun found => ?_))
    exact agree_bind (agree_ite (kfree_shelved heap dev _) (agree_pure _)) (fun _ => kfree_shelved heap dev _)
  refine agree_ite (agree_pure _) (agree_bind (loadAs_shelved heap _ _) (fun found => ?_))
  cases found.type with
  | directory => exact agree_bind (released _) (fun _ => kfree_shelved heap dev _)
  | file => exact agree_bind (kfree_shelved heap dev _) (fun _ => kfree_shelved heap dev _)

-- Freeing makes no object.
def Shrinks (k after : Kernel) : Prop := ∀ a, (after.objs a).isSome → (k.objs a).isSome

theorem fatItemFree_shrinks (item : Nat) : Within Shrinks (fat16FatItemFree item) := by
  refine fatItemFree_within (fun _ _ live => live) (fun one two a live => one a (two a live)) ?_ item
  intro ptr k _ after ran a live
  cases ran
  by_cases same : a = ptr
  · rw [same,Kernel.drop_same] at live
    cases live
  · rw [Kernel.drop_other same] at live
    exact live

theorem quarantined_supplying (dev : BlockDevice) : Supplying (quarantined dev) dev := by
  refine ⟨fun _ => rfl,fun _ _ _ => rfl,fun directory name => ?_,fun {base k ptr item} grown valid loaded => ?_⟩
  · have same (count i : Nat) : findItemWith (quarantined dev) directory name count i = findItemWith (supplied dev) directory name count i := by
      induction count generalizing i with
      | zero => rfl
      | succ count ih =>
        unfold findItemWith
        rw [ih]
        rfl
    exact same _ 0
  · obtain ⟨after,ran,left,kept,_⟩ := fatItemFree_supplied grown valid dev loaded
    obtain ⟨shelved,ran',rfl⟩ := (fatItemFree_shelved k.heap dev ptr k k rfl).returned ran
    rw [fatItemFree_embed (supplied_embedded dev)] at ran
    have shrinks := fatItemFree_shrinks ptr _ _ _ ((watches_embed _ k).returned ran)
    refine ⟨after.withHeap k.heap,ran',⟨grown.valid.congr rfl shrinks,?_,left.volume,left.kept⟩,kept,.refl k,fun _ room => room⟩
    exact congrArg (fun l => Kernel.withHeap l k.heap) left.rest

-- The stop of a quarantined run is never a read of freed memory.
theorem directory_entry_exact {k : Kernel} (valid : HeapValid k) (root : RootSearch k fprivate table)
    (inside : table.total ≤ table.items.length) (tree : TreeLoads (volumeOf dev k.disk) list table.counted)
    (parsed : PathList k path names) (some : names ≠ []) (enough : Supplied dev path k) :
    (∃ ptr after, fat16GetDirectoryEntry dev path k = .ok (ptr,after) ∧
      Answers k after ptr ((entryAt list table.counted names).map (nodeOf list))) ∧
    Ends Full (fun ptr after => Answers k after ptr ((entryAt list table.counted names).map (nodeOf list)))
      (getDirectoryEntryWith (quarantined dev) path k) := by
  have resolved := tree.resolve inside names
  constructor
  · have realizes := getDirectoryEntry_supplied (supplied_supplying dev) valid root parsed some
    have watches := getDirectoryEntry_watches (supplied_watching dev) path k
    unfold Supplied at enough
    generalize getDirectoryEntryWith (supplied dev) path k = result at realizes watches enough
    rw [resolved] at realizes
    cases realizes with
    | ok equal answers =>
      cases equal
      exact ⟨_,_,watches.returned rfl,answers⟩
    | fault equal => cases equal
    | stopped reason => exact absurd (congrArg Except.error reason) enough
  · have realizes := getDirectoryEntry_supplied (quarantined_supplying dev) valid root parsed some
    rw [resolved] at realizes
    generalize getDirectoryEntryWith (quarantined dev) path k = result at realizes
    cases realizes with
    | ok equal answers =>
      cases equal
      exact .ok answers
    | fault equal => cases equal
    | stopped reason => exact .error reason

-- The directories of the sample volume; the parent of D is taken to be the table.
def treeList (cluster : Nat) : List FatDirectoryItem :=
  if cluster = 2 then treeDirectory else if cluster = 3 then treeSubdirectory else directoryItems 1 (slice treeImage 512 32)

theorem tree_inside (inside : InTree treeList treeTable.counted entry) :
    FatDirectoryItem.isSubdirectory entry = true → entry.low16BitsFirstCluster ∈ [0,2,3] := by
  have listed (c : Nat) (member : entry ∈ treeList c) : FatDirectoryItem.isSubdirectory entry = true → entry.low16BitsFirstCluster ∈ [0,2,3] := by
    unfold treeList at member
    split at member
    · exact (by decide : ∀ entry ∈ treeDirectory, FatDirectoryItem.isSubdirectory entry = true → entry.low16BitsFirstCluster ∈ [0,2,3])
        entry member
    · split at member
      · exact (by decide : ∀ entry ∈ treeSubdirectory, FatDirectoryItem.isSubdirectory entry = true → entry.low16BitsFirstCluster ∈ [0,2,3])
          entry member
      · exact (by decide : ∀ entry ∈ directoryItems 1 (slice treeImage 512 32),
          FatDirectoryItem.isSubdirectory entry = true → entry.low16BitsFirstCluster ∈ [0,2,3]) entry member
  cases inside with
  | root member =>
    obtain rfl := List.mem_singleton.mp member
    decide
  | under _ _ member => exact listed _ member

theorem TreeStart.loads (start : TreeStart item) (same : SameVolume treeKernel.disk disk) :
    TreeLoads (volumeOf (imageDevice treeImage) disk) treeList treeTable.counted := by
  intro entry inside sub
  obtain ⟨_,first⟩ := (tree_listed (start.tree disk same)).1
  obtain ⟨second,third⟩ := start.volume same
  have cluster := tree_inside inside sub
  simp only [List.mem_cons,List.not_mem_nil,or_false] at cluster
  rcases cluster with zero | two | three
  · rw [zero]
    exact first.table
  · rw [two]
    exact second
  · rw [three]
    exact third

theorem nested_entry_exact : ∃ k path ptr after, fat16GetDirectoryEntry (imageDevice treeImage) path k = .ok (ptr,after) ∧
    Answers k after ptr (some (.directory treeSubdirectory)) := by
  obtain ⟨item,start⟩ := tree_start
  obtain ⟨k,path,_,grown,list,_,room⟩ := start.paths [0x64,slash,0x65] [] (by decide) (by decide) (by decide)
  rw [show parts [0x64,slash,0x65] = [treeName,[0x65]] by decide] at list
  have same := grown.volume
  have search := start.search grown
  have enough := (stocked_small search list (by decide) (start.down same (start.deeper same .done)) (room.less (by decide))).supplied grown.valid
  obtain ⟨⟨ptr,after,ran,answers⟩,_⟩ := directory_entry_exact grown.valid search (Nat.le_refl _) (start.loads same) list (by decide) enough
  exact ⟨k,path,ptr,after,ran,answers⟩

end NutsOS.Fat16
