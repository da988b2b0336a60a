import NutsOS.Fat16.Stock
import NutsOS.Fat16.Subdirectory

-- Down into a subdirectory and up again: the same item as without the detour,
-- unless the way up leads to the root directory.
namespace NutsOS.Fat16
open Word32 Bytes HeapAlloc Files DiskStreams Stdutil Prog

-- What an item is, wherever it lies.
inductive Shows (k : Kernel) (ptr : Nat) : Node → Prop where
  | file (held : k.objs ptr = some (.fatItem ⟨target,.file⟩)) (copy : k.objs target = some (.directoryItems [entry])) :
      Shows k ptr (.file entry)
  | directory (held : k.objs ptr = some (.fatItem ⟨target,.directory⟩)) (loaded : k.objs target = some (.fatDirectory found))
      (total : found.total = (items.length : Nat)) (array : items ≠ [] → k.objs found.item = some (.directoryItems items)) :
      Shows k ptr (.directory items)
  | failed (held : k.objs ptr = some (.fatItem ⟨errToPtr code,.directory⟩)) (error : IsError (errToPtr code)) :
      Shows k ptr (.failed code)

inductive SameItem : Except Fault (Nat × Kernel) → Except Fault (Nat × Kernel) → Prop where
  | missing : SameItem (.ok (0,one)) (.ok (0,two))
  | found (some : ptr ≠ 0) (left : Shows one ptr node) (some' : other ≠ 0) (right : Shows two other node) :
      SameItem (.ok (ptr,one)) (.ok (other,two))
  | fault (f : Fault) : SameItem (.error f) (.error f)

inductive WalkResult : Except Fault (Option Node) → Except Fault (Nat × Kernel) → Prop where
  | missing : WalkResult (.ok none) (.ok (0,after))
  | found (nonnull : ptr ≠ 0) (shows : Shows after ptr node) : WalkResult (.ok (some node)) (.ok (ptr,after))
  | fault (f : Fault) : WalkResult (.error f) (.error f)

theorem Holds.shows {base k : Kernel} (holds : Holds base k ptr node) : Shows k ptr node := by
  cases node with
  | file entry =>
    obtain ⟨target,valid,copy⟩ := holds
    exact .file valid.held copy
  | directory items =>
    obtain ⟨target,valid,⟨found,at',total,array⟩⟩ := holds
    exact .directory valid.held at'.held total array
  | failed code => exact .failed holds.1.held holds.2

theorem WalkResult.same {value : Except Fault (Option Node)} (one : WalkResult value left) (two : WalkResult value right) :
    SameItem left right := by
  cases one with
  | missing =>
    cases two with
    | missing => exact .missing
  | found nonnull shows =>
    cases two with
    | found nonnull' again => exact .found nonnull shows nonnull' again
  | fault f =>
    cases two with
    | fault => exact .fault f

-- The directories that the names lead through have a block of entries each.
inductive Small (dev : BlockDevice) (base : Disk) : Table → List (List UInt8) → Prop where
  | done : Small dev base table []
  | missing (none : table.find name = .ok none) : Small dev base table (name::rest)
  | enter (found : table.find name = .ok (some entry)) (sub : FatDirectoryItem.isSubdirectory entry = true)
      (listed : Listed dev base entry.low16BitsFirstCluster n bytes after)
      (later : Small dev base (.ofItems (directoryItems n bytes)) rest) : Small dev base table (name::rest)

theorem Listed.blocks (listed : Listed dev disk cluster n bytes after) : directoryBlocks dev disk cluster = 2 := by
  obtain ⟨fprivate,one,private',count,_⟩ := listed.counted
  have some := listed.some
  have small := listed.small
  have size : toInt32 (((n : Nat) : Int)*32) = (n*32 : Nat) := toInt32_natCast (n := n*32) (by omega)
  rw [directoryBlocks_counted (loadPrivate_known private') count,size,toUint32_natCast (by omega),blocksFor_single (by omega) small]
  rfl

theorem Small.blocks {table : Table} (small : Small dev base table names) : walkBlocks dev base table names ≤ 3*names.length := by
  induction small with
  | done => exact Nat.le_refl 0
  | missing none =>
    rw [walkBlocks,none]
    exact Nat.zero_le _
  | enter found sub listed later ih =>
    rw [walkBlocks_found found (Volume.node_directory sub listed.table),itemBlocks,if_pos sub,listed.blocks,List.length_cons]
    exact Nat.le_trans (Nat.add_le_add_left ih 3) (by omega)

theorem stocked_small {k : Kernel} (root : RootSearch k fprivate table) (list : PathList k path names) (some : names ≠ [])
    (small : Small dev k.disk table names) (room : Room k.heap (3*names.length)) : Stocked dev path k :=
  ⟨_,_,_,root,list,some,room.less small.blocks⟩

-- The sample volume is laid out so.
def directoryEntry (name : List UInt8) (cluster : Nat) : FatDirectoryItem :=
  ⟨name++List.replicate (8-name.length) space,List.replicate 3 space,fatFileSubdirectory,cluster,0⟩

def treeDirectory : List FatDirectoryItem := [directoryEntry dotName 2,directoryEntry dotdotName 0,directoryEntry [0x45] 3]
def treeSubdirectory : List FatDirectoryItem := [directoryEntry dotName 3,directoryEntry dotdotName 2]

theorem tree_tables : directoryItems 3 (slice treeImage 33280 96) = treeDirectory ∧
    directoryItems 2 (slice treeImage 49664 64) = treeSubdirectory := by decide

def treeTable : Table := .ofItems [treeEntry]

theorem TreeStart.search (start : TreeStart item) (grown : Grown treeKernel k) : RootSearch k (treeRoot item) treeTable :=
  ⟨(start.tree _ grown.volume).mounted,rfl,fun _ => grown.held start.held⟩

theorem TreeStart.volume (start : TreeStart item) (same : SameVolume treeKernel.disk disk) :
    volumeOf (imageDevice treeImage) disk 2 = .ok (.ok treeDirectory) ∧
      volumeOf (imageDevice treeImage) disk 3 = .ok (.ok treeSubdirectory) := by
  obtain ⟨_,⟨_,second⟩,⟨_,third⟩⟩ := tree_listed (start.tree disk same)
  rw [← tree_tables.1,← tree_tables.2]
  exact ⟨second.table,third.table⟩

theorem tree_dots : Dots 2 0 treeDirectory ∧
    Dots 3 2 treeSubdirectory := by
  have sub (name : List UInt8) (cluster : Nat) (live : (directoryEntry name cluster).filename.head? ≠ some nutsosFat16UnusedEntry) :
      Subdirectory (directoryEntry name cluster) := ⟨(by decide : fatFileSubdirectory &&& fatFileSubdirectory != 0),live⟩
  refine ⟨⟨_,_,_,rfl,rfl,rfl,sub _ _ (by decide),sub _ _ (by decide),rfl,rfl,?_⟩,
    ⟨_,_,_,rfl,rfl,rfl,sub _ _ (by decide),sub _ _ (by decide),rfl,rfl,?_⟩⟩
  · intro entry member
    obtain rfl := List.mem_singleton.mp member
    unfold IsDots
    decide
  · intro entry member
    cases member

theorem TreeStart.lies (start : TreeStart item) (same : SameVolume treeKernel.disk disk)
    (lies : Lies (volumeOf (imageDevice treeImage) disk) treeTable cluster table) :
    (cluster = 0 ∧ table = treeTable) ∨
      (cluster = 2 ∧ table = .ofItems treeDirectory) ∨
      (cluster = 3 ∧ table = .ofItems treeSubdirectory) := by
  obtain ⟨second,third⟩ := start.volume same
  induction lies with
  | root => exact .inl ⟨rfl,rfl⟩
  | @child _ _ entry _ parent member sub named loaded ih =>
    have self (c : Nat) : IsDots (directoryEntry dotName c) := .inl rfl
    have up (c : Nat) : IsDots (directoryEntry dotdotName c) := .inr rfl
    rcases ih with ⟨rfl,rfl⟩ | ⟨rfl,rfl⟩ | ⟨rfl,rfl⟩
    · obtain rfl := List.mem_singleton.mp member
      cases loaded.symm.trans second
      exact .inr (.inl ⟨rfl,rfl⟩)
    · simp only [Table.counted_ofItems,treeDirectory,List.mem_cons,List.not_mem_nil,or_false] at member
      rcases member with rfl | rfl | rfl
      · exact absurd (self 2) named
      · exact absurd (up 0) named
      · cases loaded.symm.trans third
        exact .inr (.inr ⟨rfl,rfl⟩)
    · simp only [Table.counted_ofItems,treeSubdirectory,List.mem_cons,List.not_mem_nil,or_false] at member
      rcases member with rfl | rfl
      · exact absurd (self 3) named
      · exact absurd (up 2) named

theorem TreeStart.standard (start : TreeStart item) (same : SameVolume treeKernel.disk disk) :
    Standard (volumeOf (imageDevice treeImage) disk) treeTable := by
  obtain ⟨second,third⟩ := start.volume same
  obtain ⟨dotsSecond,dotsThird⟩ := tree_dots
  refine ⟨?_,?_⟩
  · intro entry member
    obtain rfl := List.mem_singleton.mp member
    unfold IsDots
    decide
  · intro cluster table lies entry member sub named
    rcases start.lies same lies with ⟨rfl,rfl⟩ | ⟨rfl,rfl⟩ | ⟨rfl,rfl⟩
    · obtain rfl := List.mem_singleton.mp member
      exact ⟨by decide,_,second,dotsSecond⟩
    · simp only [Table.counted_ofItems,treeDirectory,List.mem_cons,List.not_mem_nil,or_false] at member
      rcases member with rfl | rfl | rfl
      · exact absurd (.inl rfl) named
      · exact absurd (.inr rfl) named
      · exact ⟨by decide,_,third,dotsThird⟩
    · simp only [Table.counted_ofItems,treeSubdirectory,List.mem_cons,List.not_mem_nil,or_false] at member
      rcases member with rfl | rfl
      · exact absurd (.inl rfl) named
      · exact absurd (.inr rfl) named

theorem TreeStart.paths (start : TreeStart item) (long short : List UInt8) (clean : strlen (pathOf asciiZero long) ≤ nutsosMaxPath)
    (clean' : strlen (pathOf asciiZero short) ≤ nutsosMaxPath) (few : (parts long).length+(parts short).length ≤ 8) :
    ∃ k one two, Grown treeKernel k ∧ PathList k one (parts long) ∧ PathList k two (parts short) ∧ Room k.heap 64 := by
  have digit : isdigit asciiZero = true := by decide
  obtain ⟨_,one,first,_,grown,_,_,list,room⟩ := pathparserParse_list _ (2*(parts short).length+2+64) roomStock start.valid clean
    (pathOf_valid digit long) (start.room.less (by show 2*(parts long).length+2+_ ≤ _; omega))
  obtain ⟨_,two,k,_,again,_,_,other,left⟩ := pathparserParse_list _ 64 roomStock grown.valid clean' (pathOf_valid digit short) room
  exact ⟨k,one,two,grown.trans again,list.grown (fun _ _ held => again.held held),other,left⟩

theorem tree_finds : treeTable.find treeName = .ok (some treeEntry) ∧
    (Table.ofItems treeDirectory).find [0x65] = .ok (some (directoryEntry [0x45] 3)) ∧
    (Table.ofItems treeDirectory).find dotdotName = .ok (some (directoryEntry dotdotName 0)) ∧
    (Table.ofItems treeSubdirectory).find dotdotName = .ok (some (directoryEntry dotdotName 2)) ∧
    (Table.ofItems (directoryItems 1 (slice treeImage 512 32))).find treeName = .ok none := ⟨rfl,rfl,rfl,rfl,rfl⟩

section
variable {item : Nat} {disk : Disk} (start : TreeStart item) (same : SameVolume treeKernel.disk disk)
include start same

theorem TreeStart.down (later : Small (imageDevice treeImage) disk (.ofItems treeDirectory) rest) :
    Small (imageDevice treeImage) disk treeTable (treeName::rest) := by
  obtain ⟨_,⟨_,listed⟩,_⟩ := tree_listed (start.tree disk same)
  exact .enter tree_finds.1 (by decide) listed (tree_tables.1 ▸ later)

theorem TreeStart.deeper (later : Small (imageDevice treeImage) disk (.ofItems treeSubdirectory) rest) :
    Small (imageDevice treeImage) disk (.ofItems treeDirectory) ([0x65]::rest) := by
  obtain ⟨_,_,⟨_,listed⟩⟩ := tree_listed (start.tree disk same)
  exact .enter tree_finds.2.1 (by decide) listed (tree_tables.2 ▸ later)

theorem TreeStart.up (later : Small (imageDevice treeImage) disk (.ofItems treeDirectory) rest) :
    Small (imageDevice treeImage) disk (.ofItems treeSubdirectory) (dotdotName::rest) := by
  obtain ⟨_,⟨_,listed⟩,_⟩ := tree_listed (start.tree disk same)
  exact .enter tree_finds.2.2.2.1 (by decide) listed (tree_tables.1 ▸ later)

-- The parent of D is taken to be the table of the volume.
theorem TreeStart.astray : Small (imageDevice treeImage) disk (.ofItems treeDirectory) (dotdotName::treeName::rest) := by
  obtain ⟨⟨_,listed⟩,_⟩ := tree_listed (start.tree disk same)
  exact .enter tree_finds.2.2.1 (by decide) listed (.missing tree_finds.2.2.2.2)

end

theorem Reaches.first {volume : Volume} {root : Table} (reaches : Reaches volume root p clusters directory)
    (found : directory.find d = .ok (some entry)) (rest : List (List UInt8)) :
    ∃ name later answer, p++d::rest = name::later ∧ root.find name = .ok (some answer) := by
  induction reaches generalizing d entry rest with
  | root => exact ⟨d,rest,entry,rfl,found⟩
  | step reaches inner _ _ ih =>
    rw [List.append_assoc]
    exact ih inner (d::rest)

end NutsOS.Fat16
