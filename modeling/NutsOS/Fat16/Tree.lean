import NutsOS.Fat16.Directory
import NutsOS.File.Parsing

-- What a path names, as far as the tables of the directories decide it: a pure
-- account of the walk, over any assignment of tables to clusters.
namespace NutsOS.Fat16
open Word32 Files Stdutil

-- A directory as it is searched: the entries in memory, and how many of them count.
structure Table where
  items : List FatDirectoryItem
  total : Nat

def Table.ofItems (items : List FatDirectoryItem) : Table := ⟨items,items.length⟩

def Table.counted (table : Table) : List FatDirectoryItem := table.items.take table.total

@[simp] theorem Table.counted_ofItems (items : List FatDirectoryItem) : (Table.ofItems items).counted = items := List.take_length

-- The first entry of that name, from the index i on. A search that runs over
-- the array faults.
def search (name : List UInt8) : Nat → List FatDirectoryItem → Nat → Except Fault (Option FatDirectoryItem)
  | 0,_,_ => .ok none
  | _+1,[],i => .error (.outOfBounds i)
  | count+1,entry::rest,i => if entryMatches entry (partString name) then .ok (some entry) else search name count rest (i+1)

def Table.find (table : Table) (name : List UInt8) : Except Fault (Option FatDirectoryItem) := search name table.total table.items 0

theorem search_member (found : search name count items i = .ok (some entry)) : entry ∈ items.take count := by
  induction count generalizing items i with
  | zero => cases found
  | succ count ih =>
    cases items with
    | nil => cases found
    | cons other rest =>
      rw [search] at found
      rw [List.take_succ_cons]
      by_cases here : entryMatches other (partString name) = true
      · rw [if_pos here] at found
        cases found
        exact List.mem_cons_self
      · rw [if_neg here] at found
        exact List.mem_cons_of_mem _ (ih found)

theorem Table.find_member {table : Table} (found : table.find name = .ok (some entry)) : entry ∈ table.counted := search_member found

inductive Node where
  | file (entry : FatDirectoryItem)
  | directory (items : List FatDirectoryItem)
  | failed (code : Int)

-- The entries of the directory at each cluster, or the code of what went wrong.
def Volume : Type := Nat → Except Fault (Except Int (List FatDirectoryItem))

def Node.ofTable : Except Int (List FatDirectoryItem) → Node
  | .error code => .failed code
  | .ok items => .directory items

def Volume.node (volume : Volume) (entry : FatDirectoryItem) : Except Fault Node :=
  if FatDirectoryItem.isSubdirectory entry then (volume entry.low16BitsFirstCluster).map Node.ofTable else .ok (.file entry)

def Volume.lookup (volume : Volume) (table : Table) (name : List UInt8) : Except Fault (Option Node) := do
  match ← table.find name with
  | none => return none
  | some entry => (volume.node entry).map some

-- A directory that is not loaded is still an item, and the walk dereferences the
-- error code that it has for an address.
def Volume.walk (volume : Volume) : Node → List (List UInt8) → Except Fault (Option Node)
  | node,[] => .ok (some node)
  | .file _,_::_ => .ok none
  | .failed code,_::_ => .error (.deref (errToPtr code))
  | .directory items,name::rest => do
    match ← volume.lookup (.ofItems items) name with
    | none => return none
    | some node => volume.walk node rest

def Volume.resolve (volume : Volume) (table : Table) : List (List UInt8) → Except Fault (Option Node)
  | [] => .ok none
  | name::rest => do
    match ← volume.lookup table name with
    | none => return none
    | some node => volume.walk node rest

theorem Volume.walk_directory (volume : Volume) (items : List FatDirectoryItem) (some : names ≠ []) :
    volume.walk (.directory items) names = volume.resolve (.ofItems items) names := by
  cases names with
  | nil => exact absurd rfl some
  | cons name rest => rfl

theorem Volume.node_directory {volume : Volume} (sub : FatDirectoryItem.isSubdirectory entry = true)
    (loaded : volume entry.low16BitsFirstCluster = .ok (.ok items)) : volume.node entry = .ok (.directory items) := by
  unfold Volume.node
  rw [if_pos sub,loaded]
  rfl

theorem Volume.lookup_directory {volume : Volume} {table : Table} (found : table.find name = .ok (some entry))
    (sub : FatDirectoryItem.isSubdirectory entry = true) (loaded : volume entry.low16BitsFirstCluster = .ok (.ok items)) :
    volume.lookup table name = .ok (some (.directory items)) := by
  unfold Volume.lookup
  rw [found]
  dsimp only [Bind.bind,Except.bind]
  rw [Volume.node_directory sub loaded]
  rfl

theorem Volume.resolve_directory {volume : Volume} {table : Table} (found : volume.lookup table name = .ok (some (.directory items)))
    (some : rest ≠ []) : volume.resolve table (name::rest) = volume.resolve (.ofItems items) rest := by
  rw [Volume.resolve,found]
  exact Volume.walk_directory volume items some

-- A live entry that is marked as a directory.
structure Subdirectory (entry : FatDirectoryItem) : Prop where
  marked : FatDirectoryItem.isSubdirectory entry = true
  live : entry.filename.head? ≠ some nutsosFat16UnusedEntry

def space : UInt8 := 0x20
def dotFilename : List UInt8 := dot::List.replicate 7 space
def dotdotFilename : List UInt8 := dot::dot::List.replicate 6 space

def dotName : List UInt8 := [dot]
def dotdotName : List UInt8 := [dot,dot]

def IsDots (entry : FatDirectoryItem) : Prop := entry.filename = dotFilename ∨ entry.filename = dotdotFilename

-- The tables of the directories below the root, down through live entries other
-- than the dots. The root directory has cluster 0, as the dots store it.
inductive Lies (volume : Volume) (root : Table) : Nat → Table → Prop where
  | root : Lies volume root 0 root
  | child (parent : Lies volume root cluster table) (member : entry ∈ table.counted) (sub : Subdirectory entry)
      (named : ¬ IsDots entry) (loaded : volume entry.low16BitsFirstCluster = .ok (.ok items)) :
      Lies volume root entry.low16BitsFirstCluster (.ofItems items)

-- The first two entries of a directory are its own cluster's and its parent's.
structure Dots (own parent : Nat) (items : List FatDirectoryItem) : Prop where
  entries : ∃ self up rest, items = self::up::rest ∧ self.filename = dotFilename ∧ up.filename = dotdotFilename ∧
    Subdirectory self ∧ Subdirectory up ∧ self.low16BitsFirstCluster = own ∧ up.low16BitsFirstCluster = parent ∧
    ∀ entry ∈ rest, ¬ IsDots entry

-- The layout of the standard, for the directories.
structure Standard (volume : Volume) (root : Table) : Prop where
  rootNames : ∀ entry ∈ root.counted, ¬ IsDots entry
  tables : ∀ cluster table, Lies volume root cluster table → ∀ entry ∈ table.counted, Subdirectory entry → ¬ IsDots entry →
    2 ≤ entry.low16BitsFirstCluster ∧
      ∃ items, volume entry.low16BitsFirstCluster = .ok (.ok items) ∧ Dots entry.low16BitsFirstCluster cluster items

-- A path that resolves to a directory, with the clusters of the entries on the
-- way, the last one first.
inductive Reaches (volume : Volume) (root : Table) : List (List UInt8) → List Nat → Table → Prop where
  | root : Reaches volume root [] [] root
  | step (reaches : Reaches volume root names clusters table) (found : table.find name = .ok (some entry))
      (sub : Subdirectory entry) (loaded : volume entry.low16BitsFirstCluster = .ok (.ok items)) :
      Reaches volume root (names++[name]) (entry.low16BitsFirstCluster::clusters) (.ofItems items)

theorem Lies.step {volume : Volume} {root table : Table} (standard : Standard volume root) (lies : Lies volume root cluster table)
    (member : entry ∈ table.counted) (sub : Subdirectory entry) (loaded : volume entry.low16BitsFirstCluster = .ok (.ok items))
    (nonzero : entry.low16BitsFirstCluster ≠ 0) : Lies volume root entry.low16BitsFirstCluster (.ofItems items) := by
  cases id lies with
  | root => exact .child lies member sub (standard.rootNames entry member) loaded
  | @child above tableAbove own _ parent member' sub' named' loaded' =>
    obtain ⟨_,items',again,dots⟩ := standard.tables _ _ parent own member' sub' named'
    cases loaded'.symm.trans again
    obtain ⟨self,up,rest,rfl,_,_,_,_,selfCluster,upCluster,names⟩ := dots.entries
    rw [Table.counted_ofItems] at member
    rcases List.mem_cons.mp member with rfl | member
    · rw [selfCluster] at loaded ⊢
      cases loaded'.symm.trans loaded
      exact lies
    rcases List.mem_cons.mp member with rfl | later
    · rw [upCluster] at loaded nonzero ⊢
      cases id parent with
      | root => exact absurd rfl nonzero
      | child _ _ _ _ parentLoaded =>
        cases parentLoaded.symm.trans loaded
        exact parent
    · exact .child lies (by simp [later]) sub (names entry later) loaded

theorem Reaches.lies {volume : Volume} {root table : Table} (standard : Standard volume root)
    (reaches : Reaches volume root names clusters table) (below : 0 ∉ clusters) : Lies volume root (clusters.headD 0) table := by
  induction reaches with
  | root => exact .root
  | step reaches found sub loaded ih =>
    rw [List.mem_cons,not_or] at below
    exact (ih below.2).step standard (Table.find_member found) sub loaded (Ne.symm below.1)

-- The name of a directory has no extension.
theorem directory_filename (marked : FatDirectoryItem.isSubdirectory entry = true) (maxLen : Int) :
    fat16GetFullFilename entry maxLen = (copyUntilSpace entry.filename (maxLen-1)).1++[asciiTerm] := by
  unfold fat16GetFullFilename
  rcases copyUntilSpace entry.filename (maxLen-1) with ⟨name,left⟩
  exact if_pos marked

theorem dot_unmatched (marked : FatDirectoryItem.isSubdirectory entry = true) (named : entry.filename = dotFilename) :
    entryMatches entry (partString dotdotName) = false := by
  unfold entryMatches
  rw [directory_filename marked,named]
  decide

theorem dotdot_matched (marked : FatDirectoryItem.isSubdirectory entry = true) (named : entry.filename = dotdotFilename) :
    entryMatches entry (partString dotdotName) = true := by
  unfold entryMatches
  rw [directory_filename marked,named]
  decide

theorem Dots.above (dots : Dots own parent items) :
    ∃ up, (Table.ofItems items).find dotdotName = .ok (some up) ∧ Subdirectory up ∧ up.low16BitsFirstCluster = parent := by
  obtain ⟨self,up,rest,rfl,selfName,upName,selfSub,upSub,_,upCluster,_⟩ := dots.entries
  refine ⟨up,?_,upSub,upCluster⟩
  unfold Table.find Table.ofItems
  simp [search,dot_unmatched selfSub.marked selfName,dotdot_matched upSub.marked upName]

theorem Reaches.resolve {volume : Volume} {root table : Table} (reaches : Reaches volume root names clusters table)
    (some : rest ≠ []) : volume.resolve root (names++rest) = volume.resolve table rest := by
  induction reaches generalizing rest with
  | root => rfl
  | step reaches found sub loaded ih =>
    rw [List.append_assoc,ih (by simp)]
    exact Volume.resolve_directory (Volume.lookup_directory found sub.marked loaded) some

end NutsOS.Fat16
