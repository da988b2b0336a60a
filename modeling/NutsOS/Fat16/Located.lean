import NutsOS.Fat16.Lookup
import NutsOS.Fat16.Subdirectory

-- Files in directories of any depth, on volumes that the driver walks without trouble.
namespace NutsOS.Fat16
open Word32 Bytes HeapAlloc Files DiskStreams Prog

-- A directory with n entries and no deleted one, at the beginning of its first cluster.
structure Folder (image : Nat → UInt8) (disk : Disk) (fprivate : FatPrivate) (cluster n : Nat) : Prop where
  data : 2 ≤ cluster ∧ cluster ≤ 0xFFEF
  ends : EndsAt (fun j => image (clusterAddress disk fprivate cluster+j)) n
  live : ∀ i < n, ¬ Deleted (fun j => image (clusterAddress disk fprivate cluster+j)) i
  some : 1 ≤ n
  small : n*32 ≤ 4096
  inside : n*32 ≤ clusterSize fprivate
  fits : clusterAddress disk fprivate cluster+32*(n+1) ≤ 2147483648

def folderItems (image : Nat → UInt8) (disk : Disk) (fprivate : FatPrivate) (cluster n : Nat) : List FatDirectoryItem :=
  directoryItems n (slice image (clusterAddress disk fprivate cluster) (n*32))

def firstMatch (items : List FatDirectoryItem) (name : List UInt8) : Option FatDirectoryItem :=
  items.find? (fun entry => entryMatches entry (partString name))

-- The names lead from a directory's entries through its subdirectories to a file.
inductive Leads (image : Nat → UInt8) (disk : Disk) (fprivate : FatPrivate) (last : FatDirectoryItem) :
    List FatDirectoryItem → List (List UInt8) → Prop where
  | file (found : firstMatch items name = some last) (kind : FatDirectoryItem.isSubdirectory last = false) :
      Leads image disk fprivate last items [name]
  | folder (found : firstMatch items name = some entry) (kind : FatDirectoryItem.isSubdirectory entry = true)
      (folder : Folder image disk fprivate entry.low16BitsFirstCluster n)
      (rest : Leads image disk fprivate last (folderItems image disk fprivate entry.low16BitsFirstCluster n) names) :
      Leads image disk fprivate last items (name::names)

theorem Leads.some (leads : Leads image disk fprivate last items names) : names ≠ [] := by
  cases leads <;> exact List.cons_ne_nil _ _

theorem Folder.kept (folder : Folder image before fprivate cluster n) (same : SameVolume before after) :
    Folder image after fprivate cluster n := by
  have address := clusterAddress_same same fprivate
  obtain ⟨data,ends,live,some,small,inside,fits⟩ := folder
  rw [← address] at ends live fits
  exact ⟨data,ends,live,some,small,inside,fits⟩

theorem Leads.kept (leads : Leads image before fprivate last items names) (same : SameVolume before after) :
    Leads image after fprivate last items names := by
  induction leads with
  | file found kind => exact .file found kind
  | @folder items name entry n names found kind folder rest ih =>
    have table : folderItems image before fprivate entry.low16BitsFirstCluster n =
        folderItems image after fprivate entry.low16BitsFirstCluster n := by
      unfold folderItems
      rw [clusterAddress_same same]
    rw [table] at ih
    exact .folder found kind (folder.kept same) ih

theorem Folder.listed (folder : Folder image disk fprivate cluster n) (mounted : Mounted disk fprivate) :
    ∃ after, Listed (imageDevice image) disk cluster n (slice image (clusterAddress disk fprivate cluster) (n*32)) after := by
  have low := folder.fits
  have some := folder.some
  have inside := folder.inside
  have reads := startingPos_eq 0 mounted folder.data.1 folder.data.2 (by omega)
  have size : ((clusterSize fprivate : Nat) : Int) = fprivate.bytesPerCluster := Int.toNat_of_nonneg (by
    unfold clusterSize at inside
    omega)
  exact listed_live _ image mounted (by omega) (clusterSector_address mounted folder.data.1 folder.data.2 (by omega)) reads folder.ends
    folder.live some folder.small (by omega) folder.fits

-- An item that the walk has reached, made of objects that `base` has not, with the names still ahead of it.
inductive Reached (image : Nat → UInt8) (disk : Disk) (fprivate : FatPrivate) (last : FatDirectoryItem) (base k : Kernel) (ptr : Nat) :
    List (List UInt8) → Prop where
  | file (held : k.objs ptr = some (.fatItem ⟨target,.file⟩)) (fresh : base.objs ptr = none)
      (entry : k.objs target = some (.directoryItems [last])) (freshEntry : base.objs target = none) :
      Reached image disk fprivate last base k ptr []
  | folder (held : k.objs ptr = some (.fatItem ⟨target,.directory⟩)) (fresh : base.objs ptr = none)
      (directory : DirectoryAt base k target ⟨array,(items.length : Nat),0,0⟩)
      (table : k.objs array = some (.directoryItems items)) (leads : Leads image disk fprivate last items names) :
      Reached image disk fprivate last base k ptr names

theorem Reached.survives {base k middle after : Kernel} (reached : Reached image disk fprivate last k middle ptr names) (grown : Grown base k)
    (same : ∀ a, k.objs a = none → after.objs a = middle.objs a) : Reached image disk fprivate last base after ptr names := by
  cases reached with
  | file held fresh entry freshEntry =>
    exact .file ((same _ fresh).trans held) (grown.fresh fresh) ((same _ freshEntry).trans entry) (grown.fresh freshEntry)
  | folder held fresh directory table leads =>
    have array := (same _ directory.freshEntries).trans table
    exact .folder ((same _ fresh).trans held) (grown.fresh fresh) ⟨(same _ directory.fresh).trans directory.held,
      grown.fresh directory.fresh,grown.fresh directory.freshEntries,.inr (.inl ⟨_,array⟩)⟩ array leads

theorem Reached.nonnull {base k : Kernel} (reached : Reached image disk fprivate last base k ptr names) (valid : HeapValid k) : ptr ≠ 0 := by
  have live : (k.objs ptr).isSome := by
    cases reached with
    | file held => rw [held]; rfl
    | folder held => rw [held]; rfl
  exact (valid.low live).1

theorem find_reaches {k : Kernel} (valid : HeapValid k) (mounted : Mounted k.disk fprivate) (same : SameVolume disk k.disk)
    (searched : Searched k directory items) (leads : Leads image disk fprivate last items (name::names)) (room : Room k.heap (3+rest)) :
    ∃ ptr after, fat16FindItemInDirectory (imageDevice image) directory (partString name) k = .ok (ptr,after) ∧ Grown k after ∧
      Reached image disk fprivate last k after ptr names ∧ Room after.heap rest := by
  have search := searched.find (imageDevice image) (partString name)
  cases leads with
  | file found kind =>
    obtain ⟨ptr,target,after,made,served,entry⟩ := newFatItem_run (plain_faithful (imageDevice image)) valid kind
      (show Room k.heap (2+(1+rest)) by rw [← Nat.add_assoc]; exact room)
    rw [newFatItemWith_plain] at made
    obtain ⟨_,at'⟩ := (newFatItem_grown valid made).2.resolve_left served.nonnull
    cases served.held.symm.trans at'.held
    have room := served.room.less (Nat.le_add_left rest 1)
    refine ⟨ptr,after,?_,served.grown,?_,room⟩
    · rw [search,show items.find? (fun entry => entryMatches entry (partString name)) = some last from found]
      exact made
    · cases at'.target with
      | noCopy => rw [served.grown.valid.null] at entry; cases entry
      | file _ fresh => exact .file served.held served.fresh entry fresh
  | @folder _ _ entry n _ found kind folder leads =>
    obtain ⟨moved,listed⟩ := (folder.kept same).listed mounted
    rw [clusterAddress_same same] at listed
    obtain ⟨ptr,after,made,served,_⟩ := newFatItem_directory (plain_faithful (imageDevice image)) (fun ran _ _ => ran) valid kind listed room
    obtain ⟨target,array,item,held,table⟩ := served.target
    rw [newFatItemWith_plain] at made
    obtain ⟨_,at'⟩ := (newFatItem_grown valid made).2.resolve_left item.nonnull
    cases item.held.symm.trans at'.held
    refine ⟨ptr,after,?_,item.grown,?_,item.room⟩
    · rw [search,show items.find? (fun entry => entryMatches entry (partString name)) = some entry from found]
      exact made
    · cases at'.target with
      | failed error => rw [error_unheld item.grown.valid error] at held; cases held
      | directory loaded =>
        cases held.symm.trans loaded.held
        exact .folder item.held item.fresh loaded table leads

theorem fatItemFree_run {k : Kernel} (nonnull : ptr ≠ 0) (held : k.objs ptr = some (.fatItem ⟨target,.directory⟩)) (real : target ≠ 0)
    (directory : k.objs target = some (.fatDirectory found)) : ∃ after, fat16FatItemFree ptr k = .ok ((),after) := by
  have entries : ∃ one, (Prog.when (found.item ≠ 0) (kfree found.item)) k = .ok ((),one) := by
    by_cases none : found.item = 0
    · rw [when_false (by simp [none])]
      exact ⟨k,rfl⟩
    · rw [when_true none]
      exact ⟨_,rfl⟩
  obtain ⟨one,freed⟩ := entries
  have table : fat16FreeDirectory target k = kfree target one := by
    unfold fat16FreeDirectory
    rw [if_neg real,bind_run (loadAs_run asFatDirectory directory rfl),bind_run freed]
  obtain ⟨two,gone⟩ : ∃ two, kfree target one = .ok ((),two) := ⟨_,rfl⟩
  unfold fat16FatItemFree
  rw [if_neg nonnull,bind_run (loadAs_run asFatItem held rfl)]
  dsimp only
  rw [bind_run (table.trans gone)]
  exact ⟨_,rfl⟩

-- The rest of the walk; the induction is on the names still ahead.
theorem walkParts_reaches (names : List (List UInt8)) {base k : Kernel} (mounted : Mounted base.disk fprivate) (grown : Grown base k)
    (reached : Reached image base.disk fprivate last base k current names) (path : PathList base next names)
    (enough : names.length < fuel) (room : Room k.heap (3*names.length+rest)) :
    ∃ ptr after, walkParts (imageDevice image) fuel current next k = .ok (ptr,after) ∧ Grown base after ∧
      Reached image base.disk fprivate last base after ptr [] ∧ Room after.heap rest := by
  induction names generalizing current next fuel k with
  | nil =>
    obtain ⟨fuel,rfl⟩ := Nat.exists_eq_add_of_lt enough
    have done : next = 0 := path
    rw [walkParts,if_pos done]
    rw [List.length_nil,Nat.mul_zero,Nat.zero_add] at room
    exact ⟨current,k,rfl,grown,reached,room⟩
  | cons name names ih =>
    cases fuel with
    | zero => cases enough
    | succ fuel =>
      cases reached with
      | @folder target array items _ held fresh directory table leads =>
        obtain ⟨buf,later,part,string,ahead⟩ := path
        have live : next ≠ 0 := by
          intro null
          rw [null,(grown.fresh grown.valid.null : base.objs 0 = none)] at part
          cases part
        have named : loadPart next k = .ok ((partString name,later),k) := loadPart_run ⟨buf,grown.held part,grown.held string⟩
        have searched : Searched k ⟨array,(items.length : Nat),0,0⟩ items :=
          ⟨rfl,fun _ => ⟨[],by rw [List.append_nil]; exact table⟩⟩
        rw [List.length_cons,show 3*(names.length+1)+rest = 3+(3*names.length+rest) by omega] at room
        obtain ⟨ptr,one,found,more,met,left⟩ := find_reaches grown.valid (mounted.after grown.volume) grown.volume searched leads room
        have item : ItemAt base k current ⟨target,.directory⟩ := ⟨held,fresh,.directory directory⟩
        have still : ItemAt base one current ⟨target,.directory⟩ := ⟨more.held held,fresh,.directory ⟨more.held directory.held,
          directory.fresh,directory.freshEntries,.inr (.inl ⟨items,more.held table⟩)⟩⟩
        obtain ⟨two,freed⟩ := fatItemFree_run (k := one) (grown.valid.low (by simp [held])).1 (more.held held)
          (grown.valid.low (by simp [directory.held])).1 (more.held directory.held)
        obtain ⟨after,kept⟩ := fatItemFree_grown (grown.trans more) still freed
        have same (a : Nat) (empty : k.objs a = none) : two.objs a = one.objs a :=
          kept a (item.apart directory.held (more.kept _ (by simp [directory.held])) (by simp [table]) empty)
        obtain ⟨last',after',ran,final⟩ := ih after (met.survives grown same) ahead (Nat.lt_of_succ_lt_succ enough)
          (fatItemFree_room current _ _ _ _ freed left)
        refine ⟨last',after',?_,final⟩
        rw [walkParts,if_neg live,bind_run (loadAs_run asFatItem held rfl),if_neg (by simp),bind_run named]
        dsimp only
        rw [bind_run (loadAs_run asFatDirectory directory.held rfl),bind_run found,bind_run freed,if_neg (met.nonnull more.valid)]
        exact ran

structure Located (image : Nat → UInt8) (k : Kernel) (fprivate : FatPrivate) (names : List (List UInt8)) (entry : FatDirectoryItem) : Prop where
  mounted : Mounted k.disk fprivate
  leads : ∃ items, Searched k fprivate.rootDirectory items ∧ Leads image k.disk fprivate entry items names

theorem Located.kept {k after : Kernel} (located : Located image k fprivate names entry) (volume : SameVolume k.disk after.disk)
    (kept : ∀ ptr, (k.objs ptr).isSome → after.objs ptr = k.objs ptr) : Located image after fprivate names entry := by
  obtain ⟨items,searched,leads⟩ := located.leads
  refine ⟨located.mounted.after volume,items,⟨searched.total,fun some => ?_⟩,leads.kept volume⟩
  obtain ⟨more,held⟩ := searched.held some
  exact ⟨more,by rw [kept _ (by simp [held])]; exact held⟩

theorem getDirectoryEntry_reaches {k : Kernel} (valid : HeapValid k) (located : Located image k fprivate names entry)
    (path : PathList k first names) (room : Room k.heap (3*names.length+rest)) :
    ∃ ptr after, fat16GetDirectoryEntry (imageDevice image) first k = .ok (ptr,after) ∧ Grown k after ∧
      Reached image k.disk fprivate entry k after ptr [] ∧ Room after.heap rest := by
  obtain ⟨items,searched,leads⟩ := located.leads
  have bounded := path.bounded valid
  cases names with
  | nil => exact absurd rfl leads.some
  | cons name names =>
    obtain ⟨buf,later,part,string,ahead⟩ := path
    rw [List.length_cons,show 3*(names.length+1)+rest = 3+(3*names.length+rest) by omega] at room
    obtain ⟨root,one,found,grown,reached,left⟩ := find_reaches valid located.mounted (.refl _) searched leads room
    obtain ⟨ptr,after,ran,final⟩ := walkParts_reaches names located.mounted grown reached ahead (Nat.lt_of_succ_lt bounded) left
    refine ⟨ptr,after,?_,final⟩
    unfold fat16GetDirectoryEntry
    rw [bind_run (onDisk_run (loadPrivate_run located.mounted)),bind_run (loadPart_run ⟨buf,part,string⟩)]
    dsimp only
    rw [bind_run found,if_neg (reached.nonnull grown.valid)]
    exact ran

theorem fat16Open_located {k : Kernel} (valid : HeapValid k) (located : Located image k fprivate names entry)
    (path : PathList k first names) (room : Room k.heap (1+(3*names.length+rest))) :
    ∃ descriptor after, fat16Open (imageDevice image) first .read k = .ok (descriptor,after) ∧ Grown k after ∧ descriptor ≠ 0 ∧
      DriverFile after descriptor 0 entry ∧ Room after.heap rest := by
  obtain ⟨descriptor,one,allocated,served⟩ := kzalloc_served 8 _ valid (.fatFileDescriptor ⟨0,0⟩) (by decide) (by decide) room
  obtain ⟨item,two,found,grown,reached,left⟩ := getDirectoryEntry_reaches served.grown.valid
    (located.kept served.grown.volume served.grown.kept) (path.grown (fun _ _ => served.grown.held)) served.room
  have kept := grown.held served.held
  cases reached with
  | @file target held fresh array freshEntry =>
    have notItem : item ≠ descriptor := fun same => by rw [same,served.held] at fresh; cases fresh
    have notTarget : target ≠ descriptor := fun same => by rw [same,served.held] at freshEntry; cases freshEntry
    let after := two.place descriptor (.fatFileDescriptor ⟨item,0⟩)
    refine ⟨descriptor,after,?_,(served.grown.trans grown).place served.fresh (by simp [kept]) _,served.nonnull,
      ⟨item,target,Kernel.place_same _ _ _,(Kernel.place_other notItem).trans held,(Kernel.place_other notTarget).trans array⟩,left⟩
    have stored : store descriptor (.fatFileDescriptor ⟨item,0⟩) two = .ok ((),after) := rfl
    unfold fat16Open
    rw [if_neg (by decide),bind_run allocated,if_neg served.nonnull,bind_run found,bind_run stored,
      if_neg (grown.valid.low (by simp [held])).1]
    rfl
  | folder held fresh directory table leads => exact absurd rfl leads.some

end NutsOS.Fat16
