import NutsOS.File.Leak
import NutsOS.Fat16.Parent
import NutsOS.Fat16.Positions
import NutsOS.Fat16.Stops

-- What an open does with a subdirectory that is not loaded.
namespace NutsOS.Fat16
open Word32 HeapAlloc Files DiskStreams Prog

-- A call stops at a fault of the driver, or at a directory that is not loaded.
inductive Unloaded where
  | fault (fault : Fault)
  | failed

instance : DecidablePred IsError := fun _ => inferInstanceAs (Decidable (_ ∧ _))

def checked (dev : BlockDevice) : Services Unloaded where
  run := embed .fault
  kzalloc size zero := embed .fault (NutsOS.kzalloc size zero)
  kfree ptr := embed .fault (NutsOS.kfree ptr)
  loadFatDirectory item := do
    let ptr ← embed .fault (fat16LoadFatDirectory dev item)
    if IsError ptr then Prog.fault .failed else return ptr

theorem checked_watching (dev : BlockDevice) : Watching Unloaded.fault (checked dev) dev where
  run x := watches_embed x
  kzalloc size zero := watches_embed _
  kfree ptr := watches_embed (NutsOS.kfree ptr)
  loadFatDirectory item := by
    refine watches_check (watches_embed _) (fun ptr => ?_)
    by_cases error : IsError ptr
    · rw [if_pos error]
      exact watches_stop (fun _ same => by cases same) _
    · rw [if_neg error]
      exact watches_pure ptr
  reading _ _ same := same

theorem failed_own (f : Fault) : Unloaded.failed ≠ .fault f := nofun

-- An item with an error code for the address of its directory.
structure Stray (base k : Kernel) (ptr : Nat) : Prop where
  grown : Grown base k
  item : ∃ target, ItemAt base k ptr ⟨target,.directory⟩ ∧ IsError target

theorem Stray.nonnull (stray : Stray base k ptr) : ptr ≠ 0 := by
  obtain ⟨target,valid,_⟩ := stray.item
  intro null
  have held := valid.held
  rw [null,stray.grown.valid.null] at held
  cases held

theorem load_error {k : Kernel} (valid : HeapValid k) (error : IsError ptr) : loadAs view ptr k = .error (.deref ptr) := by
  unfold loadAs
  rw [get_bind,error_unheld valid error]
  rfl

def Astray (item : FatItem) : Prop := item.type = .directory ∧ IsError item.target

theorem newFatItem_failed {k : Kernel} (valid : HeapValid k) (stopped : newFatItemWith (checked dev) entry k = .error .failed) :
    ∃ ptr after, fat16NewFatItemForDirectoryItem dev entry k = .ok (ptr,after) ∧ Leftover Astray False k after ptr := by
  obtain ⟨fatItem,one,allocated,rest⟩ := embed_rest failed_own stopped
  obtain ⟨first,result⟩ := kzalloc_fresh valid (by decide) allocated
  rcases result with ⟨none,_⟩ | ⟨nonnull,fresh,held⟩
  · rw [if_pos none] at rest
    cases rest
  rw [if_neg nonnull] at rest
  by_cases sub : FatDirectoryItem.isSubdirectory entry = true
  · rw [if_pos sub] at rest
    rcases bind_error rest with failed | ⟨_,two,_,stored⟩
    · obtain ⟨target,two,loaded,error⟩ := check_stopped failed_own failed
      obtain ⟨second,_⟩ := loadFatDirectory_grown first.valid loaded
      have kept := second.held held
      refine ⟨fatItem,two.place fatItem (.fatItem ⟨target,.directory⟩),?_,(first.trans second).place fresh (by simp [kept]) _,
        .inr ⟨⟨target,.directory⟩,⟨Kernel.place_same _ _ _,fresh,.failed error⟩,rfl,error⟩⟩
      unfold fat16NewFatItemForDirectoryItem
      rw [bind_run allocated,if_neg nonnull,if_pos sub,bind_run loaded]
      rfl
    · cases stored
  · rw [if_neg sub] at rest
    exfalso
    rcases bind_error rest with copied | ⟨_,two,_,stored⟩
    · obtain ⟨copy,three,_,copied⟩ := embed_rest failed_own copied
      split at copied
      · cases copied
      · cases copied
    · cases stored

-- The item is taken for an open file, or its address for that of a directory.
inductive Strays (base : Kernel) : Except Fault (Nat × Kernel) → Prop where
  | item (stray : Stray base after ptr) : Strays base (.ok (ptr,after))
  | dereferenced (error : IsError target) : Strays base (.error (.deref target))

theorem walkParts_stray {base k : Kernel} (grown : Grown base k) (valid : ItemAt base k current item) (astray : Astray item)
    (list : PathList base next names) (enough : names.length < fuel) (dev : BlockDevice) : Strays base (walkParts dev fuel current next k) := by
  obtain ⟨fuel,rfl⟩ : ∃ more, fuel = more+1 := ⟨fuel-1,by omega⟩
  obtain ⟨target,type⟩ := item
  obtain ⟨rfl,error⟩ : type = .directory ∧ IsError target := astray
  cases names with
  | nil =>
    obtain rfl : next = 0 := list
    rw [walkParts,if_pos rfl]
    exact .item ⟨grown,target,valid,error⟩
  | cons name rest =>
    obtain ⟨buf,later,part,chars,_⟩ := list
    have partAt : PartAt k next name later := ⟨buf,grown.held part,grown.held chars⟩
    rw [walkParts,if_neg (partAt.nonnull grown.valid),bind_run (loadAs_run asFatItem valid.held rfl),if_neg (by simp),
      bind_run (loadPart_run partAt)]
    dsimp only
    rw [bind_fault (load_error grown.valid error)]
    exact .dereferenced error

theorem checked_embedded (dev : BlockDevice) : Embedded Unloaded.fault (checked dev) := ⟨fun _ => rfl,fun _ => rfl,fun _ _ _ => rfl⟩

theorem getDirectoryEntry_failed {k : Kernel} (valid : HeapValid k) (list : PathList k path names)
    (stopped : getDirectoryEntryWith (checked dev) path k = .error .failed) : Strays k (fat16GetDirectoryEntry dev path k) :=
  getDirectoryEntry_stopped (checked_embedded dev) failed_own newFatItem_failed (checked_watching dev) (fun none => none.elim)
    (fun grown at' astray left enough => walkParts_stray grown at' astray left enough dev) valid list stopped

-- What becomes of the error code: the open succeeds with it in place of a
-- directory, and the close dereferences it; or the walk does.
inductive Mishandled : Except Fault (Nat × Kernel) → Prop where
  | opened (regular : ¬ IsError ptr) (held : after.objs ptr = some (.fatFileDescriptor ⟨item,0⟩))
      (stored : after.objs item = some (.fatItem ⟨target,.directory⟩)) (error : IsError target)
      (closing : fat16Close ptr after = .error (.deref target)) : Mishandled (.ok (ptr,after))
  | dereferenced (error : IsError target) : Mishandled (.error (.deref target))

def FailureHandled (dev : BlockDevice) (path : Nat) (mode : FileMode) (k : Kernel) : Prop :=
  ∃ ptr after, fat16Open dev path mode k = .ok (ptr,after) ∧ IsError ptr ∧ allocated after = allocated k

theorem Mishandled.unhandled (mishandled : Mishandled (fat16Open dev path mode k)) : ¬ FailureHandled dev path mode k := by
  rintro ⟨ptr,after,ran,error,_⟩
  rw [ran] at mishandled
  cases mishandled with
  | opened regular => exact regular error

theorem close_stray {k : Kernel} (valid : HeapValid k) (held : k.objs ptr = some (.fatFileDescriptor ⟨item,pos⟩))
    (stored : k.objs item = some (.fatItem ⟨target,.directory⟩)) (error : IsError target) : fat16Close ptr k = .error (.deref target) := by
  have some : item ≠ 0 := by
    intro null
    rw [null,valid.null] at stored
    cases stored
  have nonnull : target ≠ 0 := by
    unfold IsError at error
    omega
  have released : fat16FreeDirectory target k = .error (.deref target) := by
    unfold fat16FreeDirectory
    rw [if_neg nonnull,bind_fault (load_error valid error)]
  have freed : fat16FatItemFree item k = .error (.deref target) := by
    unfold fat16FatItemFree
    rw [if_neg some,bind_run (loadAs_run asFatItem stored rfl)]
    exact bind_fault released
  unfold fat16Close
  rw [bind_run (loadAs_run asFatFileDescriptor held rfl),bind_fault freed]

theorem open_mishandled {k : Kernel} (valid : HeapValid k) (list : PathList k path names)
    (stopped : openWith (checked dev) path mode k = .error .failed) : Mishandled (fat16Open dev path mode k) := by
  unfold openWith at stopped
  unfold fat16Open
  by_cases writes : mode ≠ .read
  · rw [if_pos writes] at stopped
    cases stopped
  rw [if_neg writes] at stopped ⊢
  obtain ⟨descriptor,one,allocated,stopped⟩ := embed_rest failed_own stopped
  obtain ⟨first,result⟩ := kzalloc_fresh valid (by decide) allocated
  rcases result with ⟨none,_⟩ | ⟨nonnull,fresh,held⟩
  · rw [if_pos none] at stopped
    cases stopped
  rw [if_neg nonnull] at stopped
  rw [bind_run allocated,if_neg nonnull]
  rcases bind_error stopped with failed | ⟨item,two,_,stopped⟩
  · have strays := getDirectoryEntry_failed first.valid (list.grown (fun _ _ part => first.held part)) failed
    generalize walked : fat16GetDirectoryEntry dev path one = result at strays
    cases strays with
    | dereferenced error =>
      rw [bind_fault walked]
      exact .dereferenced error
    | @item two item stray =>
      obtain ⟨target,at',error⟩ := stray.item
      have kept := stray.grown.held held
      let after := two.place descriptor (.fatFileDescriptor ⟨item,0⟩)
      have valid' : HeapValid after := stray.grown.valid.place (by simp [kept]) _
      have here : after.objs descriptor = some (.fatFileDescriptor ⟨item,0⟩) := Kernel.place_same _ _ _
      have there : after.objs item = some (.fatItem ⟨target,.directory⟩) := by
        have different : item ≠ descriptor := by
          intro same
          have new := at'.fresh
          rw [same,held] at new
          cases new
        exact (Kernel.place_other different).trans at'.held
      have stored : store descriptor (.fatFileDescriptor ⟨item,0⟩) two = .ok ((),after) := rfl
      have regular : ¬ IsError descriptor := fun error => by
        rw [error_unheld first.valid error] at held
        cases held
      rw [bind_run walked,bind_run stored,if_neg stray.nonnull]
      exact .opened regular here there error (close_stray valid' here there error)
  · obtain ⟨_,_,_,stopped⟩ := embed_rest (x := store descriptor (.fatFileDescriptor ⟨item,0⟩)) failed_own stopped
    split at stopped
    · obtain ⟨_,_,_,stopped⟩ := embed_rest (x := kfree descriptor) failed_own stopped
      cases stopped
    · cases stopped

theorem load_failure_mishandled {k : Kernel} (valid : HeapValid k) (list : PathList k path names)
    (failed : openWith (checked dev) path mode k = .error .failed) :
    ¬ FailureHandled dev path mode k ∧ Mishandled (fat16Open dev path mode k) := by
  have mishandled := open_mishandled valid list failed
  exact ⟨mishandled.unhandled,mishandled⟩

theorem checked_faithful (dev : BlockDevice) : Faithful (checked dev) := ⟨embed_run,fun ran _ => embed_run ran⟩

theorem landing_ge (start steps levels : Nat) : start+steps+levels ≤ landing start steps levels := by
  induction levels generalizing start steps with
  | zero => exact Nat.le_refl _
  | succ levels ih =>
    have later := ih (start+steps) (steps+1)
    rw [landing]
    omega

theorem short_load {k : Kernel} (image : Nat → UInt8) (valid : HeapValid k) (mounted : Mounted k.disk fprivate)
    (sub : FatDirectoryItem.isSubdirectory entry = true) (chain : FileChain image fprivate (entry.low16BitsFirstCluster::rest))
    (fits : Addressable k.disk fprivate (entry.low16BitsFirstCluster::rest)) (positive : 0 < clusterSize fprivate)
    (ends : EndsAt (fun j => image (clusterAddress k.disk fprivate entry.low16BitsFirstCluster+j)) t)
    (bound : clusterAddress k.disk fprivate entry.low16BitsFirstCluster+32*(t+1) ≤ 2147483648)
    (short : (entry.low16BitsFirstCluster::rest).length*clusterSize fprivate <
      32*liveCount (fun j => image (clusterAddress k.disk fprivate entry.low16BitsFirstCluster+j)) 0 t) :
    ∃ ptr after, fat16LoadFatDirectory (imageDevice image) entry k = .ok (ptr,after) ∧ IsError ptr := by
  have outcome := load_outcome valid mounted (imageDevice image) sub
  obtain ⟨low,small⟩ := chain.data _ List.mem_cons_self
  have most := liveCount_le (fun j => image (clusterAddress k.disk fprivate entry.low16BitsFirstCluster+j)) 0 t
  obtain ⟨disk,counted,same⟩ := totalItems_run image mounted (clusterSector_address mounted low small (by omega)) ends bound
  generalize liveCount (fun j => image (clusterAddress k.disk fprivate entry.low16BitsFirstCluster+j)) 0 t = n at *
  have size : toInt32 (((n : Nat) : Int)*32) = ((32*n : Nat) : Int) := by
    rw [Int.natCast_mul,Int.mul_comm]
    exact toInt32_natCast (n := 32*n) (by omega)
  have known := mounted.after same
  obtain ⟨after,res,bytes,read',_,landed,_⟩ := fat16ReadInternal_lands 0 (32*n) image known chain
    ⟨fits.table,by unfold clusterAddress; rw [same.sectorSize]; exact fits.data⟩ (by omega) positive (by omega)
  have read : fat16ReadInternal (imageDevice image) entry.low16BitsFirstCluster 0 (32*n : Nat) disk = .ok ((res,bytes),after) := read'
  have refused : tableOf (imageDevice image) entry.low16BitsFirstCluster k.disk = .ok (.error (-eio),after) := by
    -- the first position behind the chain lands behind it
    have behind := landing_ge 0 0 (entry.low16BitsFirstCluster::rest).length
    rcases landed with ⟨all,_⟩ | ⟨_,rfl⟩
    · have inside := all ((entry.low16BitsFirstCluster::rest).length*clusterSize fprivate) (Nat.zero_le _) (by omega)
      unfold landedIndex at inside
      rw [Nat.zero_div,Nat.mul_div_cancel _ positive,Nat.sub_zero] at inside
      omega
    · unfold tableOf
      rw [bind_run (loadPrivate_run mounted),bind_run counted,if_neg (by omega),size,bind_run read]
      rfl
  generalize fat16LoadFatDirectory (imageDevice image) entry k = result at outcome
  cases outcome with
  | full => exact ⟨_,_,rfl,errToPtr_error (.inr (.inr (.inl rfl)))⟩
  | refused _ => exact ⟨_,_,rfl,errToPtr_error (.inl rfl)⟩
  | fault table => cases refused.symm.trans table
  | loaded table => cases refused.symm.trans table

-- The directory D with 513 entries: its one cluster has room for 512.
def shortImage (pos : Nat) : UInt8 := if pos = 516 ∨ pos = 517 then 0xFF else if 33280 ≤ pos ∧ pos < 49696 then 0x41 else 0

theorem short_letter (less : i < 513) : shortImage (33280+32*i) = 0x41 := by
  unfold shortImage
  rw [if_neg (by omega),if_pos (by omega)]

theorem short_ends : EndsAt (fun j => shortImage (33280+j)) 513 := by
  refine ⟨fun i less => ?_,by decide⟩
  rw [short_letter less]
  decide

theorem short_live : liveCount (fun j => shortImage (33280+j)) 0 513 = 513 := by
  refine liveCount_all (fun i _ less deleted => ?_)
  have letter : shortImage (33280+32*i) = nutsosFat16UnusedEntry := deleted
  rw [short_letter (by omega)] at letter
  exact absurd letter (by decide)

theorem TreeVolume.short {k : Kernel} (tree : TreeVolume k.disk fprivate) (table : fprivate.fatTableAddress = 512) (valid : HeapValid k) :
    ∃ ptr after, fat16LoadFatDirectory (imageDevice shortImage) treeEntry k = .ok (ptr,after) ∧ IsError ptr := by
  have size : clusterSize fprivate = 16384 := by
    unfold clusterSize
    rw [tree.size]
    rfl
  have address : clusterAddress k.disk fprivate 2 = 33280 := by
    unfold clusterAddress
    rw [tree.ending,tree.sector,tree.header]
    rfl
  have entry : fatEntry shortImage fprivate 2 = 0xFFFF := by
    unfold fatEntry
    rw [table]
    rfl
  have none : nextCluster shortImage fprivate 2 = none := by
    unfold nextCluster
    rw [entry]
    rfl
  have chain : FileChain shortImage fprivate (treeEntry.low16BitsFirstCluster::[]) := by
    refine ⟨none,?_,?_⟩
    · intro c member
      obtain rfl := List.mem_singleton.mp member
      decide
    · intro c member _
      obtain rfl := List.mem_singleton.mp member
      exact .inl entry
  have fits : Addressable k.disk fprivate (treeEntry.low16BitsFirstCluster::[]) := by
    refine ⟨?_,?_⟩
    · intro c member
      obtain rfl := List.mem_singleton.mp member
      rw [table]
      decide
    · intro c member
      obtain rfl := List.mem_singleton.mp member
      rw [size,show treeEntry.low16BitsFirstCluster = 2 from rfl,address]
      decide
  refine short_load shortImage valid tree.mounted (by decide) chain fits (by rw [size]; decide) (t := 513) ?_ ?_ ?_
  all_goals rw [show treeEntry.low16BitsFirstCluster = 2 from rfl,address]
  · exact short_ends
  · decide
  · rw [size,short_live]
    decide

theorem short_open_fails : ∃ k path, HeapValid k ∧ PathList k path [treeName] ∧
    openWith (checked (imageDevice shortImage)) path .read k = .error .failed := by
  obtain ⟨item,start⟩ := tree_start
  obtain ⟨k,path,_,grown,list,_,room⟩ := start.paths [0x64] [] (by decide) (by decide) (by decide)
  rw [show parts [0x64] = [treeName] by decide] at list
  refine ⟨k,path,grown.valid,list,?_⟩
  obtain ⟨descriptor,one,allocated,first⟩ := kzalloc_served 8 _ grown.valid (.fatFileDescriptor ⟨0,0⟩) (by decide) (by decide)
    (room.less (show 1+(1+0) ≤ 64 by decide))
  have grownOne := grown.trans first.grown
  have search := start.search grownOne
  obtain ⟨buf,later,part,chars,_⟩ := list
  have partAt : PartAt one path treeName later := ⟨buf,first.grown.held part,first.grown.held chars⟩
  have held : one.objs (treeRoot item).rootDirectory.item = some (.directoryItems ([]++[]++treeEntry::[])) := search.held (by decide)
  have found : findItemInDirectoryWith (checked (imageDevice shortImage)) (treeRoot item).rootDirectory (partString treeName) one =
      newFatItemWith (checked (imageDevice shortImage)) treeEntry one :=
    findItem_run (checked_faithful (imageDevice shortImage)) [] held (fun _ none => by cases none) tree_found (Nat.one_pos : 0 < 1)
  obtain ⟨fatItem,two,allocated',second⟩ := kzalloc_served 8 _ grownOne.valid (.fatItem ⟨0,.directory⟩) (by decide) (by decide) first.room
  have sub : FatDirectoryItem.isSubdirectory treeEntry = true := by decide
  obtain ⟨target,three,loaded,error⟩ := (start.tree _ (grownOne.trans second.grown).volume).short rfl second.grown.valid
  have unloaded : (checked (imageDevice shortImage)).loadFatDirectory treeEntry two = .error .failed := by
    show (embed Unloaded.fault (fat16LoadFatDirectory (imageDevice shortImage) treeEntry) >>= fun ptr => if IsError ptr then fault .failed else pure ptr) two = _
    rw [bind_run (embed_run loaded),if_pos error]
    rfl
  have entry : getDirectoryEntryWith (checked (imageDevice shortImage)) path one = .error .failed := by
    unfold getDirectoryEntryWith
    rw [bind_run ((checked_faithful (imageDevice shortImage)).run (onDisk_run (loadPrivate_run search.mounted))),
      bind_run ((checked_faithful (imageDevice shortImage)).run (loadPart_run partAt))]
    dsimp only
    refine bind_fault ?_
    rw [found]
    unfold newFatItemWith
    rw [bind_run ((checked_faithful (imageDevice shortImage)).kzalloc allocated' second.nonnull),if_neg second.nonnull,if_pos (by decide),
      bind_fault unloaded]
  unfold openWith
  rw [if_neg (by decide),bind_run ((checked_faithful (imageDevice shortImage)).kzalloc allocated first.nonnull),if_neg first.nonnull,bind_fault entry]

theorem short_open_mishandled : ∃ k path, Mishandled (fat16Open (imageDevice shortImage) path .read k) := by
  obtain ⟨k,path,valid,list,failed⟩ := short_open_fails
  exact ⟨k,path,(load_failure_mishandled valid list failed).2⟩

theorem failed_load_opened : ∃ k path, HeapValid k ∧ PathList k path [treeName] ∧
    openWith (checked (imageDevice shortImage)) path .read k = .error .failed ∧ ¬ FailureHandled (imageDevice shortImage) path .read k := by
  obtain ⟨k,path,valid,list,failed⟩ := short_open_fails
  exact ⟨k,path,valid,list,failed,(open_mishandled valid list failed).unhandled⟩

end NutsOS.Fat16
