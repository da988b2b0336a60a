import NutsOS.Fat16.Resolution

-- Where the watched calls stop, the driver goes on with the item of the search.
namespace NutsOS.Fat16
open Word32 HeapAlloc Files DiskStreams Prog

-- The driver's search has ended on an item of this kind, or on NULL.
structure Leftover (kind : FatItem → Prop) (missing : Prop) (base k : Kernel) (ptr : Nat) : Prop where
  grown : Grown base k
  item : (ptr = 0 ∧ missing) ∨ ∃ item, ItemAt base k ptr item ∧ kind item

theorem ItemAt.nonnull {base k : Kernel} (at' : ItemAt base k ptr item) (valid : HeapValid k) : ptr ≠ 0 := by
  intro null
  have held := at'.held
  rw [null,valid.null] at held
  cases held

section
variable {ε : Type} {lift : Fault → ε} {services : Services ε} {stop : ε} {dev : BlockDevice} {kind : FatItem → Prop} {missing : Prop}
  (embedded : Embedded lift services) (own : ∀ f, stop ≠ lift f)
  (made : ∀ {k : Kernel} {entry : FatDirectoryItem}, HeapValid k → newFatItemWith services entry k = .error stop →
    ∃ ptr after, fat16NewFatItemForDirectoryItem dev entry k = .ok (ptr,after) ∧ Leftover kind missing k after ptr)
include embedded own made

theorem findItem_stopped {k : Kernel} (valid : HeapValid k) (stopped : findItemWith services directory name count i k = .error stop) :
    ∃ ptr after, findItem dev directory name count i k = .ok (ptr,after) ∧ Leftover kind missing k after ptr := by
  induction count generalizing i with
  | zero => cases stopped
  | succ count ih =>
    rw [findItemWith,embedded.run] at stopped
    obtain ⟨items,one,loaded,rest⟩ := embed_rest own stopped
    obtain ⟨rfl,_⟩ := load_held asDirectoryItems_eq loaded
    rw [findItem,bind_run loaded]
    cases entry : items[i]? with
    | none =>
      rw [entry,embedded.run] at rest
      exact absurd rest (embed_unstopped own)
    | some item =>
      rw [entry] at rest
      dsimp only at rest ⊢
      by_cases found : entryMatches item name = true
      · rw [if_pos found] at rest ⊢
        exact made valid rest
      · rw [if_neg found] at rest ⊢
        exact ih rest

variable (watching : Watching lift services dev) {R : Except Fault (Nat × Kernel) → Prop} (absent : missing → ∀ after, R (.ok (0,after)))
include watching absent

theorem walkParts_stopped {base k : Kernel}
    (onward : ∀ {k ptr item next names fuel}, Grown base k → ItemAt base k ptr item → kind item → PathList base next names →
      names.length < fuel → R (walkParts dev fuel ptr next k))
    (grown : Grown base k) (valid : ItemAt base k current item) (list : PathList base next names) (enough : names.length < fuel)
    (stopped : walkPartsWith services fuel current next k = .error stop) : R (walkParts dev fuel current next k) := by
  induction names generalizing current next item k fuel with
  | nil =>
    obtain ⟨fuel,rfl⟩ : ∃ more, fuel = more+1 := ⟨fuel-1,by omega⟩
    obtain rfl : next = 0 := list
    rw [walkPartsWith,if_pos rfl] at stopped
    cases stopped
  | cons name rest ih =>
    obtain ⟨fuel,rfl⟩ : ∃ more, fuel = more+1 := ⟨fuel-1,by omega⟩
    rw [List.length_cons] at enough
    obtain ⟨buf,later,part,chars,left⟩ := list
    have partAt : PartAt k next name later := ⟨buf,grown.held part,grown.held chars⟩
    have more := partAt.nonnull grown.valid
    rw [walkPartsWith,if_neg more,embedded.run] at stopped
    obtain ⟨found,one,loaded,stopped⟩ := embed_rest own stopped
    obtain ⟨rfl,held⟩ := load_held asFatItem_eq loaded
    cases valid.held.symm.trans held
    by_cases file : item.type ≠ .directory
    · rw [if_pos file,fatItemFree_embed embedded] at stopped
      obtain ⟨_,_,_,stopped⟩ := embed_rest own stopped
      cases stopped
    rw [if_neg file,embedded.run] at stopped
    obtain ⟨_,_,named,stopped⟩ := embed_rest own stopped
    cases named.symm.trans (loadPart_run partAt)
    dsimp only at stopped
    rw [embedded.reading,embedded.run] at stopped
    obtain ⟨directory,_,opened,stopped⟩ := embed_rest own stopped
    obtain ⟨rfl,present⟩ := load_held asFatDirectory_eq opened
    rw [walkParts,if_neg more,bind_run loaded,if_neg file,bind_run (loadPart_run partAt)]
    dsimp only
    rw [bind_run opened]
    -- the current directory goes, whatever was found in it
    have leaves {nextItem : Nat} {middle : Kernel} (searched : fat16FindItemInDirectory dev directory (partString name) k = .ok (nextItem,middle))
        (grownMiddle : Grown k middle) :
        ∃ after, fat16FatItemFree current middle = .ok ((),after) ∧ Grown base after ∧
          (nextItem ≠ 0 → ∀ found, ItemAt k middle nextItem found → ItemAt base after nextItem found) := by
      have still := valid.searched present grownMiddle (findItem_empty searched)
      obtain ⟨after,freed,left,kept,blocks,_⟩ := fatItemFree_supplied (grown.trans grownMiddle) still dev
        (fun _ => ⟨directory,grownMiddle.held present⟩)
      rw [fatItemFree_embed (supplied_embedded dev)] at freed
      refine ⟨after,embed_ok freed,left,fun some found at' => at'.survives grown (fun a fresh => kept a ?_) blocks⟩
      exact valid.apart present (grownMiddle.kept _ (by simp [present])) (findItem_array searched some) fresh
    rcases bind_error stopped with failed | ⟨nextItem,middle,searched,stopped⟩
    · obtain ⟨ptr,middle,searched,leftover⟩ := findItem_stopped embedded own made grown.valid failed
      have searched : fat16FindItemInDirectory dev directory (partString name) k = .ok (ptr,middle) := searched
      obtain ⟨after,freed,grownAfter,moved⟩ := leaves searched leftover.grown
      rw [bind_run searched,bind_run freed]
      by_cases null : ptr = 0
      · rw [if_pos null]
        rcases leftover.item with ⟨_,none⟩ | ⟨_,at',_⟩
        · exact absent none after
        · exact absurd null (at'.nonnull leftover.grown.valid)
      · rw [if_neg null]
        obtain ⟨item,at',same⟩ := leftover.item.resolve_left (fun none => null none.1)
        exact onward grownAfter (moved null _ at') same left (by omega)
    · have found := (findItem_watches watching directory (partString name) directory.total.toNat 0 k).returned searched
      rw [findItemWith_plain] at found
      have searched : fat16FindItemInDirectory dev directory (partString name) k = .ok (nextItem,middle) := found
      rw [fatItemFree_embed embedded] at stopped
      obtain ⟨_,after,freed,stopped⟩ := embed_rest own stopped
      by_cases null : nextItem = 0
      · rw [if_pos null] at stopped
        cases stopped
      rw [if_neg null] at stopped
      obtain ⟨grownMiddle,result⟩ := findItem_grown grown.valid found
      obtain ⟨next,at'⟩ := result.resolve_left null
      obtain ⟨_,freed',grownAfter,moved⟩ := leaves searched grownMiddle
      cases freed'.symm.trans freed
      rw [bind_run searched,bind_run freed,if_neg null]
      exact ih grownAfter (moved null _ at') left (by omega) stopped

theorem getDirectoryEntry_stopped {k : Kernel}
    (onward : ∀ {l ptr item next names fuel}, Grown k l → ItemAt k l ptr item → kind item → PathList k next names →
      names.length < fuel → R (walkParts dev fuel ptr next l))
    (valid : HeapValid k) (list : PathList k path names) (stopped : getDirectoryEntryWith services path k = .error stop) :
    R (fat16GetDirectoryEntry dev path k) := by
  unfold getDirectoryEntryWith at stopped
  rw [embedded.run] at stopped
  obtain ⟨fprivate,one,loaded,stopped⟩ := embed_rest own stopped
  obtain ⟨disk,known,rfl⟩ := focus_ok.mp loaded
  obtain rfl := loadPrivate_ok known
  rw [embedded.run] at stopped
  obtain ⟨⟨name,later⟩,two,part,stopped⟩ := embed_rest own stopped
  obtain rfl := loadPart_held part
  cases names with
  | nil =>
    obtain rfl : path = 0 := list
    obtain ⟨found,_,first,_⟩ := bind_ok.mp part
    have held := (load_held asPathPart_eq first).2
    rw [valid.null] at held
    cases held
  | cons first rest =>
    have bound := list.bounded valid
    obtain ⟨buf,next,held,chars,left⟩ := list
    cases part.symm.trans (loadPart_run ⟨buf,held,chars⟩)
    unfold fat16GetDirectoryEntry
    rw [bind_run loaded,bind_run part]
    dsimp only
    rcases bind_error stopped with failed | ⟨item,middle,searched,stopped⟩
    · obtain ⟨ptr,middle,searched,leftover⟩ := findItem_stopped embedded own made valid failed
      have searched : fat16FindItemInDirectory dev fprivate.rootDirectory (partString first) k = .ok (ptr,middle) := searched
      rw [bind_run searched]
      by_cases null : ptr = 0
      · rw [if_pos null]
        rcases leftover.item with ⟨_,none⟩ | ⟨_,at',_⟩
        · exact absent none middle
        · exact absurd null (at'.nonnull leftover.grown.valid)
      · rw [if_neg null]
        obtain ⟨item,at',same⟩ := leftover.item.resolve_left (fun none => null none.1)
        exact onward leftover.grown at' same left (by rw [List.length_cons] at bound; omega)
    · have found := (findItem_watches watching fprivate.rootDirectory (partString first) _ 0 k).returned searched
      rw [findItemWith_plain] at found
      have searched : fat16FindItemInDirectory dev fprivate.rootDirectory (partString first) k = .ok (item,middle) := found
      by_cases null : item = 0
      · rw [if_pos null] at stopped
        cases stopped
      rw [if_neg null] at stopped
      obtain ⟨grown,result⟩ := findItem_grown valid found
      obtain ⟨_,at'⟩ := result.resolve_left null
      rw [bind_run searched,if_neg null]
      exact walkParts_stopped embedded own made watching absent onward grown at' left (by rw [List.length_cons] at bound; omega) stopped

end

-- An item of a file that has no copy of its entry, or a directory that is not loaded.
def Incomplete (item : FatItem) : Prop := item = ⟨0,.file⟩ ∨ (item.type = .directory ∧ IsError item.target)

theorem full_own (f : Fault) : Shortage.full ≠ .fault f := nofun

theorem newFatItem_full {k : Kernel} (valid : HeapValid k) (stopped : newFatItemWith (supplied dev) entry k = .error .full) :
    ∃ ptr after, fat16NewFatItemForDirectoryItem dev entry k = .ok (ptr,after) ∧ Leftover Incomplete True k after ptr := by
  unfold fat16NewFatItemForDirectoryItem
  rcases bind_error stopped with refused | ⟨fatItem,one,allocated,stopped⟩
  · obtain ⟨ptr,after,ran,none⟩ := check_stopped full_own refused
    obtain ⟨grown,_⟩ := kzalloc_fresh valid (by decide) ran
    rw [bind_run ran,if_pos none]
    exact ⟨0,after,rfl,grown,.inl ⟨rfl,trivial⟩⟩
  have allocated := ((supplied_watching dev).kzalloc 8 (.fatItem ⟨0,.directory⟩) k).returned allocated
  obtain ⟨first,result⟩ := kzalloc_fresh valid (by decide) allocated
  rcases result with ⟨none,_⟩ | ⟨nonnull,fresh,held⟩
  · rw [if_pos none] at stopped
    cases stopped
  rw [if_neg nonnull] at stopped
  rw [bind_run allocated,if_neg nonnull]
  have placed {two : Kernel} (second : Grown one two) (item : FatItem) (target : TargetAt k (two.place fatItem (.fatItem item)) item)
      (kind : Incomplete item) : Leftover Incomplete True k (two.place fatItem (.fatItem item)) fatItem :=
    ⟨(first.trans second).place fresh (by simp [second.held held]) _,.inr ⟨item,⟨Kernel.place_same _ _ _,fresh,target⟩,kind⟩⟩
  by_cases sub : FatDirectoryItem.isSubdirectory entry = true
  · rw [if_pos sub] at stopped ⊢
    rcases bind_error stopped with failed | ⟨_,_,_,stored⟩
    · obtain ⟨target,two,loaded,full⟩ := check_stopped full_own failed
      obtain ⟨second,_⟩ := loadFatDirectory_grown first.valid loaded
      have error : IsError target := full ▸ errToPtr_error (.inr (.inr (.inl rfl)))
      rw [bind_run loaded]
      exact ⟨fatItem,_,rfl,placed second ⟨target,.directory⟩ (.failed error) (.inr ⟨rfl,error⟩)⟩
    · cases stored
  · rw [if_neg sub] at stopped ⊢
    rcases bind_error stopped with failed | ⟨_,_,_,stored⟩
    · rcases bind_error failed with refused | ⟨copy,_,_,copied⟩
      · obtain ⟨copy,two,ran,none⟩ := check_stopped full_own refused
        obtain ⟨second,_⟩ := kzalloc_fresh first.valid (by decide) ran
        have copied : fat16CopyDirectoryItem entry one = .ok (0,two) := by
          unfold fat16CopyDirectoryItem
          rw [bind_run ran,if_pos none]
          rfl
        rw [bind_run copied]
        exact ⟨fatItem,_,rfl,placed second ⟨0,.file⟩ .noCopy (.inl rfl)⟩
      · split at copied
        · cases copied
        · cases copied
    · cases stored

-- What the walk returns is no file with a copy of its entry.
def NoCopy (result : Except Fault (Nat × Kernel)) : Prop :=
  ∀ ptr after target, result = .ok (ptr,after) → ptr ≠ 0 → after.objs ptr = some (.fatItem ⟨target,.file⟩) → target = 0

theorem walkParts_incomplete {base k : Kernel} (grown : Grown base k) (at' : ItemAt base k current item) (kind : Incomplete item)
    (enough : 0 < fuel) (dev : BlockDevice) (next : Nat) : NoCopy (walkParts dev fuel current next k) := by
  obtain ⟨fuel,rfl⟩ := Nat.exists_eq_add_one_of_ne_zero (Nat.ne_of_gt enough)
  intro ptr after target ran some held
  by_cases ended : next = 0
  · rw [walkParts,if_pos ended] at ran
    cases ran
    cases at'.held.symm.trans held
    rcases kind with same | ⟨directory,_⟩
    · exact (FatItem.mk.inj same).1
    · cases directory
  rw [walkParts,if_neg ended,bind_run (loadAs_run asFatItem at'.held rfl)] at ran
  rcases kind with rfl | ⟨directory,error⟩
  · obtain ⟨_,_,_,ran⟩ := bind_ok.mp ran
    cases ran
    exact absurd rfl some
  · rw [if_neg (by simp [directory])] at ran
    obtain ⟨_,l,part,ran⟩ := bind_ok.mp ran
    obtain rfl := loadPart_held part
    obtain ⟨_,_,loaded,_⟩ := bind_ok.mp ran
    have present := (load_held asFatDirectory_eq loaded).2
    rw [error_unheld grown.valid error] at present
    cases present

-- A file that the walk has found, with the copy of its entry, is the one that
-- the tables lead to.
theorem getDirectoryEntry_copied {k : Kernel} (valid : HeapValid k) (root : RootSearch k fprivate table) (list : PathList k path names)
    (ran : fat16GetDirectoryEntry dev path k = .ok (ptr,after)) (some' : ptr ≠ 0) (held : after.objs ptr = some (.fatItem ⟨target,.file⟩))
    (copy : after.objs target = some (.directoryItems [entry])) : (volumeOf dev k.disk).resolve table names = .ok (some (.file entry)) := by
  have some : names ≠ [] := by
    rintro rfl
    obtain rfl : path = 0 := list
    obtain ⟨_,l,known,ran⟩ := bind_ok.mp ran
    obtain ⟨disk,private',rfl⟩ := focus_ok.mp known
    obtain rfl := loadPrivate_ok private'
    obtain ⟨_,_,part,_⟩ := bind_ok.mp ran
    obtain ⟨_,_,first,_⟩ := bind_ok.mp part
    have present := (load_held asPathPart_eq first).2
    rw [valid.null] at present
    cases present
  have realizes := getDirectoryEntry_supplied (supplied_supplying dev) valid root list some
  have watches := getDirectoryEntry_watches (supplied_watching dev) path k
  generalize walked : getDirectoryEntryWith (supplied dev) path k = result at realizes watches
  cases realizes with
  | @ok answer other l equal related =>
    cases (watches.returned rfl).symm.trans ran
    rw [equal]
    cases answer with
    | none => exact absurd related.1 some'
    | some node =>
      cases node with
      | file found =>
        obtain ⟨other,at',array⟩ := related.2.2
        cases at'.held.symm.trans held
        cases array.symm.trans copy
        rfl
      | directory items =>
        obtain ⟨_,at',_⟩ := related.2.2
        cases at'.held.symm.trans held
      | failed code => cases related.2.2.1.held.symm.trans held
  | fault equal =>
    have failed := watches.faulted (fun _ _ same => by cases same; rfl) rfl
    cases failed.symm.trans ran
  | stopped reason =>
    cases reason
    have bare : NoCopy (fat16GetDirectoryEntry dev path k) := getDirectoryEntry_stopped (supplied_embedded dev) full_own newFatItem_full
      (supplied_watching dev) (fun _ _ _ _ _ answered nonnull => by cases answered; exact absurd rfl nonnull)
      (fun grown at' kind _ enough => walkParts_incomplete grown at' kind (Nat.zero_lt_of_lt enough) dev _) valid list walked
    obtain rfl := bare ptr after target ran some' held
    have null := (getDirectoryEntry_grown valid ran).1.valid.null
    cases null.symm.trans copy

end NutsOS.Fat16
