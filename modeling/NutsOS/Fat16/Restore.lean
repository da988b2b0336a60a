import NutsOS.Fat16.Ledger
import NutsOS.File.Table

-- The open and the close of a file leave the block table as it was.
namespace NutsOS.Fat16
open Word32 HeapAlloc DiskStreams Files Prog

theorem loadFatDirectory_ledger (ledger : Ledger base owned k) (ran : fat16LoadFatDirectory dev item k = .ok (ptr,after))
    (loaded : loadedAt after ptr = true) :
    ∃ directory, Ledger base (directory.item::ptr::owned) after ∧ Grown k after ∧
      after.objs ptr = some (.fatDirectory directory) ∧ directory.item ≠ 0 := by
  have grown := (loadFatDirectory_grown ledger.grown.valid ran).1
  have failed (error : IsError ptr) : False := by
    unfold loadedAt at loaded
    rw [error_unheld grown.valid error] at loaded
    cases loaded
  cases loadFatDirectory_cases ran with
  | noDirectory => exact (failed (errToPtr_error (.inr (.inl rfl)))).elim
  | full _ => exact (failed (errToPtr_error (.inr (.inr (.inl rfl))))).elim
  | uncounted _ _ => exact (failed (errToPtr_error (.inl rfl))).elim
  | noArray _ _ _ => exact (failed (errToPtr_error (.inr (.inr (.inl rfl))))).elim
  | unread _ _ _ _ _ => exact (failed (errToPtr_error (.inl rfl))).elim
  | @read _ total _ _ _ _ five items _ _ six _ begun arrayed nonnull _ read filled =>
    obtain ⟨four,rfl,array⟩ := arrayed.array
    have heldSix : six.objs ptr = some (.fatDirectory ⟨items,total,0,0⟩) := by
      obtain ⟨_,_,rfl⟩ := Prog.focus_ok.mp read
      exact Kernel.place_same _ _ _
    have some : toInt32 (total*32) ≠ 0 := by
      intro nothing
      rw [when_false (by simp [nothing])] at filled
      cases filled
      unfold loadedAt at loaded
      rw [heldSix] at loaded
      have positive : 0 < total := of_decide_eq_true loaded
      have zero := arrayed.empty (by rw [nothing]; rfl)
      omega
    rw [when_true some] at filled
    obtain ⟨old,seven,loadedItems,filled⟩ := bind_ok.mp filled
    obtain ⟨rfl,arraySix⟩ := load_held asDirectoryItems_eq loadedItems
    cases filled
    have different : ptr ≠ items := by
      intro same
      rw [← same,heldSix] at arraySix
      cases arraySix
    have size : 1 ≤ toUint32 (toInt32 (total*32)) := by
      unfold toUint32 toInt32 at *
      split <;> omega
    obtain ⟨first,_⟩ := ledger.alloc (by decide) begun.allocated begun.nonnull
    obtain ⟨second,_⟩ := first.read loadPrivate_reads begun.loaded
    obtain ⟨third,_⟩ := second.read (totalItems_reads dev _) begun.counted
    obtain ⟨fourth,_⟩ := third.alloc size array nonnull
    have fifth := fourth.place ptr (List.mem_cons_of_mem _ List.mem_cons_self) (.fatDirectory ⟨items,total,0,0⟩)
    obtain ⟨sixth,_⟩ := fifth.read (readInternal_reads dev _ _ _) read
    refine ⟨⟨items,total,0,0⟩,sixth.place _ List.mem_cons_self _,grown,?_,nonnull⟩
    rw [Kernel.place_other different]
    exact heldSix

-- The blocks of an item, in the order they are given back in.
inductive Blocks (k : Kernel) (item : Nat) : List Nat → Prop where
  | file (held : k.objs item = some (.fatItem ⟨copy,.file⟩)) : Blocks k item [copy,item]
  | directory (held : k.objs item = some (.fatItem ⟨target,.directory⟩)) (inside : k.objs target = some (.fatDirectory found))
      (array : found.item ≠ 0) : Blocks k item [found.item,target,item]

theorem Blocks.kept (blocks : Blocks k item list) (same : ∀ ptr ∈ list, after.objs ptr = k.objs ptr) : Blocks after item list := by
  cases blocks with
  | file held => exact .file (by rw [same _ (by simp)]; exact held)
  | directory held inside array =>
    exact .directory (by rw [same _ (by simp)]; exact held) (by rw [same _ (by simp)]; exact inside) array

theorem Blocks.nonnull (blocks : Blocks k item list) (valid : HeapValid k) : item ≠ 0 := by
  intro null
  cases blocks with
  | file held =>
    rw [null,valid.null] at held
    cases held
  | directory held =>
    rw [null,valid.null] at held
    cases held

theorem kfree_ledger (front rest : List Nat) (ledger : Ledger base (front++ptr::rest) k) (dev : BlockDevice) :
    ∃ after, (watched dev).kfree ptr k = .ok ((),after) ∧ Ledger base (front++rest) after ∧ ∀ a, a ≠ ptr → after.objs a = k.objs a := by
  obtain ⟨after,ran,left,kept⟩ := ledger.free
  have live := (ledger.live ptr (List.mem_append_right _ List.mem_cons_self)).2
  refine ⟨after,?_,left,kept⟩
  show (if (k.objs ptr).isNone then fault .freed else embed .fault (kfree ptr) : Prog Stop Kernel Unit) k = _
  rw [if_neg (by simp [Option.isSome_iff_ne_none.mp live])]
  unfold embed
  rw [ran]

theorem load_ledger {k : Kernel} (view : Obj → Option α) (held : k.objs ptr = some obj) (typed : view obj = some value) (dev : BlockDevice) :
    (watched dev).run (loadAs view ptr) k = .ok (value,k) := by
  show embed Stop.fault (loadAs view ptr) k = _
  unfold embed
  rw [loadAs_run _ held typed]

theorem fatItemFree_ledger (front : List Nat) (blocks : Blocks k item list) (ledger : Ledger base (front++(list++rest)) k) (dev : BlockDevice) :
    ∃ after, fatItemFreeWith (watched dev) item k = .ok ((),after) ∧ Ledger base (front++rest) after ∧
      ∀ a, a ∉ list → after.objs a = k.objs a := by
  have nonnull := blocks.nonnull ledger.grown.valid
  unfold fatItemFreeWith
  rw [if_neg nonnull]
  cases blocks with
  | @file copy held =>
    obtain ⟨one,freedOne,first,keptOne⟩ := kfree_ledger front (item::rest) ledger dev
    obtain ⟨two,freedTwo,second,keptTwo⟩ := kfree_ledger _ _ first dev
    refine ⟨two,?_,second,fun a other => ?_⟩
    · rw [bind_run (load_ledger asFatItem held rfl dev)]
      exact (bind_run freedOne).trans freedTwo
    · simp only [List.mem_cons,not_or] at other
      exact (keptTwo a other.2.1).trans (keptOne a other.1)
  | @directory target found held inside array =>
    have some : target ≠ 0 := by
      intro null
      rw [null,ledger.grown.valid.null] at inside
      cases inside
    obtain ⟨one,freedOne,first,keptOne⟩ := kfree_ledger front (target::item::rest) ledger dev
    obtain ⟨two,freedTwo,second,keptTwo⟩ := kfree_ledger _ _ first dev
    obtain ⟨three,freedThree,third,keptThree⟩ := kfree_ledger _ _ second dev
    have emptied : freeDirectoryWith (watched dev) target k = .ok ((),two) := by
      unfold freeDirectoryWith
      rw [if_neg some,bind_run (load_ledger asFatDirectory inside rfl dev),when_true array]
      exact (bind_run freedOne).trans freedTwo
    refine ⟨three,?_,third,fun a other => ?_⟩
    · rw [bind_run (load_ledger asFatItem held rfl dev)]
      exact (bind_run emptied).trans freedThree
    · simp only [List.mem_cons,not_or] at other
      exact (keptThree a other.2.2.1).trans ((keptTwo a other.2.1).trans (keptOne a other.1))

-- No block is freed that is not allocated.
def Orderly (stop : Stop) : Prop := stop ≠ .freed

theorem orderly_fault (e : Fault) : Orderly (.fault e) := fun same => by cases same

structure Fresh (base : Kernel) (owned : List Nat) (k : Kernel) (zero : Obj) (ptr : Nat) (after : Kernel) : Prop where
  ledger : Ledger base (ptr::owned) after
  grown : Grown k after
  nonnull : ptr ≠ 0
  fresh : k.objs ptr = none
  held : after.objs ptr = some zero

theorem kzalloc_watched (ledger : Ledger base owned k) (positive : 1 ≤ size) (zero : Obj) (dev : BlockDevice) :
    Ends Orderly (Fresh base owned k zero) ((watched dev).kzalloc size zero k) := by
  refine (ends_embed Stop.fault orderly_fault (fun _ _ ran => ran)).bind (fun ptr after ran => ?_)
  by_cases null : ptr = 0
  · rw [if_pos null]
    exact .error (fun same => by cases same)
  · rw [if_neg null]
    obtain ⟨taken,grown,fresh,held⟩ := ledger.alloc positive ran null
    exact .ok ⟨taken,grown,null,fresh,held⟩

theorem load_watched (ledger : Ledger base owned k) (item : FatDirectoryItem) (dev : BlockDevice) :
    Ends Orderly (fun ptr after => ∃ directory, Ledger base (directory.item::ptr::owned) after ∧ Grown k after ∧
      after.objs ptr = some (.fatDirectory directory) ∧ directory.item ≠ 0) ((watched dev).loadFatDirectory item k) := by
  refine (ends_embed Stop.fault orderly_fault (fun _ _ ran => ran)).bind (fun ptr after ran => ?_)
  show Ends _ _ ((if loadedAt after ptr then pure ptr else fault .load : Prog Stop Kernel Nat) after)
  by_cases loaded : loadedAt after ptr = true
  · rw [if_pos loaded]
    exact .ok (loadFatDirectory_ledger ledger ran loaded)
  · rw [if_neg loaded]
    exact .error (fun same => by cases same)

-- What a search has added to the ledger.
inductive Found (base : Kernel) (owned : List Nat) (k : Kernel) (item : Nat) (after : Kernel) : Prop where
  | missing (null : item = 0) (ledger : Ledger base owned after) (grown : Grown k after)
  | present (blocks : Blocks after item list) (ledger : Ledger base (list++owned) after) (grown : Grown k after)

theorem Found.filled (list : List Nat) (first : Fresh base owned k zero item one) (second : Grown one two) (item' : FatItem)
    (ledger : Ledger base (list++owned) two) (member : item ∈ list) (blocks : Blocks (two.place item (.fatItem item')) item list) :
    Found base owned k item (two.place item (.fatItem item')) := by
  have held := second.held first.held
  exact .present blocks (ledger.place _ (List.mem_append_left _ member) _)
    ((first.grown.trans second).place first.fresh (by simp [held]) _)

theorem newFatItem_watched (ledger : Ledger base owned k) (entry : FatDirectoryItem) (dev : BlockDevice) :
    Ends Orderly (Found base owned k) (newFatItemWith (watched dev) entry k) := by
  refine (kzalloc_watched ledger (by decide) _ dev).bind (fun item one made => ?_)
  rw [if_neg made.nonnull]
  by_cases directory : FatDirectoryItem.isSubdirectory entry = true
  · rw [if_pos directory]
    refine (load_watched made.ledger entry dev).bind (fun target two ⟨found,loaded,second,inside,array⟩ => ?_)
    have different : target ≠ item := by
      intro same
      have single := loaded.single
      simp [same] at single
    refine .ok (Found.filled [found.item,target,item] made second ⟨target,.directory⟩ loaded (by simp) ?_)
    refine .directory (Kernel.place_same _ _ _) ?_ array
    rw [Kernel.place_other different]
    exact inside
  · rw [if_neg directory]
    have copied : Ends Orderly (fun copy two => Ledger base (copy::item::owned) two ∧ Grown one two)
        (copyDirectoryItemWith (watched dev) entry one) := by
      refine (kzalloc_watched made.ledger (by decide) _ dev).bind (fun copy two taken => ?_)
      rw [if_neg taken.nonnull]
      exact .ok ⟨taken.ledger.place _ List.mem_cons_self _,taken.grown.place taken.fresh (by simp [taken.held]) _⟩
    refine copied.bind (fun copy two ⟨ledger,second⟩ => ?_)
    exact .ok (Found.filled [copy,item] made second ⟨copy,.file⟩ ledger (by simp) (.file (Kernel.place_same _ _ _)))

theorem findItem_watched (ledger : Ledger base owned k) (dev : BlockDevice) (directory : FatDirectory) (name : List UInt8)
    (count i : Nat) : Ends Orderly (Found base owned k) (findItemWith (watched dev) directory name count i k) := by
  induction count generalizing i with
  | zero => exact .ok (.missing rfl ledger (.refl ledger.grown.valid))
  | succ count ih =>
    refine (ends_embed Stop.fault orderly_fault (fun _ _ ran => loadAs_ok.mp ran)).bind (fun items one ⟨_,same⟩ => ?_)
    subst same
    cases items[i]? with
    | none => exact .error (orderly_fault _)
    | some item =>
      by_cases found : entryMatches item name = true
      · dsimp only
        rw [if_pos found]
        exact newFatItem_watched ledger item dev
      · dsimp only
        rw [if_neg found]
        exact ih (i+1)

theorem Blocks.grown (blocks : Blocks k item list) (ledger : Ledger base (list++owned) k) (grown : Grown k after) :
    Blocks after item list :=
  blocks.kept (fun ptr member => grown.kept ptr (ledger.live ptr (List.mem_append_left _ member)).2)

theorem walkParts_watched (blocks : Blocks k item list) (ledger : Ledger base (list++owned) k) (dev : BlockDevice) (fuel next : Nat) :
    Ends Orderly (fun found after => (found = 0 ∧ Ledger base owned after) ∨
      ∃ left, Blocks after found left ∧ Ledger base (left++owned) after) (walkPartsWith (watched dev) fuel item next k) := by
  induction fuel generalizing k item list next with
  | zero => exact .error (orderly_fault _)
  | succ fuel ih =>
    unfold walkPartsWith
    by_cases done : next = 0
    · rw [if_pos done]
      exact .ok (.inr ⟨list,blocks,ledger⟩)
    rw [if_neg done]
    refine (ends_embed Stop.fault orderly_fault (fun _ _ ran => loadAs_ok.mp ran)).bind (fun current one loaded => ?_)
    obtain ⟨_,same⟩ := loaded
    subst same
    by_cases file : current.type ≠ .directory
    · rw [if_pos file]
      obtain ⟨two,freed,left,_⟩ := fatItemFree_ledger [] blocks ledger dev
      rw [bind_run freed]
      exact .ok (.inl ⟨rfl,left⟩)
    rw [if_neg file]
    refine (ends_embed Stop.fault orderly_fault (fun _ _ ran => loadPart_held ran)).bind (fun part two same => ?_)
    subst same
    refine (ends_embed Stop.fault orderly_fault (fun _ _ ran => loadAs_ok.mp ran)).bind (fun directory three loaded => ?_)
    obtain ⟨_,same⟩ := loaded
    subst same
    refine (findItem_watched ledger dev directory part.1 _ 0).bind (fun nextItem four found => ?_)
    cases found with
    | missing null left grown =>
      obtain ⟨five,freed,left,_⟩ := fatItemFree_ledger [] (blocks.grown ledger grown) left dev
      rw [bind_run freed,if_pos null]
      exact .ok (.inl ⟨rfl,left⟩)
    | @present more next' more' grown =>
      obtain ⟨five,freed,left,kept⟩ := fatItemFree_ledger more (blocks.grown ledger grown) more' dev
      rw [bind_run freed,if_neg (next'.nonnull more'.grown.valid)]
      refine ih (next'.kept (fun ptr new => kept ptr (fun old => ?_))) left part.2
      exact List.disjoint_of_nodup_append more'.single new (List.mem_append_left _ old)

theorem getDirectoryEntry_watched (ledger : Ledger base owned k) (dev : BlockDevice) (path : Nat) :
    Ends Orderly (fun found after => (found = 0 ∧ Ledger base owned after) ∨
      ∃ left, Blocks after found left ∧ Ledger base (left++owned) after) (getDirectoryEntryWith (watched dev) path k) := by
  refine (ends_embed Stop.fault orderly_fault (fun _ _ ran => ran)).bind (fun fatPrivate one loaded => ?_)
  obtain ⟨ledger,_⟩ := ledger.read loadPrivate_reads loaded
  refine (ends_embed Stop.fault orderly_fault (fun _ _ ran => loadPart_held ran)).bind (fun part two same => ?_)
  subst same
  refine (findItem_watched ledger dev _ part.1 _ 0).bind (fun root three found => ?_)
  cases found with
  | missing null ledger => 
    rw [if_pos null]
    exact .ok (.inl ⟨rfl,ledger⟩)
  | present blocks ledger =>
    rw [if_neg (blocks.nonnull ledger.grown.valid)]
    exact walkParts_watched blocks ledger dev _ part.2

-- What the driver's open leaves taken: nothing, or the blocks of the item and
-- of the descriptor.
inductive Opened (base : Kernel) (ptr : Nat) (after : Kernel) : Prop where
  | failed (error : IsError ptr) (ledger : Ledger base [] after)
  | opened (held : after.objs ptr = some (.fatFileDescriptor ⟨item,0⟩)) (blocks : Blocks after item list)
      (ledger : Ledger base (list++[ptr]) after)

theorem openWith_watched (valid : HeapValid k) (dev : BlockDevice) (path : Nat) (mode : FileMode) :
    Ends Orderly (Opened k) (openWith (watched dev) path mode k) := by
  have ledger := Ledger.start valid
  unfold openWith
  by_cases writes : mode ≠ .read
  · rw [if_pos writes]
    exact .ok (.failed (errToPtr_error (.inr (.inr (.inr rfl)))) ledger)
  rw [if_neg writes]
  refine (kzalloc_watched ledger (by decide) _ dev).bind (fun descriptor one made => ?_)
  rw [if_neg made.nonnull]
  refine (getDirectoryEntry_watched made.ledger dev path).bind (fun item two found => ?_)
  rcases found with ⟨null,ledger⟩ | ⟨list,blocks,ledger⟩
  · have stored := ledger.place descriptor List.mem_cons_self (.fatFileDescriptor ⟨item,0⟩)
    obtain ⟨three,freed,left,_⟩ := kfree_ledger [] _ stored dev
    show Ends _ _ ((if item = 0 then _ else _ : Prog Stop Kernel Nat) (two.place descriptor (.fatFileDescriptor ⟨item,0⟩)))
    rw [if_pos null,bind_run freed]
    exact .ok (.failed (errToPtr_error (.inl rfl)) left)
  · have stored := ledger.place descriptor (List.mem_append_right _ List.mem_cons_self) (.fatFileDescriptor ⟨item,0⟩)
    have other : descriptor ∉ list := fun member =>
      List.disjoint_of_nodup_append ledger.single member List.mem_cons_self
    show Ends _ _ ((if item = 0 then _ else _ : Prog Stop Kernel Nat) (two.place descriptor (.fatFileDescriptor ⟨item,0⟩)))
    rw [if_neg (blocks.nonnull ledger.grown.valid)]
    refine .ok (.opened (Kernel.place_same _ _ _) (blocks.kept (fun ptr member => Kernel.place_other ?_)) stored)
    intro same
    exact other (same ▸ member)

theorem closeWith_watched (held : k.objs ptr = some (.fatFileDescriptor ⟨item,pos⟩)) (blocks : Blocks k item list)
    (ledger : Ledger base (list++[ptr]) k) (dev : BlockDevice) :
    ∃ after, closeWith (watched dev) ptr k = .ok (0,after) ∧ Ledger base [] after := by
  obtain ⟨one,freedOne,first,_⟩ := fatItemFree_ledger [] blocks ledger dev
  obtain ⟨two,freedTwo,second,_⟩ := kfree_ledger [] _ first dev
  refine ⟨two,?_,second⟩
  unfold closeWith
  rw [bind_run (load_ledger asFatFileDescriptor held rfl dev)]
  refine (bind_run freedOne).trans ?_
  exact (bind_run freedTwo).trans rfl

-- The close of what was opened gives every block back, in order.
structure CloseRestores (dev : BlockDevice) (base : Kernel) (ptr : Nat) (k : Kernel) : Prop where
  closed : ∃ after, closeWith (watched dev) ptr k = .ok (0,after) ∧ fat16Close ptr k = .ok (0,after) ∧ SameBlocks base after

-- A watched open does what fat16_open does. It stops for want of memory or at a
-- directory that is not loaded, never at a block that is not allocated; if it
-- fails the block table is as before, and if it succeeds so it is after a close.
inductive OpenRestores (dev : BlockDevice) (path : Nat) (mode : FileMode) (k : Kernel) : Except Stop (Nat × Kernel) → Prop where
  | full : OpenRestores dev path mode k (.error .full)
  | load : OpenRestores dev path mode k (.error .load)
  | fault (plain : fat16Open dev path mode k = .error e) : OpenRestores dev path mode k (.error (.fault e))
  | failed (plain : fat16Open dev path mode k = .ok (ptr,after)) (error : IsError ptr) (same : SameBlocks k after) :
      OpenRestores dev path mode k (.ok (ptr,after))
  | opened (plain : fat16Open dev path mode k = .ok (ptr,after)) (real : ¬ IsError ptr) (close : CloseRestores dev k ptr after) :
      OpenRestores dev path mode k (.ok (ptr,after))

theorem open_close_restores (valid : HeapValid k) (dev : BlockDevice) (path : Nat) (mode : FileMode) :
    OpenRestores dev path mode k (openWith (watched dev) path mode k) := by
  have ends := openWith_watched valid dev path mode
  have same := openWith_watches (watched_watching dev) path mode k
  generalize ran : openWith (watched dev) path mode k = result at ends same
  cases ends with
  | @error stop orderly =>
    cases stop with
    | fault e => exact .fault (same.faulted (fun _ _ equal => by cases equal; rfl) rfl)
    | full => exact .full
    | load => exact .load
    | freed => exact absurd rfl orderly
  | ok opened =>
    have plain := same.returned rfl
    cases opened with
    | failed error ledger => exact .failed plain error ledger.settled
    | opened held blocks ledger =>
      refine .opened plain (fun error => ?_) ⟨?_⟩
      · have empty := error_unheld ledger.grown.valid error
        rw [held] at empty
        cases empty
      · obtain ⟨after,closed,left⟩ := closeWith_watched held blocks ledger dev
        exact ⟨after,closed,(closeWith_watches (watched_watching dev) _ _).returned closed,left.settled⟩

theorem sample_open_restores : ∃ k path ptr after, HeapValid k ∧ ¬ IsError ptr ∧
    openWith (watched (fun _ => none)) path .read k = .ok (ptr,after) ∧
    OpenRestores (fun _ => none) path .read k (.ok (ptr,after)) := by
  obtain ⟨item,valid,root,room,_,disk⟩ := rootKernel_valid sampleDisk samplePrivate sample_found rfl
  have mounted : sampleKernel.disk.filesystem ≠ none := by
    unfold sampleKernel
    rw [disk]
    simp [sampleDisk,fatDisk]
  rw [show 131071 = 4+(3+131064) by omega] at room
  obtain ⟨part,k,grown,_,named,left,_⟩ := openPath_run (k := sampleKernel) _ [charR] _ valid
    sample_component room mounted (by decide) (fun _ => none)
  obtain ⟨ptr,after,ran,more,_,file,_⟩ := openWith_run (watched_faithful (fun _ => none)) grown.valid (root.grown grown) named left
  obtain ⟨item,target,held,_⟩ := file.held
  refine ⟨k,part,ptr,after,grown.valid,fun error => ?_,ran,?_⟩
  · have empty := error_unheld more.valid error
    rw [held] at empty
    cases empty
  · rw [← ran]
    exact open_close_restores grown.valid (fun _ => none) part .read

end NutsOS.Fat16
