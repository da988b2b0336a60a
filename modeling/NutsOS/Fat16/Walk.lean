import NutsOS.Fat16.Driver
import NutsOS.File.Parsing

-- What a path walk allocates and gives back.
namespace NutsOS.Fat16
open Word32 HeapAlloc Files DiskStreams Prog

-- A word that no object of the kernel has for an address.
def IsError (ptr : Nat) : Prop := 2147483648 ≤ ptr ∧ ptr < 4294967296

theorem error_unheld {k : Kernel} (valid : HeapValid k) (error : IsError ptr) : k.objs ptr = none := by
  cases held : k.objs ptr with
  | none => rfl
  | some obj =>
    have low := (valid.low (by simp [held] : (k.objs ptr).isSome)).2.2
    unfold IsError at error
    omega

-- The entries of a directory: an array, or the free block of an empty one.
def EntriesAt (k : Kernel) (directory : FatDirectory) : Prop :=
  (∃ items, k.objs directory.item = some (.directoryItems items)) ∨
    (directory.total = 0 ∧ FreeBlock k directory.item)

-- A directory as the driver loads it, made of objects that `base` has not.
structure DirectoryAt (base k : Kernel) (ptr : Nat) (directory : FatDirectory) : Prop where
  held : k.objs ptr = some (.fatDirectory directory)
  fresh : base.objs ptr = none
  freshEntries : base.objs directory.item = none
  entries : directory.item = 0 ∨ EntriesAt k directory

inductive TargetAt (base k : Kernel) : FatItem → Prop where
  | noCopy : TargetAt base k ⟨0,.file⟩
  | file (held : k.objs ptr = some (.directoryItems [entry])) (fresh : base.objs ptr = none) : TargetAt base k ⟨ptr,.file⟩
  | failed (error : IsError ptr) : TargetAt base k ⟨ptr,.directory⟩
  | directory (valid : DirectoryAt base k ptr found) : TargetAt base k ⟨ptr,.directory⟩

structure ItemAt (base k : Kernel) (ptr : Nat) (item : FatItem) : Prop where
  held : k.objs ptr = some (.fatItem item)
  fresh : base.objs ptr = none
  target : TargetAt base k item

theorem freeDirectory_grown {base k : Kernel} (grown : Grown base k) (valid : DirectoryAt base k ptr directory)
    (ran : fat16FreeDirectory ptr k = .ok ((),after)) :
    Grown base after ∧ ∀ a, a ≠ ptr → a ≠ directory.item → after.objs a = k.objs a := by
  have nonnull : ptr ≠ 0 := by
    intro zero
    have held := valid.held
    rw [zero,grown.valid.null] at held
    cases held
  unfold fat16FreeDirectory at ran
  rw [if_neg nonnull] at ran
  obtain ⟨found,one,loaded,ran⟩ := bind_ok.mp ran
  obtain ⟨rfl,held⟩ := load_held asFatDirectory_eq loaded
  cases valid.held.symm.trans held
  obtain ⟨⟨⟩,two,entries,ran⟩ := bind_ok.mp ran
  have freed : Grown base two ∧ two.objs ptr = some (.fatDirectory directory) ∧
      ∀ a, a ≠ directory.item → two.objs a = k.objs a := by
    by_cases none : directory.item = 0
    · rw [when_false (by simp [none])] at entries
      cases entries
      exact ⟨grown,held,fun _ _ => rfl⟩
    · rw [when_true none] at entries
      have freeable : Freeable k directory.item ∧ directory.item ≠ ptr := by
        rcases valid.entries.resolve_left none with ⟨items,array⟩ | ⟨_,block⟩
        · refine ⟨.object (by simp [array]),fun same => ?_⟩
          rw [same,held] at array
          cases array
        · refine ⟨.free block,fun same => ?_⟩
          have empty := grown.valid.no_object block
          rw [same,held] at empty
          cases empty
      obtain ⟨next,frees⟩ := grown.frees valid.freshEntries freeable.1 entries
      exact ⟨next,by rw [frees.kept ptr freeable.2.symm]; exact held,fun a different => frees.kept a different⟩
  obtain ⟨next,still,others⟩ := freed
  obtain ⟨last,frees⟩ := next.frees valid.fresh (.object (by simp [still])) ran
  exact ⟨last,fun a notPtr notItem => (frees.kept a notPtr).trans (others a notItem)⟩

def ItemHas (item : FatItem) (k : Kernel) (ptr a : Nat) : Prop :=
  a = ptr ∨ a = item.target ∨ ∃ directory, k.objs item.target = some (.fatDirectory directory) ∧ a = directory.item

theorem fatItemFree_grown {base k : Kernel} (grown : Grown base k) (valid : ItemAt base k ptr item)
    (ran : fat16FatItemFree ptr k = .ok ((),after)) :
    Grown base after ∧ ∀ a, ¬ ItemHas item k ptr a → after.objs a = k.objs a := by
  have nonnull : ptr ≠ 0 := by
    intro zero
    have held := valid.held
    rw [zero,grown.valid.null] at held
    cases held
  unfold fat16FatItemFree at ran
  rw [if_neg nonnull] at ran
  obtain ⟨found,one,loaded,ran⟩ := bind_ok.mp ran
  obtain ⟨rfl,held⟩ := load_held asFatItem_eq loaded
  cases valid.held.symm.trans held
  -- the target goes first, and it is not the item itself
  have finish {two : Kernel} (next : Grown base two) (still : two.objs ptr = k.objs ptr)
      (others : ∀ a, ¬ ItemHas item k ptr a → two.objs a = k.objs a) (last : kfree ptr two = .ok ((),after)) :
      Grown base after ∧ ∀ a, ¬ ItemHas item k ptr a → after.objs a = k.objs a := by
    obtain ⟨end',frees⟩ := next.frees valid.fresh (.object (by rw [still]; simp [held])) last
    exact ⟨end',fun a other => (frees.kept a (fun same => other (.inl same))).trans (others a other)⟩
  cases valid.target with
  | noCopy =>
    obtain ⟨⟨⟩,two,freed,last⟩ := bind_ok.mp ran
    obtain ⟨next,frees⟩ := grown.frees (grown.fresh grown.valid.null) .null freed
    exact finish next (frees.kept ptr nonnull) (fun a other => frees.kept a (fun same => other (.inr (.inl same)))) last
  | @file target entry array fresh =>
    obtain ⟨⟨⟩,two,freed,last⟩ := bind_ok.mp ran
    have different : ptr ≠ target := by
      intro same
      rw [← same,held] at array
      cases array
    obtain ⟨next,frees⟩ := grown.frees fresh (.object (by simp [array])) freed
    exact finish next (frees.kept ptr different) (fun a other => frees.kept a (fun same => other (.inr (.inl same)))) last
  | @failed target error =>
    obtain ⟨⟨⟩,two,freed,_⟩ := bind_ok.mp ran
    have some : target ≠ 0 := by
      unfold IsError at error
      omega
    unfold fat16FreeDirectory at freed
    rw [if_neg some] at freed
    obtain ⟨found,three,loaded,_⟩ := bind_ok.mp freed
    have present := (load_held asFatDirectory_eq loaded).2
    rw [error_unheld grown.valid error] at present
    cases present
  | @directory target found directory =>
    obtain ⟨⟨⟩,two,freed,last⟩ := bind_ok.mp ran
    obtain ⟨next,kept⟩ := freeDirectory_grown grown directory freed
    have notTarget : ptr ≠ target := by
      intro same
      have other := directory.held
      rw [← same,held] at other
      cases other
    have notEntries : ptr ≠ found.item := by
      intro same
      rcases directory.entries with zero | ⟨items,array⟩ | ⟨_,block⟩
      · exact nonnull (same.trans zero)
      · rw [← same,held] at array
        cases array
      · have empty := grown.valid.no_object block
        rw [← same,held] at empty
        cases empty
    refine finish next (kept ptr notTarget notEntries) (fun a other => ?_) last
    exact kept a (fun same => other (.inr (.inl same))) (fun same => other (.inr (.inr ⟨found,directory.held,same⟩)))

-- What every kfree keeps is kept by freeing an item.
section
variable {R : Kernel → Kernel → Prop} (refl : ∀ k, R k k) (trans : ∀ {a b c}, R a b → R b c → R a c) (free : ∀ ptr, Within R (kfree ptr))
include refl trans free

theorem freeDirectory_within (ptr : Nat) : Within R (fat16FreeDirectory ptr) := by
  refine within_ite (within_pure refl _) (within_bind (R := R) trans (loadAs_within refl _ _) (fun found => ?_))
  exact within_bind (R := R) trans (within_ite (free _) (within_pure refl _)) (fun _ => free _)

theorem fatItemFree_within (ptr : Nat) : Within R (fat16FatItemFree ptr) := by
  refine within_ite (within_pure refl _) (within_bind (R := R) trans (loadAs_within refl _ _) (fun found => ?_))
  cases found.type with
  | directory => exact within_bind (R := R) trans (freeDirectory_within refl trans free _) (fun _ => free _)
  | file => exact within_bind (R := R) trans (free _) (fun _ => free _)

end

theorem fatItemFree_keeps_free (ptr : Nat) : Within KeepsFree (fat16FatItemFree ptr) :=
  fatItemFree_within KeepsFree.refl (fun one two => one.trans two) kfree_keeps_free ptr

theorem fatItemFree_room (ptr n : Nat) : Within (fun k after => Room k.heap n → Room after.heap n) (fat16FatItemFree ptr) :=
  fatItemFree_within (fun _ room => room) (fun one two room => two (one room)) (fun _ _ _ _ ran room => kfree_room room ran) ptr

theorem errToPtr_error (code : e = -eio ∨ e = -einvarg ∨ e = -enomem ∨ e = -ereadonly) : IsError (errToPtr e) := by
  unfold IsError
  rcases code with rfl | rfl | rfl | rfl <;> decide

-- What the disk gave for a directory: its count, and then its entries.
structure LoadedFrom (dev : BlockDevice) (entry : FatDirectoryItem) (k after : Kernel) (directory : FatDirectory) : Prop where
  read : ∃ fprivate counted res bytes, loadPrivate k.disk = .ok (fprivate,k.disk) ∧
    fat16GetTotalItemsForDirectory dev (toUint32 (fat16ClusterToSector fprivate entry.low16BitsFirstCluster)) k.disk =
      .ok (directory.total,counted) ∧
    fat16ReadInternal dev entry.low16BitsFirstCluster 0 (toInt32 (directory.total*32)) counted = .ok ((res,bytes),after.disk) ∧
    0 ≤ directory.total ∧ 0 ≤ res ∧ (directory.total ≠ 0 →
      after.objs directory.item = some (.directoryItems (directoryItems directory.total.toNat bytes)))

theorem loadPrivate_ok (ran : loadPrivate disk = .ok (fprivate,after)) : after = disk := by
  unfold loadPrivate at ran
  rw [get_bind] at ran
  cases found : disk.fsPrivate with
  | none =>
    rw [found] at ran
    cases ran
  | some inside =>
    rw [found] at ran
    cases ran
    rfl

structure ArrayMade (k three five : Kernel) (directory items : Nat) (total : Int) : Prop where
  grown : Grown k five
  entries : items = 0 ∨ EntriesAt five ⟨items,total,0,0⟩
  fresh : k.objs items = none
  held : five.objs directory = some (.fatDirectory ⟨items,total,0,0⟩)
  disk : five.disk = three.disk
  lengths : ∀ list, five.objs items = some (.directoryItems list) → list.length = total.toNat

theorem itemArray_made {k three : Kernel} (valid : HeapValid k) (grown : Grown k three) (fresh : k.objs directory = none)
    (held : three.objs directory = some (.fatDirectory ⟨0,0,0,0⟩)) (size : toUint32 (toInt32 (total*32)) = 0 → total = 0)
    (array : kzalloc (toUint32 (toInt32 (total*32))) (.directoryItems (List.replicate total.toNat zeroDirectoryItem)) three = .ok (items,four)) :
    ArrayMade k three (four.place directory (.fatDirectory ⟨items,total,0,0⟩)) directory items total := by
  obtain ⟨fourth,entries⟩ := kzalloc_ok grown.valid array
  have heldFour := fourth.held held
  refine ⟨(grown.trans fourth).place fresh (by simp [heldFour]) _,?_,?_,Kernel.place_same _ _ _,
    (kzalloc_disk array : four.disk = three.disk),?_⟩
  · cases entries with
    | null none => exact .inl none
    | empty none _ same block => exact .inr (.inr ⟨size none,by rw [same]; exact block⟩)
    | fresh _ _ new array =>
      have different : items ≠ directory := by
        intro same
        rw [same,held] at new
        cases new
      exact .inr (.inl ⟨_,by rw [Kernel.place_other different]; exact array⟩)
  · cases entries with
    | null none => rw [none]; exact valid.null
    | empty none _ same block => exact grown.fresh (grown.valid.no_object block)
    | fresh _ _ new => exact grown.fresh new
  · intro list placed
    have different : items ≠ directory := by
      intro same
      rw [same,Kernel.place_same] at placed
      cases placed
    rw [Kernel.place_other different] at placed
    cases entries with
    | null none =>
      rw [none,fourth.valid.null] at placed
      cases placed
    | empty none _ same block =>
      rw [same,grown.valid.no_object block] at placed
      cases placed
    | fresh _ _ _ array =>
      rw [array] at placed
      cases placed
      exact List.length_replicate

structure Counting (dev : BlockDevice) (entry : FatDirectoryItem) (k : Kernel) (directory : Nat) (total : Int) (one two three : Kernel)
    (fprivate : FatPrivate) : Prop where
  allocated : kzalloc 16 (.fatDirectory ⟨0,0,0,0⟩) k = .ok (directory,one)
  nonnull : directory ≠ 0
  loaded : onDisk loadPrivate one = .ok (fprivate,two)
  counted : onDisk (fat16GetTotalItemsForDirectory dev
    (toUint32 (fat16ClusterToSector fprivate (entry.low16BitsFirstCluster : Nat)))) two = .ok (total,three)

structure Arrayed (directory : Nat) (total : Int) (three five : Kernel) (items : Nat) : Prop where
  counted : 0 ≤ total
  bound : total ≤ 67108872
  array : ∃ four, five = four.place directory (.fatDirectory ⟨items,total,0,0⟩) ∧
    kzalloc (toUint32 (toInt32 (total*32))) (.directoryItems (List.replicate total.toNat zeroDirectoryItem)) three = .ok (items,four)

inductive LoadEnd (dev : BlockDevice) (entry : FatDirectoryItem) (k : Kernel) : Nat → Kernel → Prop where
  | noDirectory : LoadEnd dev entry k (errToPtr (-einvarg)) k
  | full (allocated : kzalloc 16 (.fatDirectory ⟨0,0,0,0⟩) k = .ok (0,after)) : LoadEnd dev entry k (errToPtr (-enomem)) after
  | uncounted (begun : Counting dev entry k directory (-eio) one two three fprivate)
      (freed : fat16FreeDirectory directory three = .ok ((),after)) : LoadEnd dev entry k (errToPtr (-eio)) after
  | noArray (begun : Counting dev entry k directory total one two three fprivate) (arrayed : Arrayed directory total three five 0)
      (freed : fat16FreeDirectory directory five = .ok ((),after)) : LoadEnd dev entry k (errToPtr (-enomem)) after
  | unread (begun : Counting dev entry k directory total one two three fprivate) (arrayed : Arrayed directory total three five items)
      (nonnull : items ≠ 0)
      (read : onDisk (fat16ReadInternal dev (entry.low16BitsFirstCluster : Nat) 0 (toInt32 (total*32))) five = .ok ((-eio,bytes),six))
      (freed : fat16FreeDirectory directory six = .ok ((),after)) : LoadEnd dev entry k (errToPtr (-eio)) after
  | read (begun : Counting dev entry k directory total one two three fprivate) (arrayed : Arrayed directory total three five items)
      (nonnull : items ≠ 0) (good : 0 ≤ res)
      (read : onDisk (fat16ReadInternal dev (entry.low16BitsFirstCluster : Nat) 0 (toInt32 (total*32))) five = .ok ((res,bytes),six))
      (filled : Prog.when (toInt32 (total*32) ≠ 0) (do
        let old ← loadAs asDirectoryItems items
        store items (.directoryItems (directoryItems old.length bytes))) six = .ok ((),after)) : LoadEnd dev entry k directory after

theorem loadFatDirectory_cases {k : Kernel} (ran : fat16LoadFatDirectory dev item k = .ok (ptr,after)) : LoadEnd dev item k ptr after := by
  unfold fat16LoadFatDirectory at ran
  by_cases file : ¬ FatDirectoryItem.isSubdirectory item
  · rw [if_pos file] at ran
    cases ran
    exact .noDirectory
  rw [if_neg file] at ran
  obtain ⟨directory,one,allocated,ran⟩ := bind_ok.mp ran
  by_cases null : directory = 0
  · rw [if_pos null] at ran
    cases ran
    exact .full (null ▸ allocated)
  rw [if_neg null] at ran
  obtain ⟨fprivate,two,loaded,ran⟩ := bind_ok.mp ran
  obtain ⟨total,three,counted,ran⟩ := bind_ok.mp ran
  obtain ⟨_,count,_⟩ := Prog.focus_ok.mp counted
  have count := totalItems_result dev _ _ _ _ count
  by_cases failed : total < 0
  · obtain rfl : total = -eio := count.resolve_right (fun bound => by omega)
    rw [if_pos failed] at ran
    obtain ⟨⟨⟩,four,freed,ran⟩ := bind_ok.mp ran
    cases ran
    exact .uncounted ⟨allocated,null,loaded,counted⟩ freed
  obtain ⟨low,high⟩ := count.resolve_left (fun code => failed (by rw [code]; decide))
  rw [if_neg failed] at ran
  obtain ⟨items,four,array,ran⟩ := bind_ok.mp ran
  obtain ⟨⟨⟩,five,stored,ran⟩ := bind_ok.mp ran
  cases stored
  by_cases none : items = 0
  · subst none
    rw [if_pos rfl] at ran
    obtain ⟨⟨⟩,six,freed,ran⟩ := bind_ok.mp ran
    cases ran
    exact .noArray ⟨allocated,null,loaded,counted⟩ ⟨low,high,four,rfl,array⟩ freed
  rw [if_neg none] at ran
  obtain ⟨⟨res,bytes⟩,six,read,ran⟩ := bind_ok.mp ran
  obtain ⟨_,result,_⟩ := Prog.focus_ok.mp read
  have result := readInternalLevel_result dev _ (.inl (Int.natCast_nonneg _)) _ _ _ _ _ result
  dsimp only at ran
  by_cases broken : res < 0
  · obtain rfl : res = -eio := result.resolve_left (fun low => by dsimp only at low; omega)
    rw [if_pos broken] at ran
    obtain ⟨⟨⟩,seven,freed,ran⟩ := bind_ok.mp ran
    cases ran
    exact .unread ⟨allocated,null,loaded,counted⟩ ⟨low,high,four,rfl,array⟩ none read freed
  rw [if_neg broken] at ran
  obtain ⟨⟨⟩,seven,filled,ran⟩ := bind_ok.mp ran
  cases ran
  exact .read ⟨allocated,null,loaded,counted⟩ ⟨low,high,four,rfl,array⟩ none (Int.not_lt.mp broken) read filled

structure CountedAt (dev : BlockDevice) (entry : FatDirectoryItem) (k three : Kernel) (directory : Nat) (total : Int)
    (fprivate : FatPrivate) : Prop where
  grown : Grown k three
  fresh : k.objs directory = none
  held : three.objs directory = some (.fatDirectory ⟨0,0,0,0⟩)
  known : loadPrivate k.disk = .ok (fprivate,k.disk)
  read : fat16GetTotalItemsForDirectory dev (toUint32 (fat16ClusterToSector fprivate (entry.low16BitsFirstCluster : Nat))) k.disk =
    .ok (total,three.disk)

theorem Counting.taken (begun : Counting dev entry k directory total one two three fprivate) (valid : HeapValid k) :
    CountedAt dev entry k three directory total fprivate := by
  obtain ⟨first,result⟩ := kzalloc_fresh valid (by decide) begun.allocated
  obtain ⟨_,fresh,held⟩ := result.resolve_left (fun null => begun.nonnull null.1)
  obtain ⟨second,_,objsTwo⟩ := onDisk_grown loadPrivate_reads first.valid begun.loaded
  obtain ⟨third,_,objsThree⟩ := onDisk_grown (totalItems_reads dev _) second.valid begun.counted
  obtain ⟨diskTwo,known,equalTwo⟩ := Prog.focus_ok.mp begun.loaded
  obtain ⟨diskThree,read,equalThree⟩ := Prog.focus_ok.mp begun.counted
  have diskOne : one.disk = k.disk := kzalloc_disk begun.allocated
  obtain rfl := loadPrivate_ok known
  have sameTwo : two.disk = k.disk := by
    rw [equalTwo]
    exact diskOne
  refine ⟨(first.trans second).trans third,fresh,by rw [objsThree,objsTwo,held],by rw [← diskOne]; exact known,?_⟩
  rw [← sameTwo,equalThree]
  exact read

theorem Arrayed.empty (arrayed : Arrayed directory total three five items) (none : toUint32 (toInt32 (total*32)) = 0) : total = 0 := by
  have low := arrayed.counted
  have high := arrayed.bound
  unfold toUint32 toInt32 at none
  split at none <;> omega

theorem Arrayed.made {k three : Kernel} (arrayed : Arrayed directory total three five items)
    (counted : CountedAt dev entry k three directory total fprivate) (valid : HeapValid k) : ArrayMade k three five directory items total := by
  obtain ⟨_,rfl,array⟩ := arrayed.array
  exact itemArray_made valid counted.grown counted.fresh counted.held arrayed.empty array

theorem ArrayMade.read {k : Kernel} (made : ArrayMade k three five directory items total) (fresh : k.objs directory = none)
    (nonnull : items ≠ 0) {x : DiskProg α} (reads : Reads x) (ran : onDisk x five = .ok (result,six)) :
    Grown k six ∧ DirectoryAt k six directory ⟨items,total,0,0⟩ ∧ six.objs = five.objs := by
  obtain ⟨sixth,heap,objs⟩ := onDisk_grown reads made.grown.valid ran
  refine ⟨made.grown.trans sixth,⟨by rw [objs,made.held],fresh,made.fresh,.inr ?_⟩,objs⟩
  rcases made.entries.resolve_left nonnull with ⟨list,array⟩ | ⟨zero,block⟩
  · exact .inl ⟨list,by rw [objs]; exact array⟩
  · exact .inr ⟨zero,by unfold FreeBlock at *; rw [heap]; exact block⟩

theorem loadFatDirectory_grown {k : Kernel} (valid : HeapValid k)
    (ran : fat16LoadFatDirectory dev item k = .ok (ptr,after)) :
    Grown k after ∧ (IsError ptr ∨ ∃ directory, DirectoryAt k after ptr directory ∧ LoadedFrom dev item k after directory) := by
  cases loadFatDirectory_cases ran with
  | noDirectory => exact ⟨.refl valid,.inl (errToPtr_error (.inr (.inl rfl)))⟩
  | full allocated => exact ⟨(kzalloc_fresh valid (by decide) allocated).1,.inl (errToPtr_error (.inr (.inr (.inl rfl))))⟩
  | uncounted begun freed =>
    have counted := begun.taken valid
    have held : DirectoryAt k _ _ ⟨0,0,0,0⟩ := ⟨counted.held,counted.fresh,valid.null,.inl rfl⟩
    exact ⟨(freeDirectory_grown counted.grown held freed).1,.inl (errToPtr_error (.inl rfl))⟩
  | noArray begun arrayed freed =>
    have counted := begun.taken valid
    have made := arrayed.made counted valid
    have held : DirectoryAt k _ _ _ := ⟨made.held,counted.fresh,made.fresh,made.entries⟩
    exact ⟨(freeDirectory_grown made.grown held freed).1,.inl (errToPtr_error (.inr (.inr (.inl rfl))))⟩
  | unread begun arrayed nonnull read freed =>
    have counted := begun.taken valid
    have made := arrayed.made counted valid
    obtain ⟨grown,held,_⟩ := made.read counted.fresh nonnull (readInternal_reads dev _ _ _) read
    exact ⟨(freeDirectory_grown grown held freed).1,.inl (errToPtr_error (.inl rfl))⟩
  | @read _ total _ _ three fprivate _ items res bytes six _ begun arrayed nonnull good read filled =>
    have counted := begun.taken valid
    have made := arrayed.made counted valid
    obtain ⟨grown,held,objs⟩ := made.read counted.fresh nonnull (readInternal_reads dev _ _ _) read
    obtain ⟨diskSix,bytesRead,equalSix⟩ := Prog.focus_ok.mp read
    have sameSix : diskSix = six.disk := by rw [equalSix]
    rw [made.disk,sameSix] at bytesRead
    by_cases nothing : toInt32 (total*32) = 0
    · rw [when_false (by simp [nothing])] at filled
      cases filled
      have zero : total = 0 := arrayed.empty (by rw [nothing]; rfl)
      exact ⟨grown,.inr ⟨⟨items,total,0,0⟩,held,fprivate,three.disk,res,bytes,counted.known,counted.read,bytesRead,arrayed.counted,
        good,fun some => absurd zero some⟩⟩
    · rw [when_true nothing] at filled
      obtain ⟨old,seven,loaded,filled⟩ := bind_ok.mp filled
      obtain ⟨rfl,array⟩ := load_held asDirectoryItems_eq loaded
      cases filled
      have different : ptr ≠ items := by
        intro same
        rw [← same,held.held] at array
        cases array
      have length := made.lengths old (by rw [← objs]; exact array)
      refine ⟨grown.place made.fresh (by simp [array]) _,.inr ⟨⟨items,total,0,0⟩,⟨?_,counted.fresh,made.fresh,?_⟩,
        fprivate,three.disk,res,bytes,counted.known,counted.read,bytesRead,arrayed.counted,good,fun _ => ?_⟩⟩
      · rw [Kernel.place_other different]
        exact held.held
      · exact .inr (.inl ⟨_,Kernel.place_same _ _ _⟩)
      · rw [← length]
        exact Kernel.place_same _ _ _

theorem newFatItem_grown {k : Kernel} (valid : HeapValid k)
    (ran : fat16NewFatItemForDirectoryItem dev entry k = .ok (ptr,after)) :
    Grown k after ∧ (ptr = 0 ∨ ∃ item, ItemAt k after ptr item) := by
  obtain ⟨fatItem,one,allocated,ran⟩ := bind_ok.mp ran
  obtain ⟨first,result⟩ := kzalloc_fresh valid (by decide) allocated
  rcases result with ⟨none,_⟩ | ⟨nonnull,fresh,held⟩
  · rw [if_pos none] at ran
    cases ran
    exact ⟨first,.inl rfl⟩
  rw [if_neg nonnull] at ran
  have other {a : Nat} (empty : one.objs a = none) : a ≠ fatItem := by
    intro same
    rw [same,held] at empty
    cases empty
  by_cases directory : FatDirectoryItem.isSubdirectory entry = true
  · rw [if_pos directory] at ran
    obtain ⟨target,two,loaded,ran⟩ := bind_ok.mp ran
    obtain ⟨⟨⟩,three,stored,ran⟩ := bind_ok.mp ran
    cases ran
    cases stored
    obtain ⟨second,found⟩ := loadFatDirectory_grown first.valid loaded
    have heldTwo := second.held held
    refine ⟨(first.trans second).place fresh (by simp [heldTwo]) _,.inr ⟨_,Kernel.place_same _ _ _,fresh,?_⟩⟩
    rcases found with error | ⟨found,valid',_⟩
    · exact .failed error
    · refine .directory (⟨?_,first.fresh valid'.fresh,first.fresh valid'.freshEntries,?_⟩ : DirectoryAt _ _ _ found)
      · rw [Kernel.place_other (other valid'.fresh)]
        exact valid'.held
      · rcases valid'.entries with zero | ⟨items,array⟩ | ⟨empty,block⟩
        · exact .inl zero
        · refine .inr (.inl ⟨items,?_⟩)
          rw [Kernel.place_other (other valid'.freshEntries)]
          exact array
        · exact .inr (.inr ⟨empty,block⟩)
  · rw [if_neg directory] at ran
    obtain ⟨copy,two,copied,ran⟩ := bind_ok.mp ran
    obtain ⟨⟨⟩,three,stored,ran⟩ := bind_ok.mp ran
    cases ran
    cases stored
    obtain ⟨address,four,allocated,copied⟩ := bind_ok.mp copied
    obtain ⟨second,result⟩ := kzalloc_fresh first.valid (by decide) allocated
    rcases result with ⟨none,_⟩ | ⟨nonzero,new,array⟩
    · rw [if_pos none] at copied
      cases copied
      have heldTwo := second.held held
      exact ⟨(first.trans second).place fresh (by simp [heldTwo]) _,.inr ⟨_,Kernel.place_same _ _ _,fresh,.noCopy⟩⟩
    · rw [if_neg nonzero] at copied
      obtain ⟨⟨⟩,five,written,copied⟩ := bind_ok.mp copied
      cases copied
      cases written
      have third := (first.trans second).place (first.fresh new) (by simp [array]) (.directoryItems [entry])
      have heldThree : (four.place copy (.directoryItems [entry])).objs ptr = some (.fatItem ⟨0,.directory⟩) := by
        rw [Kernel.place_other (other new).symm]
        exact second.held held
      refine ⟨third.place fresh (by simp [heldThree]) _,.inr ⟨_,Kernel.place_same _ _ _,fresh,.file (?_ : _ = some (Obj.directoryItems [entry]))
        (first.fresh new)⟩⟩
      rw [Kernel.place_other (other new)]
      exact Kernel.place_same _ _ _

theorem findItem_grown {k : Kernel} (valid : HeapValid k)
    (ran : findItem dev directory name count i k = .ok (ptr,after)) :
    Grown k after ∧ (ptr = 0 ∨ ∃ item, ItemAt k after ptr item) := by
  induction count generalizing i with
  | zero =>
    cases ran
    exact ⟨.refl valid,.inl rfl⟩
  | succ count ih =>
    obtain ⟨items,one,loaded,ran⟩ := bind_ok.mp ran
    obtain ⟨rfl,_⟩ := load_held asDirectoryItems_eq loaded
    cases entry : items[i]? with
    | none =>
      rw [entry] at ran
      cases ran
    | some item =>
      rw [entry] at ran
      dsimp only at ran
      by_cases found : entryMatches item name = true
      · rw [if_pos found] at ran
        exact newFatItem_grown valid ran
      · rw [if_neg found] at ran
        exact ih ran

-- An item outlives the search in its directory: an empty one is not searched.
theorem ItemAt.searched {base k : Kernel} (valid : ItemAt base k ptr item) (directory : k.objs item.target = some (.fatDirectory found))
    (grown : Grown k after) (same : found.total = 0 → after = k) : ItemAt base after ptr item := by
  refine ⟨grown.held valid.held,valid.fresh,?_⟩
  cases valid.target with
  | noCopy => exact .noCopy
  | file held fresh => exact .file (grown.held held) fresh
  | failed error => exact .failed error
  | @directory target inside loaded =>
    cases directory.symm.trans loaded.held
    refine .directory (⟨grown.held loaded.held,loaded.fresh,loaded.freshEntries,?_⟩ : DirectoryAt _ _ _ found)
    rcases loaded.entries with zero | ⟨items,array⟩ | ⟨empty,block⟩
    · exact .inl zero
    · exact .inr (.inl ⟨items,grown.held array⟩)
    · refine .inr (.inr ⟨empty,?_⟩)
      rw [same empty]
      exact block

theorem ItemAt.apart {base k middle : Kernel} (old : ItemAt base k ptr current)
    (directory : k.objs current.target = some (.fatDirectory found)) (still : middle.objs current.target = k.objs current.target)
    (array : (k.objs found.item).isSome) (fresh : k.objs a = none) : ¬ ItemHas current middle ptr a := by
  intro has
  rcases has with same | same | ⟨other,held,same⟩
  · rw [same,old.held] at fresh
    cases fresh
  · rw [same,directory] at fresh
    cases fresh
  · rw [still,directory] at held
    cases held
    rw [same] at fresh
    rw [fresh] at array
    cases array

theorem DirectoryAt.survives {base k middle after : Kernel} (valid : DirectoryAt k middle ptr directory) (grown : Grown base k)
    (same : ∀ a, k.objs a = none → after.objs a = middle.objs a) (blocks : KeepsFree middle after) :
    DirectoryAt base after ptr directory := by
  refine ⟨?_,grown.fresh valid.fresh,grown.fresh valid.freshEntries,?_⟩
  · rw [same _ valid.fresh]
    exact valid.held
  · rcases valid.entries with zero | ⟨items,array⟩ | ⟨empty,block⟩
    · exact .inl zero
    · exact .inr (.inl ⟨items,by rw [same _ valid.freshEntries]; exact array⟩)
    · exact .inr (.inr ⟨empty,blocks _ block⟩)

theorem ItemAt.survives {base k middle after : Kernel} (valid : ItemAt k middle next item) (grown : Grown base k)
    (same : ∀ a, k.objs a = none → after.objs a = middle.objs a) (blocks : KeepsFree middle after) : ItemAt base after next item := by
  refine ⟨by rw [same _ valid.fresh]; exact valid.held,grown.fresh valid.fresh,?_⟩
  cases valid.target with
  | noCopy => exact .noCopy
  | file held fresh => exact .file (by rw [same _ fresh]; exact held) (grown.fresh fresh)
  | failed error => exact .failed error
  | directory loaded => exact .directory (loaded.survives grown same blocks)

theorem findItem_array {k : Kernel} (ran : findItem dev directory name count i k = .ok (ptr,after)) (found : ptr ≠ 0) :
    (k.objs directory.item).isSome := by
  cases count with
  | zero =>
    cases ran
    exact absurd rfl found
  | succ count =>
    obtain ⟨items,one,loaded,_⟩ := bind_ok.mp ran
    have held := (load_held asDirectoryItems_eq loaded).2
    simp [held]

theorem findItem_empty {k : Kernel} (ran : fat16FindItemInDirectory dev directory name k = .ok (ptr,after))
    (empty : directory.total = 0) : after = k := by
  unfold fat16FindItemInDirectory at ran
  rw [empty] at ran
  cases ran
  rfl

theorem loadPart_held {k : Kernel} (ran : loadPart path k = .ok (result,after)) : k = after := by
  obtain ⟨part,one,loaded,ran⟩ := bind_ok.mp ran
  obtain ⟨chars,two,named,ran⟩ := bind_ok.mp ran
  cases ran
  exact (load_held asPathPart_eq loaded).1.trans (load_held asChars_eq named).1

theorem loadPart_run {k : Kernel} (part : PartAt k ptr name next) : loadPart ptr k = .ok ((partString name,next),k) := by
  obtain ⟨buf,held,chars⟩ := part.held
  unfold loadPart
  rw [bind_run (loadAs_run asPathPart held rfl),bind_run (loadAs_run asChars chars rfl)]
  rfl

theorem walkParts_grown {base k : Kernel} (grown : Grown base k) (valid : ItemAt base k current item)
    (ran : walkParts dev fuel current next k = .ok (ptr,after)) :
    Grown base after ∧ (ptr = 0 ∨ ∃ item, ItemAt base after ptr item) := by
  induction fuel generalizing current next item k with
  | zero => cases ran
  | succ fuel ih =>
    by_cases done : next = 0
    · rw [walkParts,if_pos done] at ran
      cases ran
      exact ⟨grown,.inr ⟨item,valid⟩⟩
    rw [walkParts,if_neg done] at ran
    obtain ⟨found,one,loaded,ran⟩ := bind_ok.mp ran
    obtain ⟨rfl,held⟩ := load_held asFatItem_eq loaded
    cases valid.held.symm.trans held
    by_cases file : item.type ≠ .directory
    · rw [if_pos file] at ran
      obtain ⟨⟨⟩,two,freed,ran⟩ := bind_ok.mp ran
      cases ran
      exact ⟨(fatItemFree_grown grown valid freed).1,.inl rfl⟩
    rw [if_neg file] at ran
    obtain ⟨⟨name,later⟩,two,part,ran⟩ := bind_ok.mp ran
    obtain rfl := loadPart_held part
    obtain ⟨directory,three,opened,ran⟩ := bind_ok.mp ran
    obtain ⟨rfl,present⟩ := load_held asFatDirectory_eq opened
    obtain ⟨nextItem,four,searched,ran⟩ := bind_ok.mp ran
    obtain ⟨⟨⟩,five,freed,ran⟩ := bind_ok.mp ran
    obtain ⟨more,result⟩ := findItem_grown grown.valid searched
    have still := valid.searched present more (findItem_empty searched)
    obtain ⟨left,kept⟩ := fatItemFree_grown (grown.trans more) still freed
    by_cases missing : nextItem = 0
    · rw [if_pos missing] at ran
      cases ran
      exact ⟨left,.inl rfl⟩
    · rw [if_neg missing] at ran
      obtain ⟨nextFound,valid'⟩ := result.resolve_left missing
      have apart {a : Nat} (fresh : k.objs a = none) : ¬ ItemHas item four current a :=
        valid.apart present (more.kept _ (by simp [present])) (findItem_array searched missing) fresh
      exact ih left (valid'.survives grown (fun a fresh => kept a (apart fresh)) (fatItemFree_keeps_free _ _ _ _ freed)) ran

theorem getDirectoryEntry_grown {k : Kernel} (valid : HeapValid k)
    (ran : fat16GetDirectoryEntry dev path k = .ok (ptr,after)) : Grown k after ∧ (ptr = 0 ∨ ∃ item, ItemAt k after ptr item) := by
  obtain ⟨fprivate,one,loaded,ran⟩ := bind_ok.mp ran
  obtain ⟨first,_⟩ := onDisk_grown loadPrivate_reads valid loaded
  obtain ⟨⟨name,later⟩,two,part,ran⟩ := bind_ok.mp ran
  obtain rfl := loadPart_held part
  obtain ⟨root,three,searched,ran⟩ := bind_ok.mp ran
  obtain ⟨second,result⟩ := findItem_grown first.valid searched
  by_cases missing : root = 0
  · rw [if_pos missing] at ran
    cases ran
    exact ⟨first.trans second,.inl rfl⟩
  · rw [if_neg missing] at ran
    obtain ⟨item,found⟩ := result.resolve_left missing
    exact walkParts_grown (first.trans second) (found.survives first (fun _ _ => rfl) (.refl _)) ran

structure NewFile (base k : Kernel) (fprivate : Nat) : Prop where
  fresh : base.objs fprivate = none
  item : ∃ item found, k.objs fprivate = some (.fatFileDescriptor ⟨item,0⟩) ∧ ItemAt base k item found

theorem NewFile.survives {base k middle after : Kernel} (new : NewFile k middle fprivate) (grown : Grown base k)
    (same : ∀ a, k.objs a = none → after.objs a = middle.objs a) (blocks : KeepsFree middle after) : NewFile base after fprivate := by
  obtain ⟨item,found,held,at'⟩ := new.item
  exact ⟨grown.fresh new.fresh,item,found,by rw [same _ new.fresh]; exact held,at'.survives grown same blocks⟩

theorem fat16Open_grown {k : Kernel} (valid : HeapValid k) (ran : fat16Open dev path mode k = .ok (ptr,after)) :
    Grown k after ∧ (IsError ptr ∨ NewFile k after ptr) := by
  unfold fat16Open at ran
  by_cases writes : mode ≠ .read
  · rw [if_pos writes] at ran
    cases ran
    exact ⟨.refl valid,.inl (errToPtr_error (.inr (.inr (.inr rfl))))⟩
  rw [if_neg writes] at ran
  obtain ⟨descriptor,one,allocated,ran⟩ := bind_ok.mp ran
  obtain ⟨first,result⟩ := kzalloc_fresh valid (by decide) allocated
  rcases result with ⟨none,_⟩ | ⟨nonnull,fresh,held⟩
  · rw [if_pos none] at ran
    cases ran
    exact ⟨first,.inl (errToPtr_error (.inr (.inr (.inl rfl))))⟩
  rw [if_neg nonnull] at ran
  obtain ⟨item,two,resolved,ran⟩ := bind_ok.mp ran
  obtain ⟨second,found⟩ := getDirectoryEntry_grown first.valid resolved
  obtain ⟨⟨⟩,three,stored,ran⟩ := bind_ok.mp ran
  have third : Grown k three ∧ three.objs descriptor = some (.fatFileDescriptor ⟨item,0⟩) := by
    cases stored
    exact ⟨(first.trans second).place fresh (by simp [second.held held]) _,Kernel.place_same _ _ _⟩
  by_cases missing : item = 0
  · rw [if_pos missing] at ran
    obtain ⟨⟨⟩,four,freed,ran⟩ := bind_ok.mp ran
    cases ran
    exact ⟨(third.1.frees fresh (.object (by simp [third.2])) freed).1,.inl (errToPtr_error (.inl rfl))⟩
  · rw [if_neg missing] at ran
    cases ran
    obtain ⟨target,at'⟩ := found.resolve_left missing
    cases stored
    refine ⟨third.1,.inr ⟨fresh,item,target,third.2,at'.survives first (fun a new => ?_) (fun _ block => block)⟩⟩
    exact Kernel.place_other (fun same => by rw [same,held] at new; cases new)

end NutsOS.Fat16
