import Mathlib.Data.Nat.Find
import NutsOS.File.File
import NutsOS.Fat16.RootFile

-- What fopen returns, and when that is what it should.
namespace NutsOS.Files
open Word32 HeapAlloc Fat16 DiskStreams Prog Stdutil

theorem asFileDescriptor_eq (obj : Obj) (descriptor : FileDescriptor) (typed : asFileDescriptor obj = some descriptor) :
    obj = .fileDescriptor descriptor := by
  cases obj <;> cases typed
  rfl

-- An error code that a driver packed into its pointer.
def IsCode (ptr : Nat) : Prop := toInt32 ptr < 0

def Full (k : Kernel) : Prop := ∀ i, i < nutsosMaxFileDescriptors → k.fileDescriptors i ≠ 0

structure Lowest (k : Kernel) (i : Nat) : Prop where
  inside : i < nutsosMaxFileDescriptors
  free : k.fileDescriptors i = 0
  taken : ∀ j, j < i → k.fileDescriptors j ≠ 0

structure Refused (k : Kernel) (ptr : Nat) (after : Kernel) (e : Int) : Prop where
  null : ptr = 0
  errno : after.errno = e
  table : after.fileDescriptors = k.fileDescriptors

-- fopen hands out a descriptor of a file that the driver has opened.
structure Granted (k : Kernel) (mode : FileMode) (fprivate ptr : Nat) (after : Kernel) : Prop where
  nonnull : ptr ≠ 0
  opened : ∃ item, after.objs fprivate = some (.fatFileDescriptor ⟨item,0⟩)
  slot : ∃ i, Lowest k i ∧ after.objs ptr = some (.fileDescriptor ⟨i+1,some .fat16,fprivate,mode,some .disk⟩) ∧
    after.fileDescriptors = fun j => if j = i then ptr else k.fileDescriptors j

-- What fopen should make of the driver's answer.
inductive Answer (k : Kernel) (mode : FileMode) (ptr : Nat) (after : Kernel) : Except Int Nat → Prop where
  | refused (valid : Refused k ptr after e) : Answer k mode ptr after (.error e)
  | failed (code : IsCode fprivate) (valid : Refused k ptr after (toInt32 fprivate)) : Answer k mode ptr after (.ok fprivate)
  | full (real : ¬ IsCode fprivate) (full : Full k) (valid : Refused k ptr after (-enomem)) :
      Answer k mode ptr after (.ok fprivate)
  | granted (real : ¬ IsCode fprivate) (valid : Granted k mode fprivate ptr after) : Answer k mode ptr after (.ok fprivate)

def FopenRight (dev : BlockDevice) (filename modeStr : List UInt8) (k : Kernel) : Prop :=
  ∃ opened middle ptr after, openPath dev filename modeStr k = .ok (opened,middle) ∧
    fopen dev filename modeStr k = .ok (ptr,after) ∧ Answer k (fileModeFromString modeStr) ptr after opened

-- What fopen refuses before it asks the driver: a bare root, a drive that is not
-- there, a disk without a filesystem, a mode of another letter.
def Unasked (filename modeStr : List UInt8) (k : Kernel) : Prop :=
  parts (filename.drop 3) = [] ∨ diskGet (ctoi (charOf filename)) = none ∨ k.disk.filesystem = none ∨ fileModeFromString modeStr = .invalid

def Handled (k middle : Kernel) (fprivate : Nat) : Prop :=
  (Full k ∧ (IsCode fprivate → toInt32 fprivate = -enomem)) ∨ (¬ IsCode fprivate ∧ ¬ Exhausted middle.heap 1)

-- Where the parser has memory for the path, it is fat16_open's answer that decides.
inductive FopenFits (dev : BlockDevice) (filename modeStr : List UInt8) (k : Kernel) : Prop where
  | refused (path : PathRefused filename)
  | unasked (parsed : pathparserParse filename k = .ok (root,one)) (no : Unasked filename modeStr k)
  | asked (parsed : pathparserParse filename k = .ok (root,one)) (held : one.objs root = some (.pathRoot ⟨drive,first⟩))
      (answered : fat16Open dev first (fileModeFromString modeStr) one = .ok (fprivate,middle)) (handled : Handled k middle fprivate)

theorem lowest_or_full (k : Kernel) : Full k ∨ ∃ i, Lowest k i := by
  by_cases found : ∃ i, i < nutsosMaxFileDescriptors ∧ k.fileDescriptors i = 0
  · classical
    have least := Nat.find_spec found
    refine .inr ⟨Nat.find found,least.1,least.2,fun j earlier free => ?_⟩
    exact Nat.find_min found earlier ⟨Nat.lt_trans earlier least.1,free⟩
  · exact .inl (fun i inside free => found ⟨i,inside,free⟩)

theorem newDescriptorFrom_full {k : Kernel} (taken : ∀ j, i ≤ j → j < i+count → k.fileDescriptors j ≠ 0) :
    newDescriptorFrom count i k = .ok ((-enomem,0),k) := by
  induction count generalizing i with
  | zero => rfl
  | succ count ih =>
    rw [newDescriptorFrom,get_bind,if_neg (taken i (Nat.le_refl i) (by omega))]
    exact ih (fun j low high => taken j (by omega) (by omega))

theorem newDescriptorFrom_lowest {k : Kernel} (low : i ≤ s) (inside : s < i+count) (free : k.fileDescriptors s = 0)
    (taken : ∀ j, i ≤ j → j < s → k.fileDescriptors j ≠ 0) :
    newDescriptorFrom count i k = (do
      let desc ← kzalloc 20 (.fileDescriptor zeroFileDescriptor)
      let found ← loadAs asFileDescriptor desc
      store desc (.fileDescriptor {found with index := s+1})
      setSlot s desc
      return ((0 : Int),desc)) k := by
  induction count generalizing i with
  | zero => omega
  | succ count ih =>
    by_cases here : i = s
    · subst here
      rw [newDescriptorFrom,get_bind,if_pos free]
    · rw [newDescriptorFrom,get_bind,if_neg (taken i (Nat.le_refl i) (by omega))]
      exact ih (by omega) (by omega) (fun j low high => taken j (by omega) high)

theorem openPath_refused (refused : PathRefused filename) (dev : BlockDevice) (modeStr : List UInt8) (k : Kernel) :
    openPath dev filename modeStr k = .ok (.error (-einvarg),k) := by
  unfold openPath
  rw [bind_run (pathparserParse_refused refused k),if_pos rfl]
  rfl

theorem openPath_parsed {k : Kernel} (valid : HeapValid k) (taken : ¬ PathRefused filename)
    (parsed : pathparserParse filename k = .ok (root,one)) (dev : BlockDevice) (modeStr : List UInt8) :
    ∃ drive first, one.objs root = some (.pathRoot ⟨drive,first⟩) ∧
      ((Unasked filename modeStr k ∧ ∃ e, openPath dev filename modeStr k = .ok (.error e,one)) ∨
        (¬ Unasked filename modeStr k ∧ openPath dev filename modeStr k =
          (do let fprivate ← fat16Open dev first (fileModeFromString modeStr)
              return Except.ok fprivate) one)) := by
  obtain ⟨grown,result⟩ := pathparserParse_grown valid parsed
  cases result with
  | refused bad => exact absurd bad taken
  | parsed short digit nonnull first held list =>
    refine ⟨_,first,held,?_⟩
    have system : one.disk.filesystem = k.disk.filesystem := grown.volume.filesystem
    unfold openPath
    rw [bind_run parsed,if_neg nonnull,bind_run (loadAs_run asPathRoot held rfl)]
    dsimp only
    by_cases bare : first = 0
    · rw [if_pos bare]
      exact .inl ⟨.inl ((list.null_iff grown.valid).mp bare),_,rfl⟩
    rw [if_neg bare]
    by_cases drive : diskGet (ctoi (charOf filename)) = none
    · rw [if_pos drive]
      exact .inl ⟨.inr (.inl drive),_,rfl⟩
    rw [if_neg drive,get_bind,system]
    by_cases unmounted : k.disk.filesystem = none
    · rw [if_pos unmounted]
      exact .inl ⟨.inr (.inr (.inl unmounted)),_,rfl⟩
    rw [if_neg unmounted]
    by_cases invalid : fileModeFromString modeStr = .invalid
    · rw [if_pos invalid]
      exact .inl ⟨.inr (.inr (.inr invalid)),_,rfl⟩
    rw [if_neg invalid]
    refine .inr ⟨?_,rfl⟩
    rintro (empty | none | missing | other)
    · exact bare ((list.null_iff grown.valid).mpr empty)
    · exact drive none
    · exact unmounted missing
    · exact invalid other

theorem openPath_grown {k : Kernel} (valid : HeapValid k) (ran : openPath dev filename modeStr k = .ok (opened,middle)) :
    Grown k middle ∧ ∀ fprivate, opened = .ok fprivate →
      IsError fprivate ∨ NewFile k middle fprivate := by
  by_cases refused : PathRefused filename
  · rw [openPath_refused refused] at ran
    cases ran
    exact ⟨.refl valid,fun _ absurd => by cases absurd⟩
  · obtain ⟨root,one,parsed,_⟩ := bind_ok.mp (show (pathparserParse filename >>= _) k = _ from ran)
    obtain ⟨first,_⟩ := pathparserParse_grown valid parsed
    obtain ⟨_,part,_,⟨_,e,stopped⟩ | ⟨_,asks⟩⟩ := openPath_parsed valid refused parsed dev modeStr
    · rw [stopped] at ran
      cases ran
      exact ⟨first,fun _ absurd => by cases absurd⟩
    · rw [asks] at ran
      obtain ⟨fprivate,two,answered,ran⟩ := bind_ok.mp ran
      obtain ⟨second,result⟩ := fat16Open_grown first.valid answered
      cases ran
      refine ⟨first.trans second,fun p same => ?_⟩
      cases same
      exact result.imp_right (fun new => new.survives first (fun _ _ => rfl) (.refl _))

theorem openPath_run (name modeStr : List UInt8) (rest : Nat) {k : Kernel} (valid : HeapValid k) (component : Component name)
    (room : Room k.heap (4+rest))
    (mounted : k.disk.filesystem ≠ none) (mode : fileModeFromString modeStr ≠ .invalid) (dev : BlockDevice) :
    ∃ part one, Grown k one ∧ part ≠ 0 ∧ PartAt one part name 0 ∧ Room one.heap rest ∧
      openPath dev (pathOf asciiZero name) modeStr k =
        (do let fprivate ← fat16Open dev part (fileModeFromString modeStr)
            return Except.ok fprivate) one := by
  obtain ⟨root,part,one,parsed,grown,nonnull,some,held,named,left⟩ :=
    pathparserParse_run asciiZero valid (by decide) component room
  have system : one.disk.filesystem ≠ none := by
    rw [grown.volume.filesystem]
    exact mounted
  refine ⟨part,one,grown,some,named,left,?_⟩
  unfold openPath
  rw [bind_run parsed,if_neg nonnull,bind_run (loadAs_run asPathRoot held rfl)]
  dsimp only
  rw [if_neg some,if_neg (show diskGet (ctoi asciiZero) ≠ none by decide),get_bind,if_neg system,if_neg mode]
  rfl

-- The objects of `before` are untouched, and no static variable but the disk's
-- streams, the descriptor table and errno has changed.
structure FilesGrown (before after : Kernel) : Prop where
  valid : HeapValid after
  rest : after = {before with
    heap := after.heap, objs := after.objs, disk := after.disk, fileDescriptors := after.fileDescriptors, errno := after.errno}
  volume : SameVolume before.disk after.disk
  kept : ∀ ptr, (before.objs ptr).isSome → after.objs ptr = before.objs ptr

theorem FilesGrown.of_grown (grown : Grown before after) : FilesGrown before after :=
  ⟨grown.valid,by rw [grown.rest],grown.volume,grown.kept⟩

theorem FilesGrown.trans (one : FilesGrown before middle) (two : FilesGrown middle after) : FilesGrown before after := by
  refine ⟨two.valid,by rw [two.rest,one.rest],one.volume.trans two.volume,?_⟩
  intro ptr live
  have kept := one.kept ptr live
  rw [two.kept ptr (by rw [kept]; exact live)]
  exact kept

theorem FilesGrown.held (grown : FilesGrown before after) (held : before.objs ptr = some obj) : after.objs ptr = some obj := by
  rw [grown.kept ptr (by simp [held])]
  exact held

structure Taken (k middle : Kernel) (mode : FileMode) (fprivate i desc : Nat) (after : Kernel) : Prop where
  grown : FilesGrown middle after
  held : after.objs desc = some (.fileDescriptor ⟨i+1,some .fat16,fprivate,mode,some .disk⟩)
  table : after.fileDescriptors = fun j => if j = i then desc else k.fileDescriptors j

theorem openDescriptor_full {k middle : Kernel} (grown : Grown k middle) (full : Full k) (fprivate : Nat) (mode : FileMode) :
    openDescriptor fprivate mode middle = .ok (0,{middle with errno := -enomem}) ∧
      Refused k 0 {middle with errno := -enomem} (-enomem) := by
  have table : middle.fileDescriptors = k.fileDescriptors := by rw [grown.rest]
  have none : fileDescriptorNew middle = .ok ((-enomem,0),middle) :=
    newDescriptorFrom_full (fun j _ inside => by rw [table]; exact full j (by omega))
  refine ⟨?_,rfl,rfl,table⟩
  unfold openDescriptor
  rw [bind_run none]
  rfl

theorem openDescriptor_lowest {k middle : Kernel} (grown : Grown k middle) (lowest : Lowest k i) (fprivate : Nat) (mode : FileMode) :
    ∃ desc l, kzalloc 20 (.fileDescriptor zeroFileDescriptor) middle = .ok (desc,l) ∧
      ((desc = 0 ∧ openDescriptor fprivate mode middle = .error .nullDeref) ∨
        (desc ≠ 0 ∧ middle.objs desc = none ∧ ∃ after, openDescriptor fprivate mode middle = .ok (desc,after) ∧
          after.heap = l.heap ∧ after.disk = l.disk ∧ Taken k middle mode fprivate i desc after)) := by
  have table : middle.fileDescriptors = k.fileDescriptors := by rw [grown.rest]
  have reached : fileDescriptorNew middle = _ :=
    newDescriptorFrom_lowest (Nat.zero_le i) (by have inside := lowest.inside; omega) (by rw [table]; exact lowest.free)
      (fun j _ earlier => by rw [table]; exact lowest.taken j earlier)
  obtain ⟨desc,l,allocated,result,_⟩ := kzalloc_run 20 grown.valid (.fileDescriptor zeroFileDescriptor) (by decide) (by decide)
  have grows := result.grown grown.valid
  refine ⟨desc,l,allocated,?_⟩
  by_cases null : desc = 0
  · refine .inl ⟨null,?_⟩
    subst null
    rw [bind_run allocated] at reached
    have failed : fileDescriptorNew middle = .error .nullDeref := by
      rw [reached]
      exact bind_fault (loadAs_null grows.valid.null asFileDescriptor)
    exact bind_fault failed
  · obtain ⟨fresh,held⟩ := result.fresh_object null
    let one := l.place desc (.fileDescriptor {zeroFileDescriptor with index := i+1})
    let two : Kernel := {one with fileDescriptors := fun j => if j = i then desc else one.fileDescriptors j}
    have made : fileDescriptorNew middle = .ok ((0,desc),two) := by
      rw [reached,bind_run allocated,bind_run (loadAs_run asFileDescriptor held rfl)]
      rfl
    have heldTwo : two.objs desc = some (.fileDescriptor {zeroFileDescriptor with index := i+1}) := Kernel.place_same _ _ _
    let errors : Kernel := {two with errno := 0}
    let after := errors.place desc (.fileDescriptor ⟨i+1,some .fat16,fprivate,mode,some .disk⟩)
    refine .inr ⟨null,fresh,after,?_,rfl,rfl,?_,?_,?_⟩
    · unfold openDescriptor
      rw [bind_run made]
      show (setErrno 0 >>= _) two = _
      rw [bind_run (show setErrno 0 two = .ok ((),errors) from rfl),if_neg (by decide),
        bind_run (loadAs_run (k := errors) asFileDescriptor heldTwo rfl)]
      rfl
    · have placed : HeapValid one := grows.valid.place (by simp [held]) _
      have valid : HeapValid after := HeapValid.place (k := errors) (placed.congr rfl (fun _ live => live)) (by
        show (two.objs desc).isSome
        rw [heldTwo]
        rfl) _
      refine ⟨valid,?_,grows.volume,?_⟩
      · show {l with objs := after.objs, fileDescriptors := after.fileDescriptors, errno := 0} = _
        rw [grows.rest]
        rfl
      · intro ptr live
        have different : ptr ≠ desc := by
          intro same
          rw [same,fresh] at live
          cases live
        show (errors.place desc _).objs ptr = _
        rw [Kernel.place_other different]
        show (l.place desc _).objs ptr = _
        rw [Kernel.place_other different]
        exact grows.kept ptr live
    · exact Kernel.place_same _ _ _
    · have same : one.fileDescriptors = k.fileDescriptors := by
        show l.fileDescriptors = _
        rw [grows.rest]
        exact table
      show (fun j => if j = i then desc else one.fileDescriptors j) = _
      rw [same]

theorem isError_code {ptr : Nat} (error : IsError ptr) : IsCode ptr := by
  unfold IsCode toInt32
  unfold IsError at error
  split <;> omega

theorem fopen_refused {k : Kernel} (ran : openPath dev filename modeStr k = .ok (.error e,middle)) :
    fopen dev filename modeStr k = .ok (0,{middle with errno := e}) := by
  unfold fopen
  rw [bind_run ran]
  rfl

theorem fopen_opened {k : Kernel} (ran : openPath dev filename modeStr k = .ok (.ok fprivate,middle)) :
    fopen dev filename modeStr k = openDescriptor fprivate (fileModeFromString modeStr) middle := by
  unfold fopen
  rw [bind_run ran]

theorem right_handled {k : Kernel} (grown : Grown k middle)
    (ran : openDescriptor fprivate mode middle = .ok (ptr,after)) (answer : Answer k mode ptr after (.ok fprivate)) :
    Handled k middle fprivate := by
  rcases lowest_or_full k with full | ⟨i,lowest⟩
  · refine .inl ⟨full,fun code => ?_⟩
    obtain ⟨ran',refused⟩ := openDescriptor_full grown full fprivate mode
    rw [ran'] at ran
    cases ran
    cases answer with
    | failed _ valid => exact valid.errno.symm
    | full real => exact absurd code real
    | granted real => exact absurd code real
  · obtain ⟨desc,l,allocated,⟨_,failed⟩ | ⟨nonnull,_,after',ran',_⟩⟩ := openDescriptor_lowest grown lowest fprivate mode
    · rw [failed] at ran
      cases ran
    · rw [ran'] at ran
      cases ran
      refine .inr ⟨fun code => ?_,fun spent => ?_⟩
      · cases answer with
        | failed _ valid => exact nonnull valid.null
        | full real => exact real code
        | granted real => exact real code
      · rw [kzalloc_exhausted (by decide) spent] at allocated
        cases allocated
        exact nonnull rfl

theorem handled_right {k : Kernel} (grown : Grown k middle)
    (result : IsError fprivate ∨ ∃ item, middle.objs fprivate = some (.fatFileDescriptor ⟨item,0⟩))
    (handled : Handled k middle fprivate) (mode : FileMode) :
    ∃ ptr after, openDescriptor fprivate mode middle = .ok (ptr,after) ∧ Answer k mode ptr after (.ok fprivate) := by
  have whenFull (full : Full k) (code : IsCode fprivate → toInt32 fprivate = -enomem) :
      ∃ ptr after, openDescriptor fprivate mode middle = .ok (ptr,after) ∧ Answer k mode ptr after (.ok fprivate) := by
    obtain ⟨ran,refused⟩ := openDescriptor_full grown full fprivate mode
    refine ⟨0,_,ran,?_⟩
    by_cases packed : IsCode fprivate
    · exact .failed packed ⟨rfl,by rw [code packed],refused.table⟩
    · exact .full packed full refused
  rcases handled with ⟨full,code⟩ | ⟨real,memory⟩
  · exact whenFull full code
  · rcases lowest_or_full k with full | ⟨i,lowest⟩
    · exact whenFull full (fun packed => absurd packed real)
    · obtain ⟨desc,l,served,nonnull,_⟩ :=
        kzalloc_unexhausted grown.valid (by decide) (by decide) (show ¬ Exhausted middle.heap (blocksFor 20) from memory) (.fileDescriptor zeroFileDescriptor)
      obtain ⟨desc',l',allocated,⟨null,_⟩ | ⟨some,_,after,ran,_,_,taken⟩⟩ :=
        openDescriptor_lowest grown lowest fprivate mode
      · rw [served] at allocated
        cases allocated
        exact absurd null nonnull
      · obtain ⟨item,held⟩ := result.resolve_left (fun error => real (isError_code error))
        refine ⟨desc',after,ran,.granted real ⟨some,⟨item,?_⟩,i,lowest,taken.held,taken.table⟩⟩
        rw [taken.grown.kept _ (by simp [held])]
        exact held

theorem right_refused {k : Kernel} (valid : HeapValid k) (ran : openPath dev filename modeStr k = .ok (.error e,middle)) :
    FopenRight dev filename modeStr k := by
  obtain ⟨grown,_⟩ := openPath_grown valid ran
  have table : middle.fileDescriptors = k.fileDescriptors := by rw [grown.rest]
  exact ⟨_,middle,_,_,ran,fopen_refused ran,.refused ⟨rfl,rfl,table⟩⟩

theorem fopen_right (valid : HeapValid k) : FopenRight dev filename modeStr k ↔ FopenFits dev filename modeStr k := by
  by_cases refused : PathRefused filename
  · exact ⟨fun _ => .refused refused,fun _ => right_refused valid (openPath_refused refused dev modeStr k)⟩
  constructor
  · intro ⟨opened,middle,ptr,after,ran,called,answer⟩
    obtain ⟨root,one,parsed,_⟩ := bind_ok.mp (show (pathparserParse filename >>= _) k = _ from ran)
    obtain ⟨_,_,held,⟨no,_⟩ | ⟨_,asks⟩⟩ := openPath_parsed valid refused parsed dev modeStr
    · exact .unasked parsed no
    · obtain ⟨fprivate,two,answered,same⟩ := bind_ok.mp (asks.symm.trans ran)
      cases same
      rw [fopen_opened ran] at called
      exact .asked parsed held answered (right_handled (openPath_grown valid ran).1 called answer)
  · intro fits
    cases fits with
    | refused bad => exact absurd bad refused
    | unasked parsed no =>
      obtain ⟨_,_,_,⟨_,e,stopped⟩ | ⟨asked,_⟩⟩ := openPath_parsed valid refused parsed dev modeStr
      · exact right_refused valid stopped
      · exact absurd no asked
    | @asked root one drive first fprivate middle parsed held answered handled =>
      obtain ⟨_,_,held',⟨_,e,stopped⟩ | ⟨_,asks⟩⟩ := openPath_parsed valid refused parsed dev modeStr
      · exact right_refused valid stopped
      · cases held.symm.trans held'
        have ran : openPath dev filename modeStr k = .ok (.ok fprivate,middle) := by
          rw [asks,bind_run answered]
          rfl
        obtain ⟨grown,result⟩ := openPath_grown valid ran
        have item : IsError fprivate ∨ ∃ item, middle.objs fprivate = some (.fatFileDescriptor ⟨item,0⟩) := by
          refine (result fprivate rfl).imp_right (fun new => ?_)
          obtain ⟨item,_,descriptor,_⟩ := new.item
          exact ⟨item,descriptor⟩
        obtain ⟨ptr,after,called,answer⟩ := handled_right grown item handled (fileModeFromString modeStr)
        exact ⟨_,middle,ptr,after,ran,by rw [fopen_opened ran]; exact called,answer⟩

def fatDisk : Disk := {noDisk with filesystem := some .fat16}

-- fopen("0:/a","w"): the driver answers -EROFS, which becomes the private data of a descriptor.
theorem write_open_granted : ¬ FopenRight (fun _ => none) (pathOf asciiZero [charA]) [charW] (bootKernel bootEntries fatDisk) := by
  have valid := boot_valid bootEntries fatDisk rfl
  intro ⟨opened,middle,ptr,after,ran,called,answer⟩
  obtain ⟨part,one,_,_,_,_,reached⟩ := openPath_run [charA] [charW] 131068 valid ⟨by decide,List.all_eq_true.mp rfl,by decide⟩
    (boot_room bootEntries fatDisk) (by decide) (by decide) (fun _ => none)
  have written : openPath (fun _ => none) (pathOf asciiZero [charA]) [charW] (bootKernel bootEntries fatDisk) =
      .ok (.ok (errToPtr (-ereadonly)),one) := reached
  rw [written] at ran
  cases ran
  rw [fopen_opened written] at called
  rcases right_handled (openPath_grown valid written).1 called answer with ⟨full,_⟩ | ⟨real,_⟩
  · exact full 0 (by decide) rfl
  · exact real (show toInt32 (errToPtr (-ereadonly)) < 0 by decide)

-- A read-only file A.B of 1024 bytes from cluster 2 on.
def sampleName : List UInt8 := [0x61,0x2E,0x62]
def sampleEntry : FatDirectoryItem := ⟨0x41::List.replicate 7 0x20,[0x42,0x20,0x20],0x01,2,1024⟩

def sampleDisk : Disk := {fatDisk with streams := fun _ => some ⟨0⟩}
def samplePrivate : FatPrivate := ⟨⟨1,0,1,0,1⟩,⟨0,0,0,1⟩,0,512,4096,8192,12288⟩
def sampleKernel : Kernel := rootKernel sampleDisk samplePrivate sampleEntry

theorem sample_component : Component sampleName := ⟨by decide,List.all_eq_true.mp rfl,by decide⟩

theorem sample_found : entryMatches sampleEntry (partString sampleName) = true := by decide

theorem first_lowest {k : Kernel} (empty : ∀ i, k.fileDescriptors i = 0) : Lowest k 0 :=
  ⟨by decide,empty 0,fun _ earlier => absurd earlier (Nat.not_lt_zero _)⟩

theorem sample_start : HeapValid sampleKernel ∧ ∀ i, sampleKernel.fileDescriptors i = 0 := by
  obtain ⟨_,valid,_,_,empty,_⟩ := rootKernel_valid sampleDisk samplePrivate sample_found rfl
  exact ⟨valid,empty⟩

theorem sample_taken : ¬ PathRefused (pathOf asciiZero sampleName) := by decide

theorem read_open_granted : FopenRight (fun _ => none) (pathOf asciiZero sampleName) [charR] sampleKernel ∧
    ∃ ptr after, fopen (fun _ => none) (pathOf asciiZero sampleName) [charR] sampleKernel = .ok (ptr,after) ∧ ptr ≠ 0 := by
  obtain ⟨item,valid,root,room,empty,disk⟩ := rootKernel_valid sampleDisk samplePrivate sample_found rfl
  have mode : fileModeFromString [charR] = .read := by decide
  obtain ⟨drive,part,one,parsed,first,_,_,held,named,left⟩ :=
    pathparserParse_run (k := sampleKernel) asciiZero valid (by decide) sample_component (room.less (by decide : 4+4 ≤ 131071))
  obtain ⟨fprivate,middle,answered,second,_,file,memory⟩ := fat16Open_run first.valid (root.grown first) named (show Room one.heap (3+1) from left) (fun _ => none)
  rw [← mode] at answered
  have real : ¬ IsCode fprivate := by
    obtain ⟨_,_,descriptor,_⟩ := file.held
    have low := (second.valid.low (by simp [descriptor] : (middle.objs fprivate).isSome)).2.2
    unfold IsCode toInt32
    split <;> omega
  have right : FopenRight (fun _ => none) (pathOf asciiZero sampleName) [charR] sampleKernel :=
    (fopen_right valid).mpr (.asked parsed held answered (.inr ⟨real,memory.unexhausted 1⟩))
  have asked : ¬ Unasked (pathOf asciiZero sampleName) [charR] sampleKernel := by
    rintro (bare | drive | unmounted | invalid)
    · rw [show parts ((pathOf asciiZero sampleName).drop 3) = [sampleName] from sample_component.parts] at bare
      cases bare
    · exact absurd drive (by decide)
    · rw [show sampleKernel.disk = _ from disk] at unmounted
      cases unmounted
    · exact absurd invalid (by decide)
  have ran : openPath (fun _ => none) (pathOf asciiZero sampleName) [charR] sampleKernel = .ok (.ok fprivate,middle) := by
    obtain ⟨_,_,held',⟨no,_⟩ | ⟨_,asks⟩⟩ := openPath_parsed (k := sampleKernel) valid sample_taken parsed (fun _ => none) [charR]
    · exact absurd no asked
    · cases held.symm.trans held'
      rw [asks,bind_run answered]
      rfl
  obtain ⟨opened,_,ptr,after,ran',called,answer⟩ := id right
  cases ran.symm.trans ran'
  refine ⟨right,ptr,after,called,?_⟩
  cases answer with
  | failed code => exact absurd code real
  | full _ full => exact absurd (empty 0) (full 0 (by decide))
  | granted _ valid => exact valid.nonnull

end NutsOS.Files
