import NutsOS.Fat16.Shared
import NutsOS.File.Table

-- Calls on different open files do not see each other.
namespace NutsOS.Files
open Word32 HeapAlloc Fat16 DiskStreams Stdutil Prog

inductive FileCall where
  | fread (size nmemb : Nat)
  | fseek (offset : Int) (mode : FileSeekMode)
  | fstat

-- What the caller of fread, fseek or fstat gets back.
inductive FileAnswer where
  | fread (result : Nat) (bytes : List UInt8)
  | fseek (result : Int)
  | fstat (result : Int) (stat : Option FileStat)

def FileCall.on (dev : BlockDevice) (fd : Int) : FileCall → KernelProg FileAnswer
  | .fread size nmemb => do
    let (result,bytes) ← Files.fread dev size nmemb fd
    return .fread result bytes
  | .fseek offset mode => do
    return .fseek (← Files.fseek fd offset mode)
  | .fstat => do
    let (result,stat) ← Files.fstat fd
    return .fstat result stat

inductive FileEvent where
  | call (fd : Int) (call : FileCall)
  | fopen (filename modeStr : List UInt8)

def FileEvent.ownedBy (fd : Int) : FileEvent → Bool
  | .call number _ => number == fd
  | .fopen _ _ => false

def FileEvent.within (fds : List Int) : FileEvent → Prop
  | .call number _ => number ∈ fds
  | .fopen _ _ => True

def perform (dev : BlockDevice) : List FileEvent → KernelProg (List (Int × FileAnswer))
  | [] => pure []
  | .fopen filename modeStr::rest => do
    let _ ← fopen dev filename modeStr
    perform dev rest
  | .call fd call::rest => do
    let answer ← call.on dev fd
    let answers ← perform dev rest
    return (fd,answer)::answers

-- The objects behind an open file. Only its position ever changes.
structure Handle where
  desc : Nat
  fprivate : Nat
  item : Nat
  target : Nat
  index : Int
  mode : FileMode
  entry : FatDirectoryItem

structure HandleAt (k : Kernel) (fd : Int) (handle : Handle) (pos : Nat) : Prop where
  slot : fileGetDescriptor k fd = handle.desc
  nonnull : handle.desc ≠ 0
  descriptor : k.objs handle.desc =
    some (.fileDescriptor ⟨handle.index,some .fat16,handle.fprivate,handle.mode,some .disk⟩)
  held : k.objs handle.fprivate = some (.fatFileDescriptor ⟨handle.item,pos⟩)
  item : k.objs handle.item = some (.fatItem ⟨handle.target,.file⟩)
  entry : k.objs handle.target = some (.directoryItems [handle.entry])

theorem OpenFile.handle {k : Kernel} (opened : OpenFile k fd pos entry) :
    ∃ handle : Handle, handle.entry = entry ∧ HandleAt k fd handle pos := by
  obtain ⟨index,fprivate,mode,held,file⟩ := opened.opened.held
  obtain ⟨item,target,descriptor,present,array⟩ := file.held
  exact ⟨⟨fileGetDescriptor k fd,fprivate,item,target,index,mode,entry⟩,rfl,rfl,opened.nonnull,held,descriptor,present,array⟩

theorem HandleAt.positive {k : Kernel} (handle : HandleAt k fd h pos) : ¬ fd < 1 := by
  intro low
  have slot := handle.slot
  unfold fileGetDescriptor at slot
  rw [if_pos (.inl (by omega))] at slot
  exact handle.nonnull slot.symm

theorem fread_handle {k : Kernel} (handle : HandleAt k fd h pos) (size nmemb : Nat) (dev : BlockDevice) :
    fread dev size nmemb fd k =
      (if size = 0 ∨ nmemb = 0 then .ok ((toUint32 (-einvarg),[]),k)
      else readItems dev h.entry size nmemb (toInt32 pos) k) := by
  unfold fread
  by_cases bad : size = 0 ∨ nmemb = 0
  · rw [if_pos bad,if_pos (bad.elim .inl (fun none => .inr (.inl none)))]
    rfl
  · rw [if_neg bad,if_neg (fun any => any.elim (fun none => bad (.inl none))
      (fun rest => rest.elim (fun none => bad (.inr none)) handle.positive))]
    rw [get_bind]
    dsimp only
    rw [handle.slot,if_neg handle.nonnull,bind_run (loadAs_run asFileDescriptor handle.descriptor rfl)]
    show fat16Read dev h.fprivate size nmemb k = _
    unfold fat16Read
    rw [bind_run (loadAs_run asFatFileDescriptor handle.held rfl),
      bind_run (loadAs_run asFatItem handle.item rfl),
      bind_run (loadAs_run asDirectoryItem handle.entry rfl)]

def sought (entry : FatDirectoryItem) (pos : Nat) (offset : Int) : FileSeekMode → Option Nat
  | .set => if toUint32 offset ≥ entry.filesize then none else some (toUint32 offset)
  | .seekEnd => none
  | .other => none
  | .cur => if toUint32 (pos+toUint32 offset) ≥ entry.filesize then none else some (toUint32 (pos+toUint32 offset))

def seekError : FileSeekMode → Int
  | .seekEnd => -1
  | .other => -einvarg
  | _ => -eio

theorem fseek_handle {k : Kernel} (handle : HandleAt k fd h pos) (offset : Int) (mode : FileSeekMode) :
    fseek fd offset mode k = (match sought h.entry pos offset mode with
      | none => .ok (seekError mode,k)
      | some next => .ok (eok,k.place h.fprivate (.fatFileDescriptor ⟨h.item,next⟩))) := by
  unfold fseek
  rw [get_bind]
  dsimp only
  rw [handle.slot,if_neg handle.nonnull,bind_run (loadAs_run asFileDescriptor handle.descriptor rfl)]
  show fat16Seek h.fprivate (toUint32 offset) mode k = _
  unfold fat16Seek
  rw [bind_run (loadAs_run asFatFileDescriptor handle.held rfl),
    bind_run (loadAs_run asFatItem handle.item rfl),if_neg (by simp),
    bind_run (loadAs_run asDirectoryItem handle.entry rfl)]
  cases mode with
  | seekEnd => rfl
  | other => rfl
  | set =>
    unfold sought
    by_cases beyond : toUint32 offset ≥ h.entry.filesize
    · simp only [if_pos beyond]
      rfl
    · simp only [if_neg beyond]
      rfl
  | cur =>
    unfold sought
    by_cases beyond : toUint32 (pos+toUint32 offset) ≥ h.entry.filesize
    · simp only [if_pos beyond]
      rfl
    · simp only [if_neg beyond]
      rfl

theorem fstat_handle {k : Kernel} (handle : HandleAt k fd h pos) : fstat fd k =
    .ok ((0,some ⟨if h.entry.attributeBits &&& fatFileReadOnly ≠ 0 then fileStatRo else 0,h.entry.filesize⟩),k) := by
  unfold fstat
  rw [get_bind]
  dsimp only
  rw [handle.slot,if_neg handle.nonnull,bind_run (loadAs_run asFileDescriptor handle.descriptor rfl)]
  show fat16Stat h.fprivate k = _
  unfold fat16Stat
  rw [bind_run (loadAs_run asFatFileDescriptor handle.held rfl),
    bind_run (loadAs_run asFatItem handle.item rfl),if_neg (by simp),
    bind_run (loadAs_run asDirectoryItem handle.entry rfl)]
  rfl

structure OnlyDisk (before after : Kernel) : Prop where
  rest : after = {before with disk := after.disk}
  volume : SameVolume before.disk after.disk

theorem OnlyDisk.refl (k : Kernel) : OnlyDisk k k := ⟨rfl,.refl _⟩

theorem OnlyDisk.trans (one : OnlyDisk before middle) (two : OnlyDisk middle after) : OnlyDisk before after :=
  ⟨by rw [two.rest,one.rest],one.volume.trans two.volume⟩

theorem onDisk_only {x : DiskProg α} (reads : Reads x) : Within OnlyDisk (onDisk x) := by
  intro k result after ran
  obtain ⟨disk,read,rfl⟩ := focus_ok.mp ran
  exact ⟨rfl,reads _ _ _ read⟩

theorem only_bind {x : KernelProg α} {f : α → KernelProg β} (first : Within OnlyDisk x) (rest : ∀ a, Within OnlyDisk (f a)) :
    Within OnlyDisk (x >>= f) := within_bind (R := OnlyDisk) (fun one two => one.trans two) first rest

theorem itemsLoop_only {readItem : Int → KernelProg (Int × List UInt8)} (item : ∀ offset, Within OnlyDisk (readItem offset))
    (filesize size count : Nat) (offset : Int) : Within OnlyDisk (itemsLoop readItem filesize size count offset) := by
  induction count generalizing offset with
  | zero => exact within_pure OnlyDisk.refl _
  | succ count ih =>
    rw [itemsLoop]
    refine within_ite (within_pure OnlyDisk.refl _) (only_bind (item offset) (fun result => ?_))
    exact within_ite (within_pure OnlyDisk.refl _) (only_bind (ih _) (fun rest => within_pure OnlyDisk.refl _))

theorem readItems_only (dev : BlockDevice) (item : FatDirectoryItem) (size count : Nat) (offset : Int) :
    Within OnlyDisk (readItems dev item size count offset) :=
  itemsLoop_only (fun _ => onDisk_only (readInternal_reads dev _ _ _)) _ _ count offset

theorem HandleAt.only_disk {before after : Kernel} (handle : HandleAt before fd h pos) (only : OnlyDisk before after) :
    HandleAt after fd h pos := by
  rw [only.rest]
  exact ⟨handle.slot,handle.nonnull,handle.descriptor,handle.held,handle.item,handle.entry⟩

theorem HandleAt.congr {k l : Kernel} (handle : HandleAt k fd h pos) (table : l.fileDescriptors = k.fileDescriptors)
    (same : ∀ a, a = h.desc ∨ a = h.fprivate ∨ a = h.item ∨ a = h.target → l.objs a = k.objs a) : HandleAt l fd h pos := by
  refine ⟨?_,handle.nonnull,?_,?_,?_,?_⟩
  · rw [← handle.slot]
    unfold fileGetDescriptor
    rw [table]
  · rw [same _ (.inl rfl)]
    exact handle.descriptor
  · rw [same _ (.inr (.inl rfl))]
    exact handle.held
  · rw [same _ (.inr (.inr (.inl rfl)))]
    exact handle.item
  · rw [same _ (.inr (.inr (.inr rfl)))]
    exact handle.entry

theorem HandleAt.live {k : Kernel} (handle : HandleAt k fd h pos) (here : ptr = h.desc ∨ ptr = h.fprivate ∨ ptr = h.item ∨ ptr = h.target) :
    (k.objs ptr).isSome := by
  rcases here with rfl | rfl | rfl | rfl
  · simp [handle.descriptor]
  · simp [handle.held]
  · simp [handle.item]
  · simp [handle.entry]

theorem HandleAt.apart {k : Kernel} (handle : HandleAt k fd h pos) (held : k.objs ptr = some obj)
    (other : (∃ process, obj = .process process) ∨ ∃ bytes, obj = .chars bytes) :
    ¬ (ptr = h.desc ∨ ptr = h.fprivate ∨ ptr = h.item ∨ ptr = h.target) := by
  intro here
  have kinds : ∀ {a found}, ptr = a → k.objs a = some found → obj = found := by
    intro a found same present
    rw [← same,held] at present
    exact Option.some.inj present
  rcases here with same | same | same | same
  · have equal := kinds same handle.descriptor
    rcases other with ⟨_,rfl⟩ | ⟨_,rfl⟩ <;> cases equal
  · have equal := kinds same handle.held
    rcases other with ⟨_,rfl⟩ | ⟨_,rfl⟩ <;> cases equal
  · have equal := kinds same handle.item
    rcases other with ⟨_,rfl⟩ | ⟨_,rfl⟩ <;> cases equal
  · have equal := kinds same handle.entry
    rcases other with ⟨_,rfl⟩ | ⟨_,rfl⟩ <;> cases equal

-- A call touches no object but the position of its own file.
structure Moves (fd : Int) (h : Handle) (before after : Kernel) : Prop where
  valid : HeapValid after
  table : after.fileDescriptors = before.fileDescriptors
  volume : SameVolume before.disk after.disk
  others : ∀ ptr, ptr ≠ h.fprivate → after.objs ptr = before.objs ptr
  handle : ∃ pos, HandleAt after fd h pos

theorem HandleAt.sought {k : Kernel} (handle : HandleAt k fd h pos) (next : Nat) :
    HandleAt (k.place h.fprivate (.fatFileDescriptor ⟨h.item,next⟩)) fd h next := by
  -- the other three objects are of other types
  have other {ptr obj} (held : k.objs ptr = some obj) (different : obj ≠ .fatFileDescriptor ⟨h.item,pos⟩) :
      (k.place h.fprivate (.fatFileDescriptor ⟨h.item,next⟩)).objs ptr = some obj := by
    rw [Kernel.place_other (fun same => different ?_)]
    · exact held
    · rw [same,handle.held] at held
      exact (Option.some.inj held).symm
  exact ⟨handle.slot,handle.nonnull,other handle.descriptor (by simp),Kernel.place_same _ _ _,
    other handle.item (by simp),other handle.entry (by simp)⟩

theorem OnlyDisk.moves {before after : Kernel} (valid : HeapValid before) (handle : HandleAt before fd h pos)
    (only : OnlyDisk before after) : Moves fd h before after := by
  refine ⟨?_,by rw [only.rest],only.volume,fun ptr _ => by rw [only.rest],pos,handle.only_disk only⟩
  rw [only.rest]
  exact valid.congr rfl (fun _ live => live)

theorem call_moves {k : Kernel} (valid : HeapValid k) (handle : HandleAt k fd h pos)
    (ran : FileCall.on dev fd call k = .ok (answer,after)) : Moves fd h k after := by
  have same := OnlyDisk.moves valid handle (.refl k)
  cases call with
  | fread size nmemb =>
    obtain ⟨result,one,read,ran⟩ := bind_ok.mp ran
    cases ran
    rw [fread_handle handle] at read
    split at read
    · cases read
      exact same
    · exact OnlyDisk.moves valid handle (readItems_only _ _ _ _ _ _ _ _ read)
  | fseek offset mode =>
    obtain ⟨result,one,moved,ran⟩ := bind_ok.mp ran
    cases ran
    rw [fseek_handle handle] at moved
    split at moved
    · cases moved
      exact same
    · next next _ =>
      cases moved
      exact ⟨valid.place (by simp [handle.held]) _,rfl,.refl _,fun ptr different => Kernel.place_other different,
        next,handle.sought next⟩
  | fstat =>
    obtain ⟨result,one,told,ran⟩ := bind_ok.mp ran
    cases ran
    rw [fstat_handle handle] at told
    cases told
    exact same

theorem HandleAt.moved {before after : Kernel} (handle : HandleAt before fd h pos) (other : HandleAt before number g at')
    (apart : h.fprivate ≠ g.fprivate) (moves : Moves number g before after) : HandleAt after fd h pos := by
  have keep {ptr obj} (held : before.objs ptr = some obj) (different : obj ≠ .fatFileDescriptor ⟨g.item,at'⟩) :
      after.objs ptr = some obj := by
    rw [moves.others ptr (fun same => different ?_)]
    · exact held
    · rw [same,other.held] at held
      exact (Option.some.inj held).symm
  refine ⟨?_,handle.nonnull,keep handle.descriptor (by simp),?_,keep handle.item (by simp),keep handle.entry (by simp)⟩
  · rw [← handle.slot]
    unfold fileGetDescriptor
    rw [moves.table]
  · rw [moves.others h.fprivate apart]
    exact handle.held

theorem HandleAt.opened {before after : Kernel} (handle : HandleAt before fd h pos) (grown : FilesGrown before after)
    (opening : Opening before ptr after) : HandleAt after fd h pos := by
  refine ⟨?_,handle.nonnull,grown.held handle.descriptor,grown.held handle.held,grown.held handle.item,
    grown.held handle.entry⟩
  have slot := handle.slot
  have taken := handle.nonnull
  rw [← slot] at taken
  rw [← slot]
  unfold fileGetDescriptor at *
  cases opening with
  | refused _ table => rw [table]
  | @granted i _ _ _ lowest _ table =>
    by_cases outside : fd ≤ 0 ∨ fd ≥ nutsosMaxFileDescriptors
    · rw [if_pos outside,if_pos outside]
    · rw [if_neg outside] at taken
      rw [if_neg outside,if_neg outside,table]
      have different : (fd-1).toNat ≠ i := by
        intro same
        rw [same] at taken
        exact taken lowest.free
      exact if_neg different

-- One file in two kernels: the same objects, the same position, and the same
-- volume under streams that may stand anywhere.
structure Twin (fprivate : FatPrivate) (fd : Int) (h : Handle) (pos : Nat) (s t : Kernel) : Prop where
  one : HandleAt s fd h pos
  two : HandleAt t fd h pos
  disks : Alike fprivate s.disk t.disk

def Twins (fprivate : FatPrivate) (fd : Int) (h : Handle) (s t : Kernel) : Prop := ∃ pos, Twin fprivate fd h pos s t

theorem onDisk_agree {x : DiskProg α} (agree : Agree (Alike fprivate) (Alike fprivate) x x) :
    Agree (Twin fprivate fd h pos) (Twin fprivate fd h pos) (onDisk x) (onDisk x) := by
  refine agree_focus agree (fun _ _ twin => twin.disks) (fun s t a b twin disks => ⟨?_,?_,disks⟩)
  · exact ⟨twin.one.slot,twin.one.nonnull,twin.one.descriptor,twin.one.held,twin.one.item,twin.one.entry⟩
  · exact ⟨twin.two.slot,twin.two.nonnull,twin.two.descriptor,twin.two.held,twin.two.item,twin.two.entry⟩

theorem itemsLoop_agree {R : Kernel → Kernel → Prop} {readItem : Int → KernelProg (Int × List UInt8)}
    (item : ∀ offset, Agree R R (readItem offset) (readItem offset)) (filesize size count : Nat) (offset : Int) :
    Agree R R (itemsLoop readItem filesize size count offset) (itemsLoop readItem filesize size count offset) := by
  induction count generalizing offset with
  | zero => exact agree_pure _
  | succ count ih =>
    rw [itemsLoop]
    refine agree_ite (agree_pure _) (agree_bind (item offset) (fun result => ?_))
    exact agree_ite (agree_pure _) (agree_bind (ih _) (fun rest => agree_pure _))

theorem call_agree (dev : BlockDevice) (call : FileCall) :
    Agree (Twins fprivate fd h) (Twins fprivate fd h) (call.on dev fd) (call.on dev fd) := by
  cases call with
  | fread size nmemb =>
    refine agree_bind (fun s t ⟨pos,twin⟩ => ?_) (fun result => agree_pure _)
    rw [fread_handle twin.one,fread_handle twin.two]
    by_cases none : size = 0 ∨ nmemb = 0
    · rw [if_pos none,if_pos none]
      exact .ok _ ⟨pos,twin⟩
    · rw [if_neg none,if_neg none]
      have items : Agree (Twin fprivate fd h pos) (Twin fprivate fd h pos) (readItems dev h.entry size nmemb (toInt32 pos))
          (readItems dev h.entry size nmemb (toInt32 pos)) :=
        itemsLoop_agree (fun _ => onDisk_agree (readInternal_agree dev _ _ _)) _ _ _ _
      exact (items s t twin).weaken (fun _ _ related => ⟨pos,related⟩)
  | fseek offset mode =>
    refine agree_bind (fun s t ⟨pos,twin⟩ => ?_) (fun result => agree_pure _)
    rw [fseek_handle twin.one,fseek_handle twin.two]
    cases sought h.entry pos offset mode with
    | none => exact .ok _ ⟨pos,twin⟩
    | some next => exact .ok _ ⟨next,twin.one.sought next,twin.two.sought next,twin.disks⟩
  | fstat =>
    refine agree_bind (fun s t ⟨pos,twin⟩ => ?_) (fun result => agree_pure _)
    rw [fstat_handle twin.one,fstat_handle twin.two]
    exact .ok _ ⟨pos,twin⟩

-- What fat16_resolve leaves behind for the reader: the private data and the
-- two streams it reads the file and the FAT through.
def Resolved (disk : Disk) : Prop := ∃ fprivate, disk.fsPrivate = some fprivate ∧
  ∀ ptr ∈ [fprivate.clusterReadStream,fprivate.fatReadStream], (disk.streams ptr).isSome

def privateData (k : Kernel) (fd : Int) : Option Nat :=
  (k.objs (fileGetDescriptor k fd) >>= asFileDescriptor).map FileDescriptor.fprivate

-- Open descriptors of regular files, each with private data of its own.
structure OpenFiles (k : Kernel) (fds : List Int) : Prop where
  opened : ∀ fd ∈ fds, ∃ pos entry, OpenFile k fd pos entry
  apart : ∀ one ∈ fds, ∀ two ∈ fds, one ≠ two → privateData k one ≠ privateData k two

theorem HandleAt.privateData {k : Kernel} (handle : HandleAt k fd h pos) : Files.privateData k fd = some h.fprivate := by
  unfold Files.privateData
  rw [handle.slot,handle.descriptor]
  rfl

-- What holds of the kernel all along: every descriptor keeps its objects.
structure Together (handles : Int → Handle) (fds : List Int) (fprivate : FatPrivate) (k : Kernel) : Prop where
  valid : HeapValid k
  volume : k.disk.fsPrivate = some fprivate
  streams : ∀ ptr ∈ [fprivate.clusterReadStream,fprivate.fatReadStream], (k.disk.streams ptr).isSome
  held : ∀ fd ∈ fds, ∃ pos, HandleAt k fd (handles fd) pos
  apart : ∀ one ∈ fds, ∀ two ∈ fds, one ≠ two → (handles one).fprivate ≠ (handles two).fprivate

theorem OpenFiles.together {k : Kernel} (valid : HeapValid k) (resolved : Resolved k.disk) (files : OpenFiles k fds) :
    ∃ handles fprivate, Together handles fds fprivate k := by
  have each (fd : Int) : ∃ handle, fd ∈ fds → ∃ pos, HandleAt k fd handle pos := by
    by_cases member : fd ∈ fds
    · obtain ⟨pos,entry,opened⟩ := files.opened fd member
      obtain ⟨handle,_,held⟩ := opened.handle
      exact ⟨handle,fun _ => ⟨pos,held⟩⟩
    · exact ⟨⟨0,0,0,0,0,.read,zeroDirectoryItem⟩,fun listed => absurd listed member⟩
  obtain ⟨handles,held⟩ := Classical.axiomOfChoice each
  obtain ⟨fprivate,volume,streams⟩ := resolved
  refine ⟨handles,fprivate,valid,volume,streams,held,fun one first two second different same => ?_⟩
  obtain ⟨_,atOne⟩ := held one first
  obtain ⟨_,atTwo⟩ := held two second
  exact files.apart one first two second different (by rw [atOne.privateData,atTwo.privateData,same])

theorem Together.same {before after : Kernel} (together : Together handles fds fprivate before) (valid : HeapValid after)
    (volume : SameVolume before.disk after.disk) (held : ∀ fd ∈ fds, ∃ pos, HandleAt after fd (handles fd) pos) :
    Together handles fds fprivate after :=
  ⟨valid,volume.fsPrivate.trans together.volume,fun ptr member => volume.streams ptr (together.streams ptr member),held,
    together.apart⟩

theorem alike_after {one two after : Disk} (alike : Alike fprivate one two) (volume : SameVolume one after) :
    Alike fprivate after two :=
  ⟨volume.fsPrivate.trans alike.privateOne,alike.privateTwo,volume.sectorSize.trans alike.sector,
    fun ptr member => volume.streams ptr (alike.streamsOne ptr member),alike.streamsTwo⟩

theorem Together.opened {k : Kernel} (together : Together handles fds fprivate k)
    (ran : fopen dev filename modeStr k = .ok (ptr,after)) :
    Together handles fds fprivate after := by
  obtain ⟨grown,opening⟩ := fopen_grown together.valid ran
  refine together.same grown.valid grown.volume (fun fd member => ?_)
  obtain ⟨pos,held⟩ := together.held fd member
  exact ⟨pos,held.opened grown opening⟩

theorem Together.called {k : Kernel} (together : Together handles fds fprivate k) (member : number ∈ fds)
    (ran : FileCall.on dev number call k = .ok (answer,after)) :
    Together handles fds fprivate after := by
  obtain ⟨at',mine⟩ := together.held number member
  have moves := call_moves together.valid mine ran
  refine together.same moves.valid moves.volume (fun fd listed => ?_)
  by_cases same : fd = number
  · rw [same]
    exact moves.handle
  · obtain ⟨pos,held⟩ := together.held fd listed
    exact ⟨pos,held.moved mine (together.apart fd listed number member same) moves⟩

theorem twins_fopen {k : Kernel} (together : Together handles fds fprivate k) (twins : Twins fprivate fd h k t)
    (ran : fopen dev filename modeStr k = .ok (ptr,after)) :
    Twins fprivate fd h after t := by
  obtain ⟨grown,opening⟩ := fopen_grown together.valid ran
  obtain ⟨pos,twin⟩ := twins
  exact ⟨pos,twin.one.opened grown opening,twin.two,alike_after twin.disks grown.volume⟩

theorem twins_other {k : Kernel} (together : Together handles fds fprivate k) (twins : Twins fprivate fd (handles fd) k t)
    (here : fd ∈ fds) (member : number ∈ fds) (other : fd ≠ number)
    (ran : FileCall.on dev number call k = .ok (answer,after)) : Twins fprivate fd (handles fd) after t := by
  obtain ⟨at',theirs⟩ := together.held number member
  have moves := call_moves together.valid theirs ran
  obtain ⟨pos,twin⟩ := twins
  exact ⟨pos,twin.one.moved theirs (together.apart fd here number member other) moves,twin.two,alike_after twin.disks moves.volume⟩

theorem perform_call {k : Kernel} (called : FileCall.on dev fd call k = .ok (answer,one))
    (performed : perform dev rest one = .ok (answers,after)) :
    perform dev (.call fd call::rest) k = .ok ((fd,answer)::answers,after) := by
  rw [perform,bind_run called,bind_run performed]
  rfl

theorem perform_alone {k : Kernel} (together : Together handles fds fprivate k) (here : fd ∈ fds)
    (within : ∀ event ∈ events, FileEvent.within fds event)
    (twins : Twins fprivate fd (handles fd) k t) (ran : perform dev events k = .ok (answers,after)) :
    ∃ alone, perform dev (events.filter (FileEvent.ownedBy fd)) t = .ok (answers.filter (fun answer => answer.1 == fd),alone) ∧
      Twins fprivate fd (handles fd) after alone := by
  induction events generalizing k t answers with
  | nil =>
    cases ran
    exact ⟨t,rfl,twins⟩
  | cons event events ih =>
    have rest : ∀ event ∈ events, FileEvent.within fds event := fun e member => within e (List.mem_cons_of_mem _ member)
    cases event with
    | fopen filename modeStr =>
      obtain ⟨ptr,one,opened,ran⟩ := bind_ok.mp ran
      exact ih (together.opened opened) rest (twins_fopen together twins opened) ran
    | call number call =>
      obtain ⟨answer,one,called,ran⟩ := bind_ok.mp ran
      obtain ⟨later,two,performed,ran⟩ := bind_ok.mp ran
      cases ran
      have member : number ∈ fds := within (.call number call) List.mem_cons_self
      have still := together.called member called
      by_cases same : number = fd
      · subst same
        obtain ⟨t',calledAlone,twins'⟩ := (call_agree dev call k t twins).returned called
        obtain ⟨alone,performedAlone,final⟩ := ih still rest twins' performed
        refine ⟨alone,?_,final⟩
        simp only [List.filter_cons,FileEvent.ownedBy,beq_self_eq_true,if_true]
        exact perform_call calledAlone performedAlone
      · obtain ⟨alone,performedAlone,final⟩ :=
          ih still rest (twins_other together twins here member (Ne.symm same) called) performed
        refine ⟨alone,?_,final⟩
        simp only [List.filter_cons,FileEvent.ownedBy,beq_iff_eq,same,if_false]
        exact performedAlone

theorem HandleAt.openFile {k : Kernel} (handle : HandleAt k fd h pos) : OpenFile k fd pos h.entry := by
  have slot := handle.slot
  exact ⟨by rw [slot]; exact handle.nonnull,by
    rw [slot]
    exact ⟨h.index,h.fprivate,h.mode,handle.descriptor,h.item,h.target,handle.held,handle.item,handle.entry⟩⟩

theorem fopen_new {k : Kernel} (valid : HeapValid k) (ran : fopen dev filename modeStr k = .ok (ptr,after))
    (held : after.objs ptr = some (.fileDescriptor descriptor)) :
    IsError descriptor.fprivate ∨ ∃ middle, Grown k middle ∧ NewFile k middle descriptor.fprivate ∧ FilesGrown middle after := by
  obtain ⟨opened,middle,reached,_⟩ := bind_ok.mp ran
  obtain ⟨grown,result⟩ := openPath_grown valid reached
  have refused {l : Kernel} (same : l.objs = middle.objs) (present : l.objs 0 = some (.fileDescriptor descriptor)) : False := by
    rw [same,grown.valid.null] at present
    cases present
  cases opened with
  | error e =>
    rw [fopen_refused reached] at ran
    cases ran
    exact (refused rfl held).elim
  | ok fprivate =>
    rw [fopen_opened reached] at ran
    rcases lowest_or_full k with full | ⟨i,lowest⟩
    · rw [(openDescriptor_full grown full fprivate (fileModeFromString modeStr)).1] at ran
      cases ran
      exact (refused rfl held).elim
    · obtain ⟨desc,l,_,⟨_,failed⟩ | ⟨_,_,opened,called,_,_,taken⟩⟩ :=
        openDescriptor_lowest grown lowest fprivate (fileModeFromString modeStr)
      · rw [failed] at ran
        cases ran
      · rw [called] at ran
        cases ran
        cases taken.held.symm.trans held
        exact (result fprivate rfl).imp_right (fun new => ⟨middle,grown,new,taken.grown⟩)

theorem fopen_private {k : Kernel} (valid : HeapValid k) (ran : fopen dev filename modeStr k = .ok (ptr,after))
    (held : after.objs ptr = some (.fileDescriptor descriptor)) :
    IsError descriptor.fprivate ∨ k.objs descriptor.fprivate = none :=
  (fopen_new valid ran held).imp_right (fun ⟨_,_,new,_⟩ => new.fresh)

theorem OpenFiles.joined {k : Kernel} (valid : HeapValid k) (files : OpenFiles k fds)
    (ran : fopen dev filename modeStr k = .ok (ptr,after)) (free : fileGetDescriptor k number = 0)
    (file : OpenFile after number pos entry) : OpenFiles after (number::fds) := by
  obtain ⟨grown,opening⟩ := fopen_grown valid ran
  obtain ⟨mine,_,held⟩ := file.handle
  have fresh : k.objs mine.fprivate = none := by
    have slot : fileGetDescriptor after number = ptr := by
      have taken := file.nonnull
      unfold fileGetDescriptor at *
      by_cases outside : number ≤ 0 ∨ number ≥ nutsosMaxFileDescriptors
      · rw [if_pos outside] at taken
        exact absurd rfl taken
      · rw [if_neg outside] at *
        cases opening with
        | refused _ table =>
          rw [table,free] at taken
          exact absurd rfl taken
        | @granted i _ _ _ _ _ table =>
          rw [table] at taken ⊢
          by_cases same : (number-1).toNat = i
          · exact if_pos same
          · simp only [if_neg same,free] at taken
            exact absurd rfl taken
    have descriptor := held.descriptor
    rw [← held.slot,slot] at descriptor
    refine (fopen_private valid ran descriptor).resolve_left (fun error => ?_)
    have empty := error_unheld grown.valid error
    rw [held.held] at empty
    cases empty
  -- an old file keeps its objects, and the new one has other private data
  have old {fd : Int} (member : fd ∈ fds) : ∃ pos h, HandleAt after fd h pos ∧ Files.privateData after fd = Files.privateData k fd ∧
      privateData after fd ≠ privateData after number := by
    obtain ⟨at',_,opened⟩ := files.opened fd member
    obtain ⟨h,_,handle⟩ := opened.handle
    have still := handle.opened grown opening
    refine ⟨at',h,still,by rw [still.privateData,handle.privateData],?_⟩
    rw [still.privateData,held.privateData]
    intro same
    have present := handle.held
    rw [Option.some.inj same,fresh] at present
    cases present
  refine ⟨fun fd member => ?_,fun one first two second different => ?_⟩
  · cases member with
    | head => exact ⟨pos,entry,file⟩
    | tail _ member =>
      obtain ⟨at',h,still,_⟩ := old member
      exact ⟨at',h.entry,still.openFile⟩
  · cases first with
    | head =>
      cases second with
      | head => exact absurd rfl different
      | tail _ second =>
        obtain ⟨_,_,_,_,other⟩ := old second
        exact other.symm
    | tail _ first =>
      obtain ⟨_,_,_,sameOne,other⟩ := old first
      cases second with
      | head => exact other
      | tail _ second =>
        obtain ⟨_,_,_,sameTwo,_⟩ := old second
        rw [sameOne,sameTwo]
        exact files.apart one first two second different

-- The sample volume once its root directory is loaded.
def sampleMounted (item : Nat) : FatPrivate :=
  {samplePrivate with rootDirectory := {samplePrivate.rootDirectory with item := item, total := 1}}

structure SampleVolume (disk : Disk) (item : Nat) : Prop where
  volume : disk.fsPrivate = some (sampleMounted item)
  sector : disk.sectorSize = 512
  streams : ∀ ptr, (disk.streams ptr).isSome

theorem SampleVolume.after {before after : Disk} (volume : SampleVolume before item) (same : SameVolume before after) :
    SampleVolume after item :=
  ⟨same.fsPrivate.trans volume.volume,same.sectorSize.trans volume.sector,fun ptr => same.streams ptr (volume.streams ptr)⟩

theorem twice_opened (dev : BlockDevice) : ∃ k item, HeapValid k ∧ SampleVolume k.disk item ∧
    OpenFile k 1 0 sampleEntry ∧ OpenFile k 2 0 sampleEntry ∧ OpenFiles k [2,1] ∧
    RootFile k (partString sampleName) sampleEntry ∧ k.disk.filesystem ≠ none ∧ Lowest k 2 ∧ Room k.heap 8 := by
  obtain ⟨item,valid,root,room,empty,disk⟩ := rootKernel_valid sampleDisk samplePrivate sample_found rfl
  have mounted : sampleKernel.disk.filesystem ≠ none := by
    unfold sampleKernel
    rw [disk]
    simp [sampleDisk,fatDisk]
  rw [show 131071 = 8+(8+131055) by decide] at room
  have volume : SampleVolume sampleKernel.disk item := by
    unfold sampleKernel
    rw [disk]
    exact ⟨rfl,rfl,fun ptr => rfl⟩
  obtain ⟨one,middle,first,grown,nonnullOne,⟨_,heldOne,fileOne⟩,tableOne,room⟩ :=
    fopen_file_run (k := sampleKernel) _ valid sample_component root mounted (first_lowest empty) room dev
  have lowest : Lowest middle 1 := by
    refine ⟨by decide,?_,fun j earlier => ?_⟩
    · rw [tableOne]
      exact empty 1
    · obtain rfl : j = 0 := by omega
      rw [tableOne]
      exact nonnullOne
  obtain ⟨two,after,second,grown',nonnullTwo,⟨_,heldTwo,fileTwo⟩,tableTwo,left⟩ :=
    fopen_file_run (k := middle) _ grown.valid sample_component (root.kept grown.volume grown.kept)
      (by rw [grown.volume.filesystem]; exact mounted) lowest room dev
  have slotOne : middle.fileDescriptors 0 = one := by rw [tableOne]; rfl
  have slotTwo : after.fileDescriptors 1 = two := by rw [tableTwo]; rfl
  have openOne : OpenFile middle 1 0 sampleEntry :=
    openFile_of_slot (i := 0) (by decide) (by rw [slotOne]; exact nonnullOne) (by rw [slotOne]; exact ⟨_,_,_,heldOne,fileOne⟩)
  have openTwo : OpenFile after 2 0 sampleEntry :=
    openFile_of_slot (i := 1) (by decide) (by rw [slotTwo]; exact nonnullTwo) (by rw [slotTwo]; exact ⟨_,_,_,heldTwo,fileTwo⟩)
  have alone : OpenFiles middle [1] := by
    refine ⟨fun fd member => ?_,fun a first b second different => ?_⟩
    · rw [List.mem_singleton.mp member]
      exact ⟨0,sampleEntry,openOne⟩
    · exact absurd ((List.mem_singleton.mp first).trans (List.mem_singleton.mp second).symm) different
  have free : fileGetDescriptor middle 2 = 0 := getDescriptor_free lowest.free
  obtain ⟨handle,entry,held⟩ := openOne.handle
  have still := (held.opened grown' (fopen_grown grown.valid second).2).openFile
  rw [entry] at still
  have lowestTwo : Lowest after 2 := by
    refine ⟨by decide,?_,fun j earlier => ?_⟩
    · rw [tableTwo,tableOne]
      exact empty 2
    · obtain rfl | rfl : j = 0 ∨ j = 1 := by omega
      · rw [tableTwo]
        show middle.fileDescriptors 0 ≠ 0
        rw [slotOne]
        exact nonnullOne
      · rw [slotTwo]
        exact nonnullTwo
  exact ⟨after,item,grown'.valid,(volume.after grown.volume).after grown'.volume,still,openTwo,
    alone.joined grown.valid second free openTwo,(root.kept grown.volume grown.kept).kept grown'.volume grown'.kept,
    by rw [grown'.volume.filesystem,grown.volume.filesystem]; exact mounted,lowestTwo,left.less (by decide)⟩

end NutsOS.Files
