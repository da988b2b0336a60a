import NutsOS.Fat16.Members
import NutsOS.Fat16.Subdirectory
import NutsOS.File.Table

-- Runs of fopen, fread, fseek, fstat and fclose over the driver that stops at a
-- member its tag does not designate, and at an open file that is no longer there.
namespace NutsOS.Files
open Word32 DiskStreams Stdutil Fat16 HeapAlloc Prog

def plainly (x : KernelProg α) : Prog Misuse Kernel α := embed .fault x

def taggedOpenPath (dev : BlockDevice) (filename modeStr : List UInt8) : Prog Misuse Kernel (Except Int Nat) := do
  let rootPath ← plainly (pathparserParse filename)
  if rootPath = 0 then return .error (-einvarg)
  let root ← plainly (loadAs asPathRoot rootPath)
  if root.first = 0 then return .error (-einvarg)
  if diskGet root.driveNo = none then return .error (-eio)
  if (← Prog.get).disk.filesystem = none then return .error (-eio)
  let mode := fileModeFromString modeStr
  if mode = .invalid then return .error (-einvarg)
  let descriptorPrivateData ← openWith (tagged dev) root.first mode
  if isErrPtr descriptorPrivateData then return .error (toInt32 descriptorPrivateData)
  return .ok descriptorPrivateData

def taggedFopen (dev : BlockDevice) (filename modeStr : List UInt8) : Prog Misuse Kernel Nat := do
  match ← taggedOpenPath dev filename modeStr with
  | .error e => do
    plainly (setErrno e)
    return 0
  | .ok descriptorPrivateData => plainly (openDescriptor descriptorPrivateData (fileModeFromString modeStr))

-- What the calls on a number have in common: its descriptor, and the data that
-- the file system has for it.
def onDescriptor (fd : Int) (closed : α) (call : Nat → Prog Misuse Kernel α) : Prog Misuse Kernel α := do
  let desc := fileGetDescriptor (← Prog.get) fd
  if desc = 0 then return closed
  let found ← plainly (loadAs asFileDescriptor desc)
  match ← plainly (loadFilesystem found) with
  | .fat16 => call found.fprivate

def taggedFread (dev : BlockDevice) (size nmemb : Nat) (fd : Int) : Prog Misuse Kernel (Nat × List UInt8) := do
  if size = 0 ∨ nmemb = 0 ∨ fd < 1 then return (toUint32 (-einvarg),[])
  onDescriptor fd (toUint32 (-einvarg),[]) (fun fprivate => unlessFreed fprivate (readWith (tagged dev) dev fprivate size nmemb))

def taggedFseek (dev : BlockDevice) (fd offset : Int) (mode : FileSeekMode) : Prog Misuse Kernel Int :=
  onDescriptor fd (-eio) (fun fprivate => unlessFreed fprivate (seekWith (tagged dev) fprivate (toUint32 offset) mode))

def taggedFstat (dev : BlockDevice) (fd : Int) : Prog Misuse Kernel (Int × Option FileStat) :=
  onDescriptor fd (-eio,none) (fun fprivate => unlessFreed fprivate (statWith (tagged dev) fprivate))

def taggedFclose (dev : BlockDevice) (fd : Int) : Prog Misuse Kernel Int :=
  onDescriptor fd (-eio) (fun fprivate => do
    let _ ← unlessFreed fprivate (closeWith (tagged dev) fprivate)
    return 0)

inductive DescriptorCall where
  | fopen (filename modeStr : List UInt8)
  | fread (size nmemb : Nat) (fd : Int)
  | fseek (fd offset : Int) (mode : FileSeekMode)
  | fstat (fd : Int)
  | fclose (fd : Int)

def discard {ε : Type} (x : Prog ε Kernel α) : Prog ε Kernel Unit := do
  let _ ← x
  return ()

def DescriptorCall.run (dev : BlockDevice) : DescriptorCall → KernelProg Unit
  | .fopen filename modeStr => discard (Files.fopen dev filename modeStr)
  | .fread size nmemb fd => discard (Files.fread dev size nmemb fd)
  | .fseek fd offset mode => discard (Files.fseek fd offset mode)
  | .fstat fd => discard (Files.fstat fd)
  | .fclose fd => discard (Files.fclose fd)

def DescriptorCall.tagged (dev : BlockDevice) : DescriptorCall → Prog Misuse Kernel Unit
  | .fopen filename modeStr => discard (taggedFopen dev filename modeStr)
  | .fread size nmemb fd => discard (taggedFread dev size nmemb fd)
  | .fseek fd offset mode => discard (taggedFseek dev fd offset mode)
  | .fstat fd => discard (taggedFstat dev fd)
  | .fclose fd => discard (taggedFclose dev fd)

def taggedCalls (dev : BlockDevice) : List DescriptorCall → Prog Misuse Kernel Unit
  | [] => pure ()
  | call::rest => do
    call.tagged dev
    taggedCalls dev rest

structure Descriptor (k : Kernel) (fd : Int) (fprivate : Nat) : Prop where
  opened : fileGetDescriptor k fd ≠ 0
  held : ∃ found, k.objs (fileGetDescriptor k fd) = some (.fileDescriptor found) ∧ found.filesystem = some .fat16 ∧ found.fprivate = fprivate

-- A number whose item is tagged as a directory, and one that was closed.
def DirectoryDescriptor (k : Kernel) (fd : Int) : Prop := ∃ fprivate, Descriptor k fd fprivate ∧ OpenAs k fprivate .directory

def ClosedDescriptor (k : Kernel) (fd : Int) : Prop := ∃ fprivate, Descriptor k fd fprivate ∧ dataFreed k fprivate = true

def DescriptorCall.asks : DescriptorCall → Option Int
  | .fopen _ _ => none
  | .fread size nmemb fd => if size = 0 ∨ nmemb = 0 ∨ fd < 1 then none else some fd
  | .fseek fd _ _ => some fd
  | .fstat fd => some fd
  | .fclose fd => some fd

-- An fread that asks for something, from a directory.
def ReadsDirectory (k : Kernel) : DescriptorCall → Prop
  | .fread size nmemb fd => ¬ (size = 0 ∨ nmemb = 0 ∨ fd < 1) ∧ DirectoryDescriptor k fd
  | _ => False

def UsesClosed (k : Kernel) (call : DescriptorCall) : Prop := ∃ fd, call.asks = some fd ∧ ClosedDescriptor k fd

def ReadRejected (dev : BlockDevice) (k : Kernel) : DescriptorCall → Prop
  | .fread size nmemb fd => DirectoryDescriptor k fd →
      ∃ result bytes after, fread dev size nmemb fd k = .ok ((result,bytes),after) ∧ (result = 0 ∨ 2147483648 ≤ result)
  | _ => True

-- At every call of the run, as long as it goes.
def Along (P : Kernel → DescriptorCall → Prop) (dev : BlockDevice) : List DescriptorCall → Kernel → Prop
  | [],_ => True
  | call::rest,k => P k call ∧ ∀ after, call.run dev k = .ok ((),after) → Along P dev rest after

-- Only the members that are designated are read, of items that are there, and
-- no directory as a file.
structure TagsRespected (dev : BlockDevice) (calls : List DescriptorCall) (k : Kernel) : Prop where
  members : ∀ member type, taggedCalls dev calls k ≠ .error (.member member type)
  items : taggedCalls dev calls k ≠ .error .freed
  rejected : Along (ReadRejected dev) dev calls k

theorem discard_watches {x : Prog Misuse Kernel α} {y : KernelProg α} (same : Watches Misuse.fault x y) :
    Watches Misuse.fault (discard x) (discard y) := watches_bind same (fun _ => watches_pure _)

theorem watches_get {f : Kernel → Prog Misuse Kernel α} {g : Kernel → KernelProg α} (same : ∀ k, Watches Misuse.fault (f k) (g k)) :
    Watches Misuse.fault (Prog.get >>= f) (Prog.get >>= g) := fun k => same k k

theorem plainly_watches (x : KernelProg α) : Watches Misuse.fault (plainly x) x := watches_embed x

theorem onDescriptor_watches {closed : α} {call : Nat → Prog Misuse Kernel α} {plain : Nat → KernelProg α}
    (same : ∀ fprivate, Watches Misuse.fault (call fprivate) (plain fprivate)) (fd : Int) :
    Watches Misuse.fault (onDescriptor fd closed call) (do
      let desc := fileGetDescriptor (← Prog.get) fd
      if desc = 0 then return closed
      let found ← loadAs asFileDescriptor desc
      match ← loadFilesystem found with
      | .fat16 => plain found.fprivate) := by
  refine watches_get (fun k => watches_ite (watches_pure _) ?_)
  exact watches_bind (plainly_watches _) (fun found => watches_bind (plainly_watches _) (fun _ => same found.fprivate))

theorem call_watches (dev : BlockDevice) (call : DescriptorCall) : Watches Misuse.fault (call.tagged dev) (call.run dev) := by
  cases call with
  | fopen filename modeStr =>
    refine discard_watches (watches_bind ?_ (fun opened => ?_))
    · refine watches_bind (plainly_watches _) (fun rootPath => watches_ite (watches_pure _) ?_)
      refine watches_bind (plainly_watches _) (fun root => watches_ite (watches_pure _) (watches_ite (watches_pure _) ?_))
      refine watches_get (fun k => watches_ite (watches_pure _) (watches_ite (watches_pure _) ?_))
      exact watches_bind (openWith_watches (tagged_watching dev) _ _) (fun _ => watches_ite (watches_pure _) (watches_pure _))
    · cases opened with
      | error e => exact watches_bind (plainly_watches _) (fun _ => watches_pure _)
      | ok ptr => exact plainly_watches _
  | fread size nmemb fd =>
    refine discard_watches (watches_ite (watches_pure _) ?_)
    exact onDescriptor_watches (fun _ => unlessFreed_watches _ (readWith_watches (tagged_watching dev) _ _ _)) fd
  | fseek fd offset mode =>
    exact discard_watches (onDescriptor_watches (fun _ => unlessFreed_watches _ (seekWith_watches (tagged_watching dev) _ _ _)) fd)
  | fstat fd =>
    exact discard_watches (onDescriptor_watches (fun _ => unlessFreed_watches _ (statWith_watches (tagged_watching dev) _)) fd)
  | fclose fd =>
    exact discard_watches (onDescriptor_watches (fun _ =>
      watches_bind (unlessFreed_watches _ (closeWith_watches (tagged_watching dev) _)) (fun _ => watches_pure _)) fd)

theorem respects_get {f : Kernel → Prog Misuse Kernel α} (rest : ∀ k, Respects (f k)) : Respects (Prog.get >>= f) := fun k _ => rest k k trivial

theorem plainly_respects (x : KernelProg α) : Respects (plainly x) := embed_respects x

theorem taggedFopen_respects (dev : BlockDevice) (filename modeStr : List UInt8) : Respects (taggedFopen dev filename modeStr) := by
  have path : Respects (taggedOpenPath dev filename modeStr) := by
    refine stays_bind (plainly_respects _) (fun rootPath _ => stays_ite (fun _ => respects_pure _) (fun _ => ?_))
    refine stays_bind (plainly_respects _) (fun root _ => stays_ite (fun _ => respects_pure _)
      (fun _ => stays_ite (fun _ => respects_pure _) (fun _ => ?_)))
    refine respects_get (fun k => stays_ite (fun _ => respects_pure _) (fun _ => stays_ite (fun _ => respects_pure _) (fun _ => ?_)))
    exact stays_bind (open_respects dev _ _) (fun _ _ => stays_ite (fun _ => respects_pure _) (fun _ => respects_pure _))
  refine stays_bind path (fun opened _ => ?_)
  cases opened with
  | error e => exact stays_bind (plainly_respects _) (fun _ _ => respects_pure _)
  | ok ptr => exact plainly_respects _

theorem onDescriptor_ends {k : Kernel} (closed : α) (call : Nat → Prog Misuse Kernel α)
    (rest : ∀ fprivate, Descriptor k fd fprivate → Ends IsFault (fun _ _ => True) (call fprivate k)) :
    Ends IsFault (fun _ _ => True) (onDescriptor fd closed call k) := by
  unfold onDescriptor
  rw [get_bind]
  dsimp only
  by_cases none : fileGetDescriptor k fd = 0
  · rw [if_pos none]
    exact .ok trivial
  rw [if_neg none]
  have first : Ends IsFault (fun found after => k = after ∧ k.objs (fileGetDescriptor k fd) = some (.fileDescriptor found))
      (plainly (loadAs asFileDescriptor (fileGetDescriptor k fd)) k) :=
    ends_embed _ (fun e => ⟨e,rfl⟩) (fun _ _ ran => load_held asFileDescriptor_eq ran)
  refine first.bind (fun found one held => ?_)
  obtain ⟨rfl,held⟩ := held
  have second : Ends IsFault (fun system after => after = k ∧ found.filesystem = some system) (plainly (loadFilesystem found) k) :=
    ends_embed _ (fun e => ⟨e,rfl⟩) (fun system after ran => by
      unfold loadFilesystem at ran
      cases present : found.filesystem with
      | none =>
        rw [present] at ran
        cases ran
      | some other =>
        rw [present] at ran
        cases ran
        exact ⟨rfl,rfl⟩)
  refine second.bind (fun system two system' => ?_)
  obtain ⟨rfl,system'⟩ := system'
  cases system
  exact rest found.fprivate ⟨none,found,held,system',rfl⟩

theorem onDescriptor_run {k : Kernel} (closed : α) (call : Nat → Prog Misuse Kernel α) (descriptor : Descriptor k fd fprivate) :
    onDescriptor fd closed call k = call fprivate k := by
  obtain ⟨opened,found,held,system,rfl⟩ := descriptor
  have loaded : plainly (loadAs asFileDescriptor (fileGetDescriptor k fd)) k = .ok (found,k) :=
    embed_run (loadAs_run asFileDescriptor held rfl)
  have known : plainly (loadFilesystem found) k = .ok (.fat16,k) := by
    refine embed_run ?_
    unfold loadFilesystem
    rw [system]
    rfl
  unfold onDescriptor
  rw [get_bind]
  dsimp only
  rw [if_neg opened,bind_run loaded,bind_run known]

theorem unlessFreed_ends {k : Kernel} {x : Prog Misuse Kernel α} (held : dataFreed k descriptor ≠ true)
    (rest : Ends IsFault (fun _ _ => True) (x k)) : Ends IsFault (fun _ _ => True) (unlessFreed descriptor x k) := by
  unfold unlessFreed
  rw [get_bind,if_neg held]
  exact rest

theorem unlessFreed_stops {k : Kernel} (freed : dataFreed k descriptor = true) (x : Prog Misuse Kernel α) :
    unlessFreed descriptor x k = .error .freed := by
  unfold unlessFreed
  rw [get_bind,if_pos freed]
  rfl

theorem call_respects {k : Kernel} (dev : BlockDevice) (call : DescriptorCall) (other : ¬ ReadsDirectory k call) (inUse : ¬ UsesClosed k call) :
    Ends IsFault (fun _ _ => True) (call.tagged dev k) := by
  have calls {α : Type} {fd : Int} {x : Nat → Prog Misuse Kernel α} (asked : call.asks = some fd) (closed : α)
      (rest : ∀ fprivate, Descriptor k fd fprivate → dataFreed k fprivate ≠ true → Ends IsFault (fun _ _ => True) (x fprivate k)) :
      Ends IsFault (fun _ _ => True) (discard (onDescriptor fd closed x) k) :=
    (onDescriptor_ends closed x (fun fprivate descriptor =>
      rest fprivate descriptor (fun freed => inUse ⟨fd,asked,fprivate,descriptor,freed⟩))).bind (fun _ _ _ => .ok trivial)
  have always {α : Type} {x : Prog Misuse Kernel α} (respects : Respects x) : Ends IsFault (fun _ _ => True) (x k) :=
    (respects k trivial).weaken (fun _ _ _ => trivial)
  cases call with
  | fopen filename modeStr => exact (always (taggedFopen_respects dev filename modeStr)).bind (fun _ _ _ => .ok trivial)
  | fread size nmemb fd =>
    show Ends _ _ (discard (taggedFread dev size nmemb fd) k)
    unfold taggedFread
    by_cases bad : size = 0 ∨ nmemb = 0 ∨ fd < 1
    · rw [if_pos bad]
      exact .ok trivial
    rw [if_neg bad]
    exact calls (if_neg bad) _ (fun fprivate descriptor held => unlessFreed_ends held
      (read_respects (fun directory => other ⟨bad,fprivate,descriptor,directory⟩) dev size nmemb))
  | fseek fd offset mode => exact calls rfl _ (fun fprivate _ held => unlessFreed_ends held (always (seek_respects dev _ _ _)))
  | fstat fd => exact calls rfl _ (fun fprivate _ held => unlessFreed_ends held (always (stat_respects dev _)))
  | fclose fd =>
    exact calls rfl _ (fun fprivate _ held => (unlessFreed_ends held (always (close_respects dev _))).bind (fun _ _ _ => .ok trivial))

theorem call_stops {k : Kernel} (dev : BlockDevice) {call : DescriptorCall} (reads : ReadsDirectory k call) :
    call.tagged dev k = .error (.member .item .directory) := by
  cases call with
  | fread size nmemb fd =>
    obtain ⟨good,fprivate,descriptor,directory⟩ := reads
    refine bind_fault ?_
    unfold taggedFread
    rw [if_neg good,onDescriptor_run _ _ descriptor]
    unfold unlessFreed
    rw [get_bind,directory.held,if_neg (by decide)]
    exact read_stops directory dev size nmemb
  | fopen => exact reads.elim
  | fseek => exact reads.elim
  | fstat => exact reads.elim
  | fclose => exact reads.elim

theorem call_freed {k : Kernel} (dev : BlockDevice) {call : DescriptorCall} (uses : UsesClosed k call) : call.tagged dev k = .error .freed := by
  obtain ⟨fd,asked,fprivate,descriptor,freed⟩ := uses
  cases call with
  | fopen => cases asked
  | fread size nmemb other =>
    by_cases bad : size = 0 ∨ nmemb = 0 ∨ other < 1
    · cases (if_pos bad).symm.trans asked
    · cases (if_neg bad).symm.trans asked
      refine bind_fault ?_
      unfold taggedFread
      rw [if_neg bad,onDescriptor_run _ _ descriptor]
      exact unlessFreed_stops freed _
  | fseek =>
    cases asked
    exact bind_fault ((onDescriptor_run _ _ descriptor).trans (unlessFreed_stops freed _))
  | fstat =>
    cases asked
    exact bind_fault ((onDescriptor_run _ _ descriptor).trans (unlessFreed_stops freed _))
  | fclose =>
    cases asked
    exact bind_fault ((onDescriptor_run _ _ descriptor).trans (bind_fault (unlessFreed_stops freed _)))

theorem descriptor_called {k : Kernel} (descriptor : Descriptor k fd fprivate) (closed : α) (call : Nat → KernelProg α) : (do
    let desc := fileGetDescriptor (← Prog.get) fd
    if desc = 0 then return closed
    let found ← loadAs asFileDescriptor desc
    match ← loadFilesystem found with
    | .fat16 => call found.fprivate : KernelProg α) k = call fprivate k := by
  obtain ⟨opened,found,held,system,rfl⟩ := descriptor
  have known : loadFilesystem found k = .ok (.fat16,k) := by
    unfold loadFilesystem
    rw [system]
    rfl
  rw [get_bind]
  dsimp only
  rw [if_neg opened,bind_run (loadAs_run asFileDescriptor held rfl),bind_run known]

theorem closed_dereferenced {k : Kernel} (dev : BlockDevice) {call : DescriptorCall} (uses : UsesClosed k call) :
    ∃ ptr, call.run dev k = .error (.wildDeref ptr) := by
  obtain ⟨fd,asked,fprivate,descriptor,freed⟩ := uses
  cases call with
  | fopen => cases asked
  | fread size nmemb other =>
    by_cases bad : size = 0 ∨ nmemb = 0 ∨ other < 1
    · cases (if_pos bad).symm.trans asked
    · cases (if_neg bad).symm.trans asked
      obtain ⟨ptr,stopped⟩ := dataFreed_read freed (fun desc item => do
        let entry ← loadAs asDirectoryItem item.target
        readItems dev entry size nmemb (toInt32 desc.pos))
      refine ⟨ptr,bind_fault ?_⟩
      unfold Files.fread
      rw [if_neg bad]
      exact (descriptor_called descriptor _ (fun ptr => fat16Read dev ptr size nmemb)).trans stopped
  | fseek _ offset mode =>
    cases asked
    obtain ⟨ptr,stopped⟩ := dataFreed_read freed _
    exact ⟨ptr,bind_fault ((descriptor_called descriptor _ (fun ptr => fat16Seek ptr (toUint32 offset) mode)).trans stopped)⟩
  | fstat =>
    cases asked
    obtain ⟨ptr,stopped⟩ := dataFreed_read freed _
    exact ⟨ptr,bind_fault ((descriptor_called descriptor _ fat16Stat).trans stopped)⟩
  | fclose =>
    cases asked
    obtain ⟨ptr,stopped⟩ := dataFreed_close freed
    exact ⟨ptr,bind_fault ((descriptor_called descriptor _ (fun ptr => fat16Close ptr >>= fun _ => pure 0)).trans (bind_fault stopped))⟩

def Clean (dev : BlockDevice) (calls : List DescriptorCall) (k : Kernel) : Prop :=
  ∀ stop, taggedCalls dev calls k = .error stop → IsFault stop

theorem clean_iff (dev : BlockDevice) (calls : List DescriptorCall) (k : Kernel) : Clean dev calls k ↔
    (∀ member type, taggedCalls dev calls k ≠ .error (.member member type)) ∧ taggedCalls dev calls k ≠ .error .freed := by
  constructor
  · intro clean
    refine ⟨fun member type stopped => ?_,fun stopped => ?_⟩
    · obtain ⟨_,absurd⟩ := clean _ stopped
      cases absurd
    · obtain ⟨_,absurd⟩ := clean _ stopped
      cases absurd
  · rintro ⟨members,items⟩ stop stopped
    cases stop with
    | fault e => exact ⟨e,rfl⟩
    | member member type => exact absurd stopped (members member type)
    | freed => exact absurd stopped items

theorem clean_cons (dev : BlockDevice) (call : DescriptorCall) (rest : List DescriptorCall) (k : Kernel)
    (other : ¬ ReadsDirectory k call) (inUse : ¬ UsesClosed k call) :
    Clean dev (call::rest) k ↔ ∀ after, call.run dev k = .ok ((),after) → Clean dev rest after := by
  have ends := call_respects dev call other inUse
  have same := call_watches dev call k
  have step : taggedCalls dev (call::rest) k = (call.tagged dev >>= fun _ => taggedCalls dev rest) k := rfl
  unfold Clean
  rw [step]
  generalize ran : call.tagged dev k = result at ends same
  cases ends with
  | @ok u after _ =>
    rw [bind_run ran,same.returned rfl]
    constructor
    · intro respects after' equal
      cases equal
      exact respects
    · exact fun respects => respects after rfl
  | @error stop fault =>
    obtain ⟨e,rfl⟩ := fault
    rw [bind_fault ran,same.faulted (fun _ _ equal => by cases equal; rfl) rfl]
    refine ⟨fun _ after absurd => ?_,fun _ stop equal => ?_⟩
    · cases absurd
    · cases equal
      exact ⟨e,rfl⟩

theorem taggedCalls_respect (dev : BlockDevice) (calls : List DescriptorCall) (k : Kernel) :
    Clean dev calls k ↔ Along (fun l call => ¬ ReadsDirectory l call ∧ ¬ UsesClosed l call) dev calls k := by
  induction calls generalizing k with
  | nil => exact ⟨fun _ => trivial,fun _ _ absurd => by cases absurd⟩
  | cons call rest ih =>
    by_cases reads : ReadsDirectory k call
    · have stopped : taggedCalls dev (call::rest) k = .error (.member .item .directory) := bind_fault (call_stops dev reads)
      refine ⟨fun clean => ?_,fun clean => absurd reads clean.1.1⟩
      obtain ⟨_,absurd⟩ := clean _ stopped
      cases absurd
    by_cases uses : UsesClosed k call
    · have stopped : taggedCalls dev (call::rest) k = .error .freed := bind_fault (call_freed dev uses)
      refine ⟨fun clean => ?_,fun clean => absurd uses clean.1.2⟩
      obtain ⟨_,absurd⟩ := clean _ stopped
      cases absurd
    rw [clean_cons dev call rest k reads uses]
    exact ⟨fun clean => ⟨⟨reads,uses⟩,fun after ran => (ih after).mp (clean after ran)⟩,
      fun clean after ran => (ih after).mpr (clean.2 after ran)⟩

theorem Along.weaken {P Q : Kernel → DescriptorCall → Prop} (weaker : ∀ k call, P k call → Q k call) (along : Along P dev calls k) :
    Along Q dev calls k := by
  induction calls generalizing k with
  | nil => trivial
  | cons call rest ih => exact ⟨weaker k call along.1,fun after ran => ih (along.2 after ran)⟩

theorem idle_read_rejected (dev : BlockDevice) (k : Kernel) (call : DescriptorCall) (other : ¬ ReadsDirectory k call) :
    ReadRejected dev k call := by
  cases call with
  | fread size nmemb fd =>
    intro directory
    have bad : size = 0 ∨ nmemb = 0 ∨ fd < 1 := Decidable.by_contra (fun good => other ⟨good,directory⟩)
    refine ⟨toUint32 (-einvarg),[],k,?_,.inr (by decide)⟩
    unfold Files.fread
    rw [if_pos bad]
    rfl
  | fopen => trivial
  | fseek => trivial
  | fstat => trivial
  | fclose => trivial

theorem tags_respected (dev : BlockDevice) (calls : List DescriptorCall) (k : Kernel) :
    TagsRespected dev calls k ↔ Along (fun l call => ¬ ReadsDirectory l call ∧ ¬ UsesClosed l call) dev calls k := by
  rw [← taggedCalls_respect,clean_iff]
  constructor
  · exact fun respected => ⟨respected.members,respected.items⟩
  · intro clean
    have along := (taggedCalls_respect dev calls k).mp ((clean_iff dev calls k).mpr clean)
    exact ⟨clean.1,clean.2,along.weaken (fun l call holds => idle_read_rejected dev l call holds.1)⟩

theorem fopen_directory_run (rest : Nat) {k : Kernel} (valid : HeapValid k) (component : Component name)
    (root : RootEntry k (partString name) entry)
    (sub : FatDirectoryItem.isSubdirectory entry = true)
    (listed : ∀ disk, SameVolume k.disk disk → ∃ after, Listed dev disk entry.low16BitsFirstCluster n bytes after)
    (mounted : k.disk.filesystem ≠ none) (lowest : Lowest k 0) (room : Room k.heap (9+rest)) :
    ∃ ptr after, fopen dev (pathOf asciiZero name) [charR] k = .ok (ptr,after) ∧ DirectoryDescriptor after 1 := by
  rw [show 9+rest = 4+(4+(1+rest)) by omega] at room
  have mode : fileModeFromString [charR] = .read := by decide
  obtain ⟨part,one,first,_,named,roomOne,reached⟩ := openPath_run _ [charR] _ valid component room mounted (by decide) dev
  obtain ⟨fprivate,item,target,two,answered,second,roomTwo,descriptor,held⟩ := fat16Open_directory first.valid (root.grown first) sub
    (fun disk same => listed disk (first.volume.trans same)) named roomOne
  have opened : openPath dev (pathOf asciiZero name) [charR] k = .ok (.ok fprivate,two) := by
    rw [reached,mode,bind_run answered]
    rfl
  obtain ⟨ptr,after,called,nonnull,third,taken,table,_⟩ := fopen_served opened (first.trans second) lowest roomTwo
  have slot : fileGetDescriptor after 1 = ptr := by
    show after.fileDescriptors 0 = ptr
    rw [table]
    rfl
  refine ⟨ptr,after,called,fprivate,⟨by rw [slot]; exact nonnull,_,by rw [slot]; exact taken,rfl,rfl⟩,⟨item,0⟩,target,?_,third.held held⟩
  exact third.held descriptor

theorem directory_is_read :
    ¬ TagsRespected (imageDevice treeImage) [.fopen (pathOf asciiZero treeName) [charR],.fread 1 1 1] treeKernel := by
  intro respected
  obtain ⟨item,start⟩ := tree_start
  obtain ⟨ptr,after,opened,directory⟩ := fopen_directory_run 131062 start.valid ⟨by decide,List.all_eq_true.mp rfl,by decide⟩ start.root rfl
    (fun disk same => (tree_listed (start.tree disk same)).2.1) start.filesystem (first_lowest start.empty) start.room
  have ran : DescriptorCall.run (imageDevice treeImage) (.fopen (pathOf asciiZero treeName) [charR]) treeKernel = .ok ((),after) := by
    show discard _ treeKernel = _
    unfold discard
    rw [bind_run opened]
    rfl
  have clean := (taggedCalls_respect _ _ _).mp ((clean_iff _ _ _).mpr ⟨respected.members,respected.items⟩)
  exact (clean.2 after ran).1.1 ⟨by decide,directory⟩

end NutsOS.Files
