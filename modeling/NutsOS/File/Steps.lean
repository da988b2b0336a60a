import NutsOS.File.File
import NutsOS.File.Parsing
import NutsOS.Fat16.Resolve
import NutsOS.Kernel.Sizes

-- A relation that follows the rules holds across the calls of the file system,
-- whatever they return and whatever the pointers they are given.
namespace NutsOS.Discipline
open Word32 HeapAlloc Fat16 DiskStreams Prog

variable {R : Kernel → Kernel → Prop} (rules : Discipline R)
include rules

theorem storeChars (buf : Nat) (chars : List UInt8) : Within R (Files.storeChars buf chars) := by
  refine rules.update Files.asChars_eq (fun bytes k after ran => ?_)
  by_cases short : bytes.length < chars.length
  · rw [if_pos short] at ran
    cases ran
  · rw [if_neg short] at ran
    cases ran
    refine ⟨_,rfl,?_⟩
    rw [chars_size,chars_size,List.length_append,List.length_drop]
    omega

theorem createRoot (driveNumber : Int) : Within R (Files.pathparserCreateRoot driveNumber) := by
  refine rules.bind (rules.kzalloc _ _ (by decide)) (fun pathR => rules.bind (rules.loadAs _ _) (fun _ => ?_))
  exact rules.bind (rules.store _ _ rfl) (fun _ => rules.pure _)

theorem extractNextPathPart (path : List UInt8) : Within R (Files.pathparserExtractNextPathPart path) := by
  refine rules.bind (rules.kzalloc _ _ (by simp)) (fun part => ?_)
  refine rules.bind (rules.when (rules.storeChars _ _)) (fun _ => within_ite ?_ (rules.pure _))
  exact rules.bind (rules.kfree _) (fun _ => rules.pure _)

theorem parsePathPart (lastPart : Nat) (path : List UInt8) : Within R (Files.pathparserParsePathPart lastPart path) := by
  refine rules.bind (rules.extractNextPathPart path) (fun next => within_ite (rules.pure _) ?_)
  refine rules.bind (rules.kzalloc _ _ (by decide)) (fun part => rules.bind (rules.loadAs _ _) (fun _ => ?_))
  refine rules.bind (rules.store _ _ rfl) (fun _ => rules.bind (rules.when ?_) (fun _ => rules.pure _))
  exact rules.bind (rules.loadAs _ _) (fun _ => rules.store _ _ rfl)

theorem parseParts (fuel part : Nat) (path : List UInt8) : Within R (Files.parseParts fuel part path) := by
  induction fuel generalizing part path with
  | zero => exact within_fault _
  | succ fuel ih => exact rules.bind (rules.parsePathPart _ _) (fun _ => within_ite (rules.pure _) (ih _ _))

theorem pathparserParse (path : List UInt8) : Within R (Files.pathparserParse path) := by
  refine within_ite (rules.pure _) (within_ite (rules.pure _) ?_)
  refine rules.bind (rules.createRoot _) (fun pathRoot => within_ite (rules.pure _) ?_)
  refine rules.bind (rules.parsePathPart _ _) (fun first => within_ite (rules.pure _) (rules.bind (rules.loadAs _ _) (fun root => ?_)))
  exact rules.bind (rules.store _ _ rfl) (fun _ => rules.bind (rules.parseParts _ _ _) (fun _ => rules.pure _))

theorem freeDirectory (directory : Nat) : Within R (fat16FreeDirectory directory) := by
  refine within_ite (rules.pure _) (rules.bind (rules.loadAs _ _) (fun found => ?_))
  exact rules.bind (rules.when (rules.kfree _)) (fun _ => rules.kfree _)

theorem fatItemFree (item : Nat) : Within R (fat16FatItemFree item) := by
  refine within_ite (rules.pure _) (rules.bind (rules.loadAs _ _) (fun found => ?_))
  cases found.type with
  | directory => exact rules.bind (rules.freeDirectory _) (fun _ => rules.kfree _)
  | file => exact rules.bind (rules.kfree _) (fun _ => rules.kfree _)

-- The entries that are read fill the array that was there.
theorem storeItems (items : Nat) (bytes : List UInt8) : Within R (do
    let old ← NutsOS.loadAs asDirectoryItems items
    NutsOS.store items (.directoryItems (directoryItems old.length bytes))) := by
  refine rules.update asDirectoryItems_eq (fun old k after ran => ?_)
  cases ran
  refine ⟨_,rfl,?_⟩
  rw [directoryItems_size,directoryItems_size,directoryItems_length]

-- The array has an entry for each of those counted: 32 times a count of the loop is
-- no more than an unsigned int holds.
theorem loadFatDirectory (dev : BlockDevice) (item : FatDirectoryItem) : Within R (fat16LoadFatDirectory dev item) := by
  refine within_ite (rules.pure _) (rules.bind (rules.kzalloc _ _ (by decide)) (fun directory => within_ite (rules.pure _) ?_))
  have failed (res : Int) : Within R (do
      fat16FreeDirectory directory
      return errToPtr res) := rules.bind (rules.freeDirectory _) (fun _ => rules.pure _)
  refine rules.bind (rules.onDisk _) (fun fprivate => ?_)
  refine within_bind_returns (R := R) (fun one two => rules.trans one two) (rules.onDisk _) (returns_focus (totalItems_result _ _)) (fun res count => ?_)
  by_cases negative : res < 0
  · rw [if_pos negative]
    exact failed res
  rw [if_neg negative]
  have fits : (Obj.directoryItems (List.replicate res.toNat zeroDirectoryItem)).size ≤ toUint32 (toInt32 (res*32)) := by
    obtain ⟨n,rfl⟩ := Int.eq_ofNat_of_zero_le (Int.not_lt.mp negative)
    rcases count with error | ⟨_,high⟩
    · exact absurd (error ▸ negative) (by decide)
    · have whole : toUint32 (toInt32 ((n : Int)*32)) = n*32 := toUint32_toInt32 (show n*32 < 4294967296 by omega)
      rw [directoryItems_size,List.length_replicate,Int.toNat_natCast]
      omega
  refine rules.bind (rules.kzalloc _ _ fits) (fun items => rules.bind (rules.store _ _ rfl) (fun _ => ?_))
  refine within_ite (failed _) (rules.bind (rules.onDisk _) (fun result => within_ite (failed _) ?_))
  exact rules.bind (rules.when (rules.storeItems _ _)) (fun _ => rules.pure _)

theorem copyDirectoryItem (item : FatDirectoryItem) : Within R (fat16CopyDirectoryItem item) := by
  refine rules.bind (rules.kzalloc _ _ (by decide)) (fun copy => within_ite (rules.pure _) ?_)
  exact rules.bind (rules.store _ _ rfl) (fun _ => rules.pure _)

theorem newFatItem (dev : BlockDevice) (item : FatDirectoryItem) : Within R (fat16NewFatItemForDirectoryItem dev item) := by
  refine rules.bind (rules.kzalloc _ _ (by decide)) (fun fatItem => within_ite (rules.pure _) (within_ite ?_ ?_))
  · refine rules.bind (rules.loadFatDirectory _ _) (fun directory => ?_)
    exact rules.bind (rules.store _ _ rfl) (fun _ => rules.pure _)
  · refine rules.bind (rules.copyDirectoryItem _) (fun copy => ?_)
    exact rules.bind (rules.store _ _ rfl) (fun _ => rules.pure _)

theorem findItem (dev : BlockDevice) (directory : FatDirectory) (name : List UInt8) (count i : Nat) :
    Within R (Fat16.findItem dev directory name count i) := by
  induction count generalizing i with
  | zero => exact rules.pure _
  | succ count ih =>
    refine rules.bind (rules.loadAs _ _) (fun items => ?_)
    cases items[i]? with
    | none => exact within_fault _
    | some item => exact within_ite (rules.newFatItem _ _) (ih _)

theorem loadPart (path : Nat) : Within R (Fat16.loadPart path) :=
  rules.bind (rules.loadAs _ _) (fun _ => rules.bind (rules.loadAs _ _) (fun _ => rules.pure _))

theorem walkParts (dev : BlockDevice) (fuel currentItem nextPart : Nat) : Within R (Fat16.walkParts dev fuel currentItem nextPart) := by
  induction fuel generalizing currentItem nextPart with
  | zero => exact within_fault _
  | succ fuel ih =>
    refine within_ite (rules.pure _) (rules.bind (rules.loadAs _ _) (fun current => within_ite ?_ ?_))
    · exact rules.bind (rules.fatItemFree _) (fun _ => rules.pure _)
    · refine rules.bind (rules.loadPart _) (fun part => rules.bind (rules.loadAs _ _) (fun directory => ?_))
      refine rules.bind (rules.findItem _ _ _ _ _) (fun nextItem => rules.bind (rules.fatItemFree _) (fun _ => ?_))
      exact within_ite (rules.pure _) (ih _ _)

theorem getDirectoryEntry (dev : BlockDevice) (path : Nat) : Within R (fat16GetDirectoryEntry dev path) := by
  refine rules.bind (rules.onDisk _) (fun fatPrivate => rules.bind (rules.loadPart _) (fun part => ?_))
  exact rules.bind (rules.findItem _ _ _ _ _) (fun rootItem => within_ite (rules.pure _) (rules.walkParts _ _ _ _))

theorem driverOpen (dev : BlockDevice) (path : Nat) (mode : FileMode) : Within R (fat16Open dev path mode) := by
  refine within_ite (rules.pure _) (rules.bind (rules.kzalloc _ _ (by decide)) (fun descriptor => within_ite (rules.pure _) ?_))
  refine rules.bind (rules.getDirectoryEntry _ _) (fun item => rules.bind (rules.store _ _ rfl) (fun _ => ?_))
  exact within_ite (rules.bind (rules.kfree _) (fun _ => rules.pure _)) (rules.pure _)

theorem itemsLoop (readItem : Int → KernelProg (Int × List UInt8)) (read : ∀ offset, Within R (readItem offset))
    (filesize size count : Nat) (offset : Int) : Within R (Fat16.itemsLoop readItem filesize size count offset) := by
  induction count generalizing offset with
  | zero => exact rules.pure _
  | succ count ih =>
    refine within_ite (rules.pure _) (rules.bind (read offset) (fun result => within_ite (rules.pure _) ?_))
    exact rules.bind (ih _) (fun _ => rules.pure _)

theorem driverRead (dev : BlockDevice) (descriptor size nmemb : Nat) : Within R (fat16Read dev descriptor size nmemb) := by
  refine rules.bind (rules.loadAs _ _) (fun desc => rules.bind (rules.loadAs _ _) (fun item => ?_))
  exact rules.bind (rules.loadAs _ _) (fun _ => rules.itemsLoop _ (fun _ => rules.onDisk _) _ _ _ _)

theorem driverSeek (descriptor offset : Nat) (seekMode : FileSeekMode) : Within R (fat16Seek descriptor offset seekMode) := by
  refine rules.bind (rules.loadAs _ _) (fun desc => rules.bind (rules.loadAs _ _) (fun item => within_ite (rules.pure _) ?_))
  refine rules.bind (rules.loadAs _ _) (fun entry => ?_)
  have moved (pos : Nat) : Within R (do
      NutsOS.store descriptor (.fatFileDescriptor {desc with pos := pos})
      return eok) := rules.bind (rules.store _ _ rfl) (fun _ => rules.pure _)
  cases seekMode with
  | set => exact within_ite (rules.pure _) (moved _)
  | cur => exact within_ite (rules.pure _) (moved _)
  | seekEnd => exact rules.pure _
  | other => exact rules.pure _

theorem driverStat (descriptor : Nat) : Within R (fat16Stat descriptor) := by
  refine rules.bind (rules.loadAs _ _) (fun desc => rules.bind (rules.loadAs _ _) (fun item => ?_))
  exact within_ite (rules.pure _) (rules.bind (rules.loadAs _ _) (fun _ => rules.pure _))

theorem driverClose (descriptor : Nat) : Within R (fat16Close descriptor) :=
  rules.bind (rules.loadAs _ _) (fun _ => rules.bind (rules.fatItemFree _) (fun _ => rules.bind (rules.kfree _) (fun _ => rules.pure _)))

theorem getRootDirectory (dev : BlockDevice) (directoryOut : FatDirectory) : Within R (fat16GetRootDirectory dev directoryOut) := by
  refine rules.bind (rules.onDisk _) (fun fatPrivate => rules.get (fun k => within_ite (within_fault _) ?_))
  refine rules.bind (rules.onDisk _) (fun totalItems => rules.bind (rules.kzalloc _ _ (by simp [Nat.mul_comm])) (fun dir => ?_))
  refine within_ite (rules.pure _) (rules.bind (rules.onDisk _) (fun sought => within_ite (rules.pure _) ?_))
  refine rules.bind (rules.onDisk _) (fun result => within_ite (rules.pure _) ?_)
  exact rules.bind (rules.when (rules.storeItems _ _)) (fun _ => rules.pure _)

theorem diskstreamNew : Within R Fat16.diskstreamNew := by
  refine rules.bind (rules.kzalloc _ _ (by decide)) (fun stream => within_ite (within_fault _) ?_)
  exact rules.bind (rules.onDisk _) (fun _ => rules.pure _)

theorem resolveVolume (dev : BlockDevice) (stream : Nat) : Within R (Fat16.resolveVolume dev stream) := by
  refine rules.bind (rules.onDisk _) (fun header => within_ite (rules.pure _) (rules.bind (rules.onDisk _) (fun fprivate => ?_)))
  refine rules.bind (rules.onDisk _) (fun _ => within_ite (rules.pure _) (rules.get (fun k => ?_)))
  refine rules.bind (rules.onDisk _) (fun _ => rules.bind (rules.getRootDirectory _ _) (fun root => within_ite (rules.pure _) ?_))
  exact rules.bind (rules.onDisk _) (fun _ => rules.pure _)

theorem mount (dev : BlockDevice) : Within R (fat16Resolve dev) := by
  refine rules.bind (rules.kzalloc _ _ (by decide)) (fun fatPrivate => within_ite (within_fault _) ?_)
  refine rules.bind rules.diskstreamNew (fun _ => rules.bind rules.diskstreamNew (fun _ => rules.bind rules.diskstreamNew (fun _ => ?_)))
  refine rules.bind (rules.onDisk _) (fun _ => rules.bind rules.diskstreamNew (fun stream => ?_))
  refine rules.bind (rules.resolveVolume _ _) (fun res => rules.bind (rules.bind (rules.onDisk _) (fun _ => rules.kfree _)) (fun _ => ?_))
  exact rules.bind (rules.when (rules.bind (rules.kfree _) (fun _ => rules.onDisk _))) (fun _ => rules.pure _)

theorem loadFilesystem (desc : FileDescriptor) : Within R (Files.loadFilesystem desc) := by
  unfold Files.loadFilesystem
  cases desc.filesystem with
  | none => exact within_fault _
  | some system => exact rules.pure _

theorem onDescriptor {f : FileDescriptor → KernelProg α} {fail : α} (driver : ∀ found, Within R (f found)) (fd : Int) : Within R (do
    let desc := Files.fileGetDescriptor (← Prog.get) fd
    if desc = 0 then return fail
    let found ← NutsOS.loadAs Files.asFileDescriptor desc
    match ← Files.loadFilesystem found with
    | .fat16 => f found) := by
  refine rules.get (fun k => within_ite (rules.pure _) (rules.bind (rules.loadAs _ _) (fun found => ?_)))
  refine rules.bind (rules.loadFilesystem _) (fun system => ?_)
  cases system with
  | fat16 => exact driver found

theorem fread (dev : BlockDevice) (size nmemb : Nat) (fd : Int) : Within R (Files.fread dev size nmemb fd) :=
  within_ite (rules.pure _) (rules.onDescriptor (fun _ => rules.driverRead _ _ _ _) fd)

theorem fseek (fd offset : Int) (mode : FileSeekMode) : Within R (Files.fseek fd offset mode) :=
  rules.onDescriptor (fun _ => rules.driverSeek _ _ _) fd

theorem fstat (fd : Int) : Within R (Files.fstat fd) := rules.onDescriptor (fun _ => rules.driverStat _) fd

theorem fclose (fd : Int) : Within R (Files.fclose fd) :=
  rules.onDescriptor (fun _ => rules.bind (rules.driverClose _) (fun _ => rules.pure _)) fd

theorem openPath (dev : BlockDevice) (filename modeStr : List UInt8) : Within R (Files.openPath dev filename modeStr) := by
  refine rules.bind (rules.pathparserParse _) (fun rootPath => within_ite (rules.pure _) ?_)
  refine rules.bind (rules.loadAs _ _) (fun root => within_ite (rules.pure _) (within_ite (rules.pure _) ?_))
  refine rules.get (fun k => within_ite (rules.pure _) (within_ite (rules.pure _) ?_))
  exact rules.bind (rules.driverOpen _ _ _) (fun ptr => within_ite (rules.pure _) (rules.pure _))

section
variable (table : ∀ k fileDescriptors errno, R k {k with fileDescriptors := fileDescriptors, errno := errno})
include table

theorem newDescriptorFrom (count i : Nat) : Within R (Files.newDescriptorFrom count i) := by
  induction count generalizing i with
  | zero => exact rules.pure _
  | succ count ih =>
    refine rules.get (fun k => within_ite ?_ (ih _))
    refine rules.bind (rules.kzalloc _ _ (by decide)) (fun desc => rules.bind (rules.loadAs _ _) (fun found => ?_))
    refine rules.bind (rules.store _ _ rfl) (fun _ => rules.bind (within_modify (fun k => ?_)) (fun _ => rules.pure _))
    exact table k _ k.errno

theorem openDescriptor (descriptorPrivateData : Nat) (mode : FileMode) : Within R (Files.openDescriptor descriptorPrivateData mode) := by
  refine rules.bind (rules.newDescriptorFrom table _ _) (fun result => rules.bind (within_modify (fun k => table k k.fileDescriptors _)) (fun _ => ?_))
  refine within_ite (rules.pure _) (rules.bind (rules.loadAs _ _) (fun found => ?_))
  exact rules.bind (rules.store _ _ rfl) (fun _ => rules.pure _)

theorem fopen (dev : BlockDevice) (filename modeStr : List UInt8) : Within R (Files.fopen dev filename modeStr) := by
  refine rules.bind (rules.openPath _ _ _) (fun result => ?_)
  cases result with
  | error e => exact rules.bind (within_modify (fun k => table k k.fileDescriptors _)) (fun _ => rules.pure _)
  | ok descriptorPrivateData => exact rules.openDescriptor table _ _

end

end NutsOS.Discipline
