import NutsOS.Fat16.Positions

-- Volumes that the driver accepts, and for which of them its positions are right.
namespace NutsOS.Fat16
open Word32 Bytes HeapAlloc DiskStreams Prog

-- Every seek in the data area of a mounted volume, at any later time.
def ExactPositions (b : BootSector) (mounted : Disk) : Prop :=
  ∃ fprivate, mounted.fsPrivate = some fprivate ∧ ∀ disk, SameVolume mounted disk → ExactData b disk fprivate

theorem accepted_geometry (valid : HeapValid k) (sized : k.disk.sectorSize = nutsosSectorSize) (boot : dev 0 = some sector)
    (accepted : fat16Resolve dev k = .ok (0,after)) : ∃ fprivate, Geometry after.disk fprivate (bootSector sector) := by
  obtain ⟨fprivate,found,mounted⟩ := fat16Resolve_ok valid accepted
  have same := mounted.resolved.boot
  rw [boot] at same
  cases same
  exact ⟨fprivate,.of_mounted mounted sized⟩

theorem exactPositions_of (geometry : Geometry mounted fprivate b) (all : ∀ disk, SameVolume mounted disk → ExactData b disk fprivate) :
    ExactPositions b mounted := ⟨fprivate,geometry.private_eq,all⟩

theorem ExactPositions.now (exact' : ExactPositions b mounted) (geometry : Geometry mounted fprivate b) : ExactData b mounted fprivate := by
  obtain ⟨found,known,all⟩ := exact'
  rw [geometry.private_eq] at known
  cases known
  exact all mounted (.refl mounted)

theorem exactPositions_iff (geometry : Geometry mounted fprivate b) (fields : b.Fields) (allowed : b.FormatAllows) :
    ExactPositions b mounted ↔ b.bytesPerSector = 512 ∧ b.dataEnd ≤ 2147483648 := by
  have some := FormatAllows.perCluster allowed
  have data : b.clusters ≠ 0 := Nat.ne_of_gt allowed.clusters.1
  constructor
  · intro exact'
    have sized := exactData_sized geometry fields allowed (exact'.now geometry)
    exact ⟨sized,((exactData_iff geometry fields some sized).mp (exact'.now geometry)).resolve_left data⟩
  · rintro ⟨sized,fits⟩
    exact exactPositions_of geometry (fun disk same => (exactData_iff (geometry.after same) fields some sized).mpr (.inr fits))

theorem positions_exact {k after : Kernel} (valid : HeapValid k) (sized : k.disk.sectorSize = nutsosSectorSize)
    (boot : dev 0 = some sector) (accepted : fat16Resolve dev k = .ok (0,after)) (allowed : (bootSector sector).FormatAllows) :
    ExactPositions (bootSector sector) after.disk ↔
      (bootSector sector).bytesPerSector = 512 ∧ (bootSector sector).dataEnd ≤ 2147483648 := by
  obtain ⟨fprivate,geometry⟩ := accepted_geometry valid sized boot accepted
  exact exactPositions_iff geometry (bootSector_fields sector) allowed

theorem header_arrives {disk : Disk} (boot : dev 0 = some sector) (stands : disk.streams stream = some ⟨0⟩) :
    ∃ after, readStream dev stream 62 disk = .ok ((0,slice sector 0 62),after) ∧ SameVolume disk after := by
  have whole := (diskstreamRead_reads dev 0 62 (by decide) (by decide)).arrived (fun lba asked => by
    have first : lba = 0 := by
      unfold Asks at asked
      omega
    rw [first,boot]
    rfl)
  have bytes : slice (bytesOf dev) 0 62 = slice sector 0 62 := by
    apply slice_congr
    intro i small
    unfold bytesOf
    rw [show (0+i)/512 = 0 by omega,boot,show (0+i)%512 = 0+i by omega]
  rw [bytes] at whole
  have read : diskstreamRead dev ⟨0⟩ 62 = .ok (eok,slice sector 0 62,⟨62⟩) := whole
  refine ⟨disk.withStream stream ⟨62⟩,?_,withStream_same _ _ _⟩
  unfold readStream
  rw [bind_run (loadStream_run stands),read]
  rfl

theorem header_hangs {disk : Disk} (silent : dev 0 = none) (stands : disk.streams stream = some ⟨0⟩) :
    readStream dev stream 62 disk = .error .unbounded := by
  have hangs : diskstreamRead dev ⟨0⟩ 62 = .error .unbounded :=
    (diskstreamRead_reads dev 0 62 (by decide) (by decide)).silent (.inl rfl) silent
  unfold readStream
  rw [bind_run (loadStream_run stands),hangs]
  rfl

def filledPrivate (start : FatPrivate) (sector : Nat → UInt8) : FatPrivate :=
  {start with
    primaryHeader := fatHeaderMain (slice sector 0 62)
    fatTableAddress := toUint32 ((fatHeaderMain (slice sector 0 62)).reservedSectors*512)
    bytesPerCluster := toInt32 ((fatHeaderMain (slice sector 0 62)).sectorsPerCluster*512)}

structure Filled (k : Kernel) (start : FatPrivate) (sector : Nat → UInt8) (filled : Kernel) : Prop where
  heap : filled.heap = k.heap
  objs : filled.objs = k.objs
  sectorSize : filled.disk.sectorSize = 512
  fsPrivate : filled.disk.fsPrivate = some (filledPrivate start sector)
  streams : ∀ ptr, (k.disk.streams ptr).isSome → (filled.disk.streams ptr).isSome

theorem Filled.valid (filled : Filled k start sector f) (valid : HeapValid k) : HeapValid f :=
  valid.congr filled.heap (fun p live => by rw [filled.objs] at live; exact live)

-- From the header on, the mount is that of the root directory.
inductive Resolving (dev : BlockDevice) (stream : Nat) (start : FatPrivate) (k : Kernel) : Prop where
  | unread (silent : dev 0 = none) (hangs : resolveVolume dev stream k = .error .unbounded) : Resolving dev stream start k
  | unsigned (boot : dev 0 = some sector) (other : sector 38 ≠ nutosFat16Signature)
      (ran : resolveVolume dev stream k = .ok (-einvalid,after)) : Resolving dev stream start k
  | signed (boot : dev 0 = some sector) (signed : sector 38 = nutosFat16Signature) (filled : Filled k start sector f)
      (fails : ∀ e, fat16GetRootDirectory dev start.rootDirectory f = .error e → resolveVolume dev stream k = .error e)
      (refused : ∀ res directory after, fat16GetRootDirectory dev start.rootDirectory f = .ok ((res,directory),after) → res ≠ 0 →
        resolveVolume dev stream k = .ok (-eio,after))
      (accepted : ∀ directory after, fat16GetRootDirectory dev start.rootDirectory f = .ok ((0,directory),after) →
        resolveVolume dev stream k = .ok (0,{after with disk := {after.disk with
          fsPrivate := some {filledPrivate start sector with rootDirectory := directory}}})) : Resolving dev stream start k

theorem resolveVolume_resolving (dev : BlockDevice) {k : Kernel} (loaded : k.disk.fsPrivate = some start) (sized : k.disk.sectorSize = 512)
    (stands : k.disk.streams stream = some ⟨0⟩) : Resolving dev stream start k := by
  cases boot : dev 0 with
  | none =>
    refine .unread boot ?_
    unfold resolveVolume
    exact bind_fault (onDisk_fault (header_hangs boot stands))
  | some sector =>
    obtain ⟨disk,read,same⟩ := header_arrives boot stands
    have known : onDisk loadPrivate {k with disk := disk} = .ok (start,{k with disk := disk}) :=
      onDisk_run (k := {k with disk := disk}) (loadPrivate_known (same.fsPrivate.trans loaded))
    have signature : fatSignature (slice sector 0 62) = sector 38 := by
      unfold fatSignature
      rw [slice_getD _ (by decide)]
    by_cases signed : sector 38 = nutosFat16Signature
    · obtain ⟨size,filesystem,old,streams⟩ := disk
      obtain rfl : size = 512 := same.sectorSize.trans sized
      let f : Kernel := {k with disk := ⟨512,filesystem,some (filledPrivate start sector),streams⟩}
      have filled : Filled k start sector f := ⟨rfl,rfl,rfl,rfl,same.streams⟩
      have ran : resolveVolume dev stream k = (fat16GetRootDirectory dev start.rootDirectory >>= fun listed =>
          if listed.1 ≠ 0 then pure (-eio) else do
            setPrivate (some {filledPrivate start sector with rootDirectory := listed.2})
            pure 0 : KernelProg Int) f := by
        unfold resolveVolume
        rw [bind_run (onDisk_run read)]
        dsimp only
        rw [if_neg (by decide),bind_run known,bind_run (setPrivate_run _ _),if_neg (by rw [signature]; exact not_not.mpr signed),get_bind]
        dsimp only
        rw [bind_run (setPrivate_run _ _)]
        change (fat16GetRootDirectory dev start.rootDirectory >>= _) f = _
        refine congrFun (congrArg _ ?_) f
        funext listed
        unfold filledPrivate
        dsimp only
      refine .signed boot signed filled (fun e failed => ?_) (fun res directory after listed bad => ?_) (fun directory after listed => ?_)
      · rw [ran]
        exact bind_fault failed
      · rw [ran,bind_run listed]
        exact congrFun (if_pos bad) _
      · rw [ran,bind_run listed]
        dsimp only
        rw [if_neg (by decide),bind_run (setPrivate_run _ _)]
        rfl
    · obtain ⟨after,ran⟩ : ∃ after, resolveVolume dev stream k = .ok (-einvalid,after) := by
        unfold resolveVolume
        rw [bind_run (onDisk_run read)]
        dsimp only
        rw [if_neg (by decide),bind_run known,bind_run (setPrivate_run _ _),if_pos (by rw [signature]; exact signed)]
        exact ⟨_,rfl⟩
      exact .unsigned boot signed ran

theorem imageDevice_first (image : Nat → UInt8) : imageDevice image 0 = some image := by
  unfold imageDevice
  simp

theorem diskstreamNew_run (rest : Nat) {k : Kernel} (valid : HeapValid k) (room : Room k.heap (1+rest)) :
    ∃ stream after, diskstreamNew k = .ok (stream,after) ∧ NewStream k stream after ∧ Room after.heap rest := by
  obtain ⟨stream,one,allocated,served⟩ := kzalloc_served 8 rest valid (.chars (List.replicate 8 0)) (by decide) (by decide)
    (by rw [blocksFor_single (by decide) (by decide)]; exact room)
  have ran : diskstreamNew k = .ok (stream,{one with disk := one.disk.withStream stream ⟨0⟩}) := by
    unfold diskstreamNew
    rw [bind_run allocated,if_neg served.nonnull]
    rfl
  exact ⟨_,_,ran,diskstreamNew_ok valid ran,served.room⟩

structure Mountable (image : Nat → UInt8) : Prop where
  signed : image 38 = nutosFat16Signature
  entries : 1 ≤ (bootSector image).rootDirEntries
  empty : image ((bootSector image).rootStart*512) = nutsosFat16NomoreEntry
  fits : (bootSector image).rootStart*512+(bootSector image).rootDirEntries*32 ≤ 2147483648

def headerPrivate (image : Nat → UInt8) (cluster fat directory : Nat) : FatPrivate :=
  {FatPrivate.zero cluster fat directory with
    primaryHeader := fatHeaderMain (slice image 0 62)
    fatTableAddress := toUint32 ((fatHeaderMain (slice image 0 62)).reservedSectors*512)
    bytesPerCluster := toInt32 ((fatHeaderMain (slice image 0 62)).sectorsPerCluster*512)}

theorem header_mounted (disk : Disk) (mountable : Mountable image) (sized : disk.sectorSize = 512)
    (private' : disk.fsPrivate = some (headerPrivate image cluster fat directory))
    (nonnull : fat ≠ 0) (streams : ∀ ptr ∈ [cluster,fat,directory], (disk.streams ptr).isSome) :
    RootTable image disk (headerPrivate image cluster fat directory) ((bootSector image).rootStart*512) 0 := by
  have fields := bootSector_fields image
  have perCluster := fields.sectorsPerCluster
  have header := fatHeaderMain_slice image
  have size : (headerPrivate image cluster fat directory).bytesPerCluster = ((bootSector image).sectorsPerCluster*512 : Nat) := by
    unfold headerPrivate
    rw [header]
    dsimp only
    exact toInt32_natCast (n := (bootSector image).sectorsPerCluster*512) (by omega)
  have known : (headerPrivate image cluster fat directory).primaryHeader = fatHeaderMain (slice image 0 62) := rfl
  refine ⟨⟨private',nonnull,streams,?_,?_,?_,Int.le_refl 0⟩,?_,?_,?_,?_⟩
  · rw [sized]
    decide
  · rw [size,sized,known,header]
    exact Int.natCast_mul _ _
  · rw [size]
    omega
  · rw [sized,known,header]
    unfold BootSector.rootStart
    dsimp only
    rw [Nat.add_comm (_*_)]
    rfl
  · refine ⟨fun i less => absurd less (Nat.not_lt_zero i),?_⟩
    rw [Nat.mul_zero,Nat.add_zero]
    exact mountable.empty
  · rw [known,header]
    exact mountable.entries
  · rw [known,header]
    exact mountable.fits

theorem resolveVolume_run {k : Kernel} (valid : HeapValid k) (mountable : Mountable image) (sized : k.disk.sectorSize = 512)
    (loaded : k.disk.fsPrivate = some (FatPrivate.zero cluster fat directory)) (opened : k.disk.streams stream = some ⟨0⟩)
    (nonnull : fat ≠ 0) (streams : ∀ ptr ∈ [cluster,fat,directory], (k.disk.streams ptr).isSome)
    (room : Room k.heap (blocksFor ((bootSector image).rootDirEntries*32))) :
    ∃ after, resolveVolume (imageDevice image) stream k = .ok (0,after) := by
  have boot : imageDevice image 0 = some image := imageDevice_first image
  cases resolveVolume_resolving (imageDevice image) loaded sized opened with
  | unread silent => cases silent
  | unsigned found other =>
    rw [boot] at found
    cases found
    exact absurd mountable.signed other
  | @signed sector filled found _ fill _ _ accepted =>
    rw [boot] at found
    cases found
    have table := header_mounted filled.disk mountable fill.sectorSize fill.fsPrivate nonnull
      (fun ptr member => fill.streams ptr (streams ptr member))
    rcases rootDirectory_run (fill.valid valid) table (FatPrivate.zero cluster fat directory).rootDirectory with
      ⟨_,_,full⟩ | ⟨found,after,listed,_⟩
    · have none := full 0
      rw [show (headerPrivate image cluster fat directory).primaryHeader = fatHeaderMain (slice image 0 62) from rfl,
        fatHeaderMain_slice,fill.heap] at none
      exact absurd room none
    · exact ⟨_,accepted found after listed⟩

-- The mount between the opening of its streams and their closing.
structure Opening (dev : BlockDevice) (k : Kernel) (rest cluster fat directory stream : Nat) (opened : Kernel) : Prop where
  valid : HeapValid opened
  sectorSize : opened.disk.sectorSize = k.disk.sectorSize
  fsPrivate : opened.disk.fsPrivate = some (FatPrivate.zero cluster fat directory)
  fatStream : fat ≠ 0
  streams : ∀ ptr ∈ [cluster,fat,directory], (opened.disk.streams ptr).isSome
  stands : opened.disk.streams stream = some ⟨0⟩
  held : (opened.objs stream).isSome
  room : Room opened.heap rest
  fails : ∀ e, resolveVolume dev stream opened = .error e → fat16Resolve dev k = .error e
  ends : ∀ res resolved, resolveVolume dev stream opened = .ok (res,resolved) → ∃ after, fat16Resolve dev k = .ok (res,after) ∧
    (¬ res < 0 → after.disk.fsPrivate = resolved.disk.fsPrivate ∧ ∀ ptr, ptr ≠ stream → after.objs ptr = resolved.objs ptr)

theorem fat16Resolve_opens (rest : Nat) {k : Kernel} (valid : HeapValid k) (room : Room k.heap (5+rest)) (dev : BlockDevice) :
    ∃ cluster fat directory stream opened, Opening dev k rest cluster fat directory stream opened := by
  obtain ⟨fatPrivate,one,allocated,served⟩ := kzalloc_served 104 (4+rest) valid (.chars (List.replicate 104 0)) (by decide)
    (by decide) (by rw [blocksFor_single (by decide) (by decide),← Nat.add_assoc]; exact room)
  have diskOne := kzalloc_disk allocated
  obtain ⟨cluster,two,openTwo,newTwo,roomTwo⟩ := diskstreamNew_run (3+rest) served.grown.valid (by rw [← Nat.add_assoc]; exact served.room)
  obtain ⟨fat,three,openThree,newThree,roomThree⟩ := diskstreamNew_run (2+rest) newTwo.valid (by rw [← Nat.add_assoc]; exact roomTwo)
  obtain ⟨directory,four,openFour,newFour,roomFour⟩ := diskstreamNew_run (1+rest) newThree.valid (by rw [← Nat.add_assoc]; exact roomThree)
  let five : Kernel := {four with disk := {four.disk with
    fsPrivate := some (FatPrivate.zero cluster fat directory)
    filesystem := some .fat16}}
  have validFive : HeapValid five := newFour.valid.congr rfl (fun _ live => live)
  obtain ⟨stream,six,openSix,newSix,roomSix⟩ := diskstreamNew_run (k := five) rest validFive roomFour
  have set : onDisk (Prog.modify (fun disk =>
    {disk with fsPrivate := some (FatPrivate.zero cluster fat directory), filesystem := some .fat16})) four =
      .ok ((),five) := rfl
  refine ⟨cluster,fat,directory,stream,six,newSix.valid,?_,by rw [newSix.disk]; rfl,newThree.nonnull,?_,
    by rw [newSix.disk]; exact withStream_at _ _ _,newSix.live,roomSix,?_,?_⟩
  · rw [newSix.disk]
    show four.disk.sectorSize = _
    rw [newFour.disk]
    show three.disk.sectorSize = _
    rw [newThree.disk]
    show two.disk.sectorSize = _
    rw [newTwo.disk]
    show one.disk.sectorSize = _
    rw [diskOne]
  · intro ptr member
    rw [newSix.disk]
    apply (withStream_same _ _ _).streams
    show (four.disk.streams ptr).isSome
    rw [newFour.disk,newThree.disk,newTwo.disk]
    exact threeStreams _ member
  · intro e failed
    unfold fat16Resolve
    rw [bind_run allocated,if_neg served.nonnull,bind_run openTwo,bind_run openThree,bind_run openFour,bind_run set,bind_run openSix]
    exact bind_fault failed
  · intro res resolved ran
    obtain ⟨closed,close,disk,objs⟩ : ∃ closed, diskstreamClose stream resolved = .ok ((),closed) ∧
        closed.disk.fsPrivate = resolved.disk.fsPrivate ∧ ∀ ptr, ptr ≠ stream → closed.objs ptr = resolved.objs ptr :=
      ⟨_,rfl,rfl,fun ptr other => if_neg other⟩
    by_cases failed : res < 0
    · obtain ⟨after,released⟩ : ∃ after, (do
          kfree fatPrivate
          setPrivate none : KernelProg Unit) closed = .ok ((),after) := ⟨_,rfl⟩
      refine ⟨after,?_,fun fine => absurd failed fine⟩
      unfold fat16Resolve
      rw [bind_run allocated,if_neg served.nonnull,bind_run openTwo,bind_run openThree,bind_run openFour,bind_run set,bind_run openSix,
        bind_run ran,bind_run close,when_true failed,bind_run released]
      rfl
    · refine ⟨closed,?_,fun _ => ⟨disk,objs⟩⟩
      unfold fat16Resolve
      rw [bind_run allocated,if_neg served.nonnull,bind_run openTwo,bind_run openThree,bind_run openFour,bind_run set,bind_run openSix,
        bind_run ran,bind_run close,when_false failed]
      rfl

theorem fat16Resolve_run {k : Kernel} (valid : HeapValid k) (mountable : Mountable image) (sized : k.disk.sectorSize = 512)
    (room : Room k.heap (5+blocksFor ((bootSector image).rootDirEntries*32))) :
    ∃ after, fat16Resolve (imageDevice image) k = .ok (0,after) := by
  obtain ⟨cluster,fat,directory,stream,six,opening⟩ := fat16Resolve_opens _ valid room (imageDevice image)
  obtain ⟨seven,resolved⟩ := resolveVolume_run opening.valid mountable (opening.sectorSize.trans sized) opening.fsPrivate
    opening.stands opening.fatStream opening.streams opening.room
  obtain ⟨after,ran,_⟩ := opening.ends 0 seven resolved
  exact ⟨after,ran⟩

-- The boot record of boot.asm, with its cluster size and its number of sectors.
def descriptorSector (sectorsPerCluster low middle high : UInt8) : List UInt8 :=
  [0xEB,0x3C,0x90,0x4D,0x53,0x57,0x49,0x4E,0x34,0x2E,0x31,
    0x00,0x02,sectorsPerCluster,200,0,0x02,0x40,0x00,0x00,0x00,0xF8,0x00,0x01,0x20,0x00,0x40,0x00,0x00,0x00,0x00,0x00,
    low,middle,high,0x00,
    0x80,0x00,0x29,0x05,0xD1,0x00,0x00,0x4E,0x55,0x54,0x53,0x4F,0x53,0x20,0x42,0x4F,0x4F,0x54,
    0x46,0x41,0x54,0x31,0x36,0x20,0x20,0x20]

def descriptorImage (sectorsPerCluster low middle high : UInt8) (pos : Nat) : UInt8 :=
  (descriptorSector sectorsPerCluster low middle high).getD pos 0

def bootImage : Nat → UInt8 := descriptorImage 0x80 0x94 0x35 0x77

theorem descriptor_sector (sectorsPerCluster low middle high : UInt8) : bootSector (descriptorImage sectorsPerCluster low middle high) =
    ⟨512,sectorsPerCluster.toNat,200,2,64,0,256,littleEndian [low,middle,high,0]⟩ := by
  unfold bootSector
  rw [show slice (descriptorImage sectorsPerCluster low middle high) 11 2 = [0x00,0x02] from rfl,
    show slice (descriptorImage sectorsPerCluster low middle high) 14 2 = [200,0] from rfl,
    show slice (descriptorImage sectorsPerCluster low middle high) 17 2 = [0x40,0x00] from rfl,
    show slice (descriptorImage sectorsPerCluster low middle high) 19 2 = [0x00,0x00] from rfl,
    show slice (descriptorImage sectorsPerCluster low middle high) 22 2 = [0x00,0x01] from rfl,
    show slice (descriptorImage sectorsPerCluster low middle high) 32 4 = [low,middle,high,0x00] from rfl]
  rfl

theorem descriptor_mountable (sectorsPerCluster low middle high : UInt8) : Mountable (descriptorImage sectorsPerCluster low middle high) := by
  refine ⟨rfl,?_,?_,?_⟩
  · rw [descriptor_sector]
    exact (by decide : 1 ≤ 64)
  · rw [descriptor_sector]
    rfl
  · rw [descriptor_sector]
    unfold BootSector.rootStart
    dsimp only
    omega

theorem descriptor_accepted (sectorsPerCluster low middle high : UInt8) : ∃ after,
    fat16Resolve (imageDevice (descriptorImage sectorsPerCluster low middle high)) (bootKernel bootEntries noDisk) = .ok (0,after) := by
  apply fat16Resolve_run (boot_valid bootEntries noDisk rfl) (descriptor_mountable _ _ _ _) rfl
  rw [descriptor_sector]
  dsimp only
  rw [blocksFor_single (by decide) (by decide)]
  obtain ⟨b,above,free⟩ := boot_room bootEntries noDisk
  exact ⟨b,by omega,free⟩

theorem small_positions_exact : ∃ after, fat16Resolve (imageDevice (descriptorImage 1 0 0 1)) (bootKernel bootEntries noDisk) = .ok (0,after) ∧
    ExactPositions (bootSector (descriptorImage 1 0 0 1)) after.disk := by
  obtain ⟨after,ran⟩ := descriptor_accepted 1 0 0 1
  refine ⟨after,ran,(positions_exact (boot_valid bootEntries noDisk rfl) rfl (imageDevice_first _) ran ?_).mpr ?_⟩
  · exact ⟨by decide,by decide,by decide,by decide,by decide,by decide⟩
  · decide

theorem boot_positions_wrap : ∃ after, fat16Resolve (imageDevice bootImage) (bootKernel bootEntries noDisk) = .ok (0,after) ∧
    bootSector bootImage = ⟨512,128,200,2,64,0,256,0x773594⟩ ∧ (bootSector bootImage).FormatAllows ∧
    ¬ ExactPositions (bootSector bootImage) after.disk := by
  obtain ⟨after,ran⟩ := descriptor_accepted 0x80 0x94 0x35 0x77
  obtain ⟨fprivate,geometry⟩ := accepted_geometry (boot_valid bootEntries noDisk rfl) rfl (imageDevice_first _) ran
  have fields : bootSector bootImage = ⟨512,128,200,2,64,0,256,0x773594⟩ := rfl
  have allowed : (bootSector bootImage).FormatAllows := by
    rw [fields]
    exact ⟨by decide,by decide,by decide,by decide,by decide,by decide⟩
  refine ⟨after,ran,fields,allowed,fun exact' => ?_⟩
  have fits := ((exactPositions_iff geometry (bootSector_fields _) allowed).mp exact').2
  rw [show bootSector (descriptorImage 0x80 0x94 0x35 0x77) = _ from fields] at fits
  exact absurd fits (by decide)

end NutsOS.Fat16
