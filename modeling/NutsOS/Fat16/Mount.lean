import NutsOS.Fat16.Loads
import NutsOS.Fat16.Resolve

-- What a mount leaves behind, for every boot sector it accepts.
namespace NutsOS.Fat16
open Word32 Bytes HeapAlloc DiskStreams Prog Files

structure NewStream (k : Kernel) (stream : Nat) (after : Kernel) : Prop where
  valid : HeapValid after
  nonnull : stream ≠ 0
  fresh : k.objs stream = none
  live : (after.objs stream).isSome
  kept : ∀ ptr, (k.objs ptr).isSome → (after.objs ptr).isSome
  disk : after.disk = k.disk.withStream stream ⟨0⟩

theorem diskstreamNew_ok (valid : HeapValid k) (ran : diskstreamNew k = .ok (stream,after)) : NewStream k stream after := by
  obtain ⟨ptr,one,allocated,ran⟩ := bind_ok.mp ran
  have disk := kzalloc_disk allocated
  obtain ⟨grown,result⟩ := kzalloc_fresh valid (by decide) allocated
  by_cases null : ptr = 0
  · rw [if_pos null] at ran
    cases ran
  · rw [if_neg null] at ran
    obtain ⟨_,fresh,held⟩ := result.resolve_left (fun none => null none.1)
    obtain ⟨⟨⟩,two,opened,ran⟩ := bind_ok.mp ran
    cases ran
    obtain ⟨moved,same,rfl⟩ := focus_ok.mp opened
    cases same
    refine ⟨grown.valid.congr rfl (fun _ live => live),null,fresh,?_,fun a live => ?_,?_⟩
    · show (one.objs stream).isSome
      rw [held]
      rfl
    · show (one.objs a).isSome
      rw [grown.kept a live]
      exact live
    · show one.disk.withStream stream ⟨0⟩ = _
      rw [disk]

def rootSectors (header : FatHeaderMain) (sectorSize : Int) : Int :=
  if ((header.rootDirEntries*32 : Nat) : Int).tmod sectorSize ≠ 0 then
    ((header.rootDirEntries*32 : Nat) : Int).tdiv sectorSize+1
  else ((header.rootDirEntries*32 : Nat) : Int).tdiv sectorSize

def rootSector (header : FatHeaderMain) : Nat := header.fatCopies*header.sectorsPerFat+header.reservedSectors

theorem rootDirectory_ok (loaded : k.disk.fsPrivate = some fprivate)
    (ran : fat16GetRootDirectory dev out k = .ok ((0,directory),after)) :
    SameVolume k.disk after.disk ∧ k.disk.sectorSize ≠ 0 ∧ directory.sectorPos = rootSector fprivate.primaryHeader ∧
      directory.endingSectorPos = rootSector fprivate.primaryHeader+rootSectors fprivate.primaryHeader k.disk.sectorSize := by
  obtain ⟨found,one,private',ran⟩ := bind_ok.mp ran
  obtain ⟨_,same,rfl⟩ := focus_ok.mp private'
  have unchanged := loadPrivate_ok same
  rw [unchanged] at ran
  have known : found = fprivate := by
    unfold loadPrivate at same
    rw [get_bind,loaded] at same
    cases same
    rfl
  subst known
  rw [get_bind] at ran
  dsimp only at ran
  by_cases zero : k.disk.sectorSize = 0
  · rw [if_pos zero] at ran
    cases ran
  rw [if_neg zero] at ran
  obtain ⟨total,two,counted,ran⟩ := bind_ok.mp ran
  obtain ⟨diskTwo,readTwo,rfl⟩ := focus_ok.mp counted
  have sameTwo : SameVolume k.disk diskTwo := totalItems_reads dev _ _ _ _ readTwo
  obtain ⟨dir,three,allocated,ran⟩ := bind_ok.mp ran
  have diskThree := kzalloc_disk allocated
  by_cases null : dir = 0
  · rw [if_pos null] at ran
    cases ran
  rw [if_neg null] at ran
  obtain ⟨sought,four,seek,ran⟩ := bind_ok.mp ran
  obtain ⟨diskFour,readFour,rfl⟩ := focus_ok.mp seek
  have sameFour : SameVolume three.disk diskFour := seekStream_reads _ _ _ _ _ readFour
  by_cases failed : sought ≠ 0
  · rw [if_pos failed] at ran
    cases ran
  rw [if_neg failed] at ran
  obtain ⟨⟨res,bytes⟩,five,arrived,ran⟩ := bind_ok.mp ran
  obtain ⟨diskFive,readFive,rfl⟩ := focus_ok.mp arrived
  have sameFive : SameVolume diskFour diskFive := readStream_reads dev _ _ _ _ _ readFive
  dsimp only at ran
  by_cases failed : res ≠ 0
  · rw [if_pos failed] at ran
    cases ran
  rw [if_neg failed] at ran
  obtain ⟨⟨⟩,six,filled,ran⟩ := bind_ok.mp ran
  have diskSix : six.disk = diskFive := by
    unfold Prog.when at filled
    split at filled
    · obtain ⟨old,seven,held,filled⟩ := bind_ok.mp filled
      have same := (loadAs_ok.mp held).2
      cases filled
      rw [same]
      rfl
    · cases filled
      rfl
  cases ran
  rw [diskThree] at sameFour
  refine ⟨?_,zero,?_,?_⟩
  · rw [diskSix]
    exact (sameTwo.trans sameFour).trans sameFive
  · rfl
  · rfl

theorem header_read (opened : disk.streams stream = some ⟨0⟩) (ran : readStream dev stream 62 disk = .ok ((0,bytes),after)) :
    ∃ sector, dev 0 = some sector ∧ bytes = slice sector 0 62 := by
  have loaded : loadStream stream disk = .ok (⟨0⟩,disk) := loadStream_run opened
  unfold readStream at ran
  rw [bind_run loaded] at ran
  have block : toUint32 ((0 : Int).tdiv nutsosSectorSize) = 0 := by decide
  have whole : ¬ (62 : Int) > nutsosSectorSize-(0 : Int).tmod nutsosSectorSize := by decide
  have offset : (0 : Int).tmod nutsosSectorSize = ((0 : Nat) : Int) := by decide
  have count : (62 : Int).toNat = 62 := rfl
  unfold diskstreamRead at ran
  rw [count,diskstreamReadLoop] at ran
  dsimp only at ran
  rw [if_neg whole,block,offset,count] at ran
  unfold diskReadBlock at ran
  cases found : dev 0 with
  | none =>
    rw [found] at ran
    cases ran
  | some sector =>
    rw [found] at ran
    dsimp only at ran
    rw [if_neg (by decide),copySector_eq sector 62 0 (by decide)] at ran
    cases ran
    exact ⟨sector,rfl,rfl⟩

structure Resolved (dev : BlockDevice) (disk : Disk) (fprivate : FatPrivate) (sector : Nat → UInt8) : Prop where
  boot : dev 0 = some sector
  signed : fatSignature (slice sector 0 62) = nutosFat16Signature
  sized : disk.sectorSize ≠ 0
  header : fprivate.primaryHeader = fatHeaderMain (slice sector 0 62)
  table : fprivate.fatTableAddress = toUint32 (fprivate.primaryHeader.reservedSectors*disk.sectorSize)
  cluster : fprivate.bytesPerCluster = toInt32 (fprivate.primaryHeader.sectorsPerCluster*disk.sectorSize)
  root : fprivate.rootDirectory.sectorPos = rootSector fprivate.primaryHeader
  ending : fprivate.rootDirectory.endingSectorPos =
    rootSector fprivate.primaryHeader+rootSectors fprivate.primaryHeader disk.sectorSize

theorem resolveVolume_ok {k : Kernel} (loaded : k.disk.fsPrivate = some start) (opened : k.disk.streams stream = some ⟨0⟩)
    (ran : resolveVolume dev stream k = .ok (0,after)) : ∃ fprivate sector, after.disk.fsPrivate = some fprivate ∧
      Resolved dev k.disk fprivate sector ∧ after.disk.sectorSize = k.disk.sectorSize ∧
      (∀ ptr, (k.disk.streams ptr).isSome → (after.disk.streams ptr).isSome) ∧
      fprivate.clusterReadStream = start.clusterReadStream ∧ fprivate.fatReadStream = start.fatReadStream ∧
      fprivate.directoryStream = start.directoryStream := by
  obtain ⟨⟨res,bytes⟩,one,arrived,ran⟩ := bind_ok.mp ran
  obtain ⟨diskOne,readOne,rfl⟩ := focus_ok.mp arrived
  have sameOne : SameVolume k.disk diskOne := readStream_reads dev _ _ _ _ _ readOne
  dsimp only at ran
  by_cases failed : res ≠ 0
  · rw [if_pos failed] at ran
    cases ran
  rw [if_neg failed] at ran
  obtain rfl : res = 0 := not_not.mp failed
  obtain ⟨sector,boot,rfl⟩ := header_read opened readOne
  have known : onDisk loadPrivate {k with disk := diskOne} = .ok (start,{k with disk := diskOne}) :=
    onDisk_run (k := {k with disk := diskOne}) (loadPrivate_known (sameOne.fsPrivate.trans loaded))
  rw [bind_run known] at ran
  obtain ⟨⟨⟩,two,set,ran⟩ := bind_ok.mp ran
  cases set
  by_cases signed : fatSignature (slice sector 0 62) ≠ nutosFat16Signature
  · rw [if_pos signed] at ran
    cases ran
  rw [if_neg signed,get_bind] at ran
  obtain ⟨⟨⟩,three,set,ran⟩ := bind_ok.mp ran
  cases set
  obtain ⟨⟨res,directory⟩,four,listed,ran⟩ := bind_ok.mp ran
  dsimp only at ran
  by_cases failed : res ≠ 0
  · rw [if_pos failed] at ran
    cases ran
  rw [if_neg failed] at ran
  obtain rfl : res = 0 := not_not.mp failed
  obtain ⟨sameFour,sized,root,ending⟩ := rootDirectory_ok rfl listed
  obtain ⟨⟨⟩,five,set,ran⟩ := bind_ok.mp ran
  cases set
  cases ran
  have size : diskOne.sectorSize = k.disk.sectorSize := sameOne.sectorSize
  refine ⟨_,sector,rfl,⟨boot,not_not.mp signed,?_,rfl,?_,?_,root,?_⟩,?_,?_,rfl,rfl,rfl⟩
  · exact size ▸ sized
  · rw [← size]
  · rw [← size]
  · rw [← size]
    exact ending
  · exact sameFour.sectorSize.trans size
  · exact fun ptr live => sameFour.streams ptr (sameOne.streams ptr live)

structure MountedFrom (dev : BlockDevice) (before after : Disk) (fprivate : FatPrivate) (sector : Nat → UInt8) : Prop where
  private_eq : after.fsPrivate = some fprivate
  sectorSize : after.sectorSize = before.sectorSize
  resolved : Resolved dev after fprivate sector
  fatStream : fprivate.fatReadStream ≠ 0
  streams : ∀ ptr ∈ [fprivate.clusterReadStream,fprivate.fatReadStream,fprivate.directoryStream], (after.streams ptr).isSome

theorem Resolved.congr (resolved : Resolved dev before fprivate sector) (same : after.sectorSize = before.sectorSize) :
    Resolved dev after fprivate sector := by
  obtain ⟨boot,signed,sized,header,table,cluster,root,ending⟩ := resolved
  rw [← same] at sized table cluster ending
  exact ⟨boot,signed,sized,header,table,cluster,root,ending⟩

theorem diskstreamClose_disk (ran : diskstreamClose stream k = .ok ((),after)) :
    after.disk = {k.disk with streams := fun a => if a = stream then none else k.disk.streams a} := by
  obtain ⟨⟨⟩,middle,taken,ran⟩ := bind_ok.mp ran
  obtain ⟨disk,removed,rfl⟩ := focus_ok.mp taken
  cases removed
  cases ran
  rfl

theorem threeStreams (disk : Disk) (member : ptr ∈ [cluster,fat,directory]) :
    ((((disk.withStream cluster ⟨0⟩).withStream fat ⟨0⟩).withStream directory ⟨0⟩).streams ptr).isSome := by
  simp only [List.mem_cons,List.not_mem_nil,or_false] at member
  rcases member with rfl | rfl | rfl
  · exact (withStream_same _ _ _).streams _ ((withStream_same _ _ _).streams _ (by rw [withStream_at]; rfl))
  · exact (withStream_same _ _ _).streams _ (by rw [withStream_at]; rfl)
  · rw [withStream_at]
    rfl

theorem fat16Resolve_ok (valid : HeapValid k) (ran : fat16Resolve dev k = .ok (0,after)) :
    ∃ fprivate sector, MountedFrom dev k.disk after.disk fprivate sector := by
  obtain ⟨fatPrivate,one,allocated,ran⟩ := bind_ok.mp ran
  have diskOne := kzalloc_disk allocated
  obtain ⟨grown,_⟩ := kzalloc_fresh valid (by decide) allocated
  by_cases null : fatPrivate = 0
  · rw [if_pos null] at ran
    cases ran
  rw [if_neg null] at ran
  obtain ⟨cluster,two,openTwo,ran⟩ := bind_ok.mp ran
  have newTwo := diskstreamNew_ok grown.valid openTwo
  obtain ⟨fat,three,openThree,ran⟩ := bind_ok.mp ran
  have newThree := diskstreamNew_ok newTwo.valid openThree
  obtain ⟨directory,four,openFour,ran⟩ := bind_ok.mp ran
  have newFour := diskstreamNew_ok newThree.valid openFour
  obtain ⟨⟨⟩,five,set,ran⟩ := bind_ok.mp ran
  cases set
  obtain ⟨stream,six,openSix,ran⟩ := bind_ok.mp ran
  have validFive : HeapValid {four with disk := {four.disk with
      fsPrivate := some (FatPrivate.zero cluster fat directory), filesystem := some .fat16}} :=
    newFour.valid.congr rfl (fun _ live => live)
  have newSix := diskstreamNew_ok validFive openSix
  obtain ⟨res,seven,resolved,ran⟩ := bind_ok.mp ran
  obtain ⟨⟨⟩,eight,closed,ran⟩ := bind_ok.mp ran
  obtain ⟨⟨⟩,nine,released,ran⟩ := bind_ok.mp ran
  cases ran
  rw [when_false (by decide)] at released
  cases released
  have private' : six.disk.fsPrivate = some (FatPrivate.zero cluster fat directory) := by rw [newSix.disk]; rfl
  have opened : six.disk.streams stream = some ⟨0⟩ := by rw [newSix.disk]; exact withStream_at _ _ _
  obtain ⟨fprivate,sector,held,from',size,kept,clusterSame,fatSame,directorySame⟩ := resolveVolume_ok private' opened resolved
  -- the three streams of the driver are not the one that is closed
  have apart (ptr : Nat) (live : (four.objs ptr).isSome) : ptr ≠ stream := by
    intro same
    have empty : four.objs stream = none := newSix.fresh
    rw [same,empty] at live
    cases live
  have disk := diskstreamClose_disk closed
  have liveFour (ptr : Nat) (member : ptr ∈ [cluster,fat,directory]) : (four.objs ptr).isSome := by
    simp only [List.mem_cons,List.not_mem_nil,or_false] at member
    rcases member with rfl | rfl | rfl
    · exact newFour.kept _ (newThree.kept _ newTwo.live)
    · exact newFour.kept _ newThree.live
    · exact newFour.live
  have streamsFour (ptr : Nat) (member : ptr ∈ [cluster,fat,directory]) : (four.disk.streams ptr).isSome := by
    rw [newFour.disk,newThree.disk,newTwo.disk]
    exact threeStreams _ member
  have sizeSix : six.disk.sectorSize = k.disk.sectorSize := by
    rw [newSix.disk]
    show four.disk.sectorSize = _
    rw [newFour.disk]
    show three.disk.sectorSize = _
    rw [newThree.disk]
    show two.disk.sectorSize = _
    rw [newTwo.disk]
    show one.disk.sectorSize = _
    rw [diskOne]
  refine ⟨fprivate,sector,?_,?_,?_,?_,?_⟩
  · rw [disk]
    exact held
  · rw [disk]
    exact size.trans sizeSix
  · apply from'.congr
    rw [disk]
    exact size
  · rw [fatSame]
    exact newThree.nonnull
  · rw [clusterSame,fatSame,directorySame,disk]
    intro ptr member
    have different := apart ptr (liveFour ptr member)
    show (if ptr = stream then none else seven.disk.streams ptr).isSome
    rw [if_neg different]
    apply kept
    rw [newSix.disk]
    exact (withStream_same _ _ _).streams _ (streamsFour ptr member)

end NutsOS.Fat16
