import NutsOS.Fat16.Accept
import NutsOS.Fat16.Tally

-- The count of the root directory against the array that is loaded for it.
namespace NutsOS.Fat16
open Word32 Bytes HeapAlloc DiskStreams Prog Files

-- The sectors that a read from the start of a sector asks for, wherever its
-- position wraps to.
def AsksWrapped (total i : Nat) : Prop := i = 0 ∨ 512*i < total

-- Such a read never leaves the sector buffer.
inductive WrappedReading (dev : BlockDevice) (pos : Int) (total : Nat) : Except Fault (Int × List UInt8 × DiskStream) → Prop where
  | whole (arrived : ∀ i : Nat, AsksWrapped total i → (dev (sectorOf (toInt32 (pos+(512*i : Nat))))).isSome) :
      WrappedReading dev pos total (.ok (eok,bytes,moved))
  | hangs (asked : AsksWrapped total i) (silent : dev (sectorOf (toInt32 (pos+(512*i : Nat)))) = none) :
      WrappedReading dev pos total (.error .unbounded)

theorem AsksWrapped.later (asked : AsksWrapped (total-512) i) (more : 512 < total) : AsksWrapped total (i+1) := by
  unfold AsksWrapped at *
  omega

theorem AsksWrapped.split (asked : AsksWrapped total (i+1)) : AsksWrapped (total-512) i := by
  unfold AsksWrapped at *
  omega

theorem wrapped_next (pos : Int) (i : Nat) : toInt32 (toInt32 (pos+512)+(512*i : Nat)) = toInt32 (pos+(512*(i+1) : Nat)) := by
  rw [toInt32_add_left]
  congr 1
  omega

theorem diskstreamReadLoop_wraps (dev : BlockDevice) (fuel total : Nat) (pos : Int) (aligned : pos%512 = 0) (int : toInt32 pos = pos)
    (enough : total < fuel) : WrappedReading dev pos total (diskstreamReadLoop dev fuel pos total) := by
  induction fuel generalizing pos total with
  | zero => cases enough
  | succ fuel ih =>
    obtain ⟨within,inSector,progress⟩ := passCount_bounds 0 total
    have full : passCount 0 total < total → passCount 0 total = 512 := by
      unfold passCount
      omega
    have count := passCount_eq 0 total
    generalize passCount 0 total = now at *
    have offset : pos.tmod nutsosSectorSize = ((0%512 : Nat) : Int) := by
      rw [tmod_sector]
      split <;> omega
    have first : sectorOf (toInt32 (pos+(512*0 : Nat))) = toUint32 (pos.tdiv nutsosSectorSize) := by
      rw [show pos+(512*0 : Nat) = pos from Int.add_zero pos,int]
      rfl
    rw [diskstreamReadLoop]
    simp only [offset,count,diskReadBlock,Int.toNat_natCast]
    cases found : dev (toUint32 (pos.tdiv nutsosSectorSize)) with
    | none => exact .hangs (.inl rfl) (first ▸ found)
    | some sector =>
      dsimp only
      rw [if_neg (by decide),copySector_eq sector now (0%512) inSector,← Int.natCast_sub within]
      dsimp only
      have front : (dev (sectorOf (toInt32 (pos+(512*0 : Nat))))).isSome := by
        rw [first,found]
        rfl
      by_cases more : now < total
      · obtain rfl : now = 512 := full more
        have next : toInt32 (pos+512)%512 = 0 := by
          unfold toInt32
          split <;> omega
        have rest := ih (total-512) (toInt32 (pos+512)) next (toInt32_eq (toInt32_ge _) (toInt32_lt _)) (by omega)
        rw [if_pos (by omega)]
        cases ran : diskstreamReadLoop dev fuel (toInt32 (pos+512)) (total-512 : Nat) with
        | error e =>
          rw [ran] at rest
          cases rest with
          | @hangs i asked silent => exact .hangs (asked.later more) (wrapped_next pos i ▸ silent)
        | ok result =>
          obtain ⟨res,bytes,stream⟩ := result
          rw [ran] at rest
          cases rest with
          | whole arrived =>
            refine .whole (fun i asked => ?_)
            cases i with
            | zero => exact front
            | succ i => exact wrapped_next pos i ▸ arrived i asked.split
      · rw [if_neg (by omega)]
        refine .whole (fun i asked => ?_)
        obtain rfl : i = 0 := by
          unfold AsksWrapped at asked
          omega
        exact front

def rootPosition (header : FatHeaderMain) : Int := toInt32 ((rootSector header : Nat)*512)

theorem rootPosition_aligned (header : FatHeaderMain) : rootPosition header%512 = 0 := by
  unfold rootPosition toInt32
  split <;> omega

theorem rootPosition_low (header : FatHeaderMain) : -2147483648 ≤ rootPosition header := by
  unfold rootPosition toInt32
  split <;> omega

structure RootArray (k after : Kernel) (count : Nat) (directory : FatDirectory) : Prop where
  fresh : k.objs directory.item = none
  held : ∃ items, after.objs directory.item = some (.directoryItems items) ∧ items.length = count

-- What reading the root directory comes to, from what the count and the read of
-- its bytes come to.
inductive RootRead (dev : BlockDevice) (out : FatDirectory) (k : Kernel) (count : Nat) (reading : Except Fault (Int × List UInt8 × DiskStream)) :
    Except Fault Int → Prop where
  | uncounted (ran : fat16GetRootDirectory dev out k = .error e) : RootRead dev out k count reading (.error e)
  | unread (hangs : reading = .error .unbounded) (ran : fat16GetRootDirectory dev out k = .error .unbounded) :
      RootRead dev out k count reading (.ok n)
  | listed (whole : reading = .ok (eok,bytes,moved)) (ran : fat16GetRootDirectory dev out k = .ok ((0,directory),after))
      (total : directory.total = n) (array : count ≠ 0 → RootArray k after count directory) : RootRead dev out k count reading (.ok n)

theorem rootDirectory_counts (dev : BlockDevice) {k : Kernel} (valid : HeapValid k) (known : k.disk.fsPrivate = some fprivate)
    (sized : k.disk.sectorSize = 512) (live : (k.disk.streams fprivate.directoryStream).isSome)
    (small : fprivate.primaryHeader.rootDirEntries < 65536)
    (room : Room k.heap (blocksFor (fprivate.primaryHeader.rootDirEntries*32)+1))
    (counts : Counts (fat16GetTotalItemsForDirectory dev (rootSector fprivate.primaryHeader)) k.disk result)
    (out : FatDirectory) : RootRead dev out k fprivate.primaryHeader.rootDirEntries
      (diskstreamRead dev ⟨rootPosition fprivate.primaryHeader⟩ (fprivate.primaryHeader.rootDirEntries*32 : Nat)) result := by
  have nonzero : ¬ k.disk.sectorSize = 0 := by rw [sized]; decide
  have position : fat16SectorToAbsAddress k.disk (rootSector fprivate.primaryHeader : Nat) = rootPosition fprivate.primaryHeader := by
    unfold fat16SectorToAbsAddress rootPosition
    rw [sized]
  have reading := diskstreamReadLoop_wraps dev _ (fprivate.primaryHeader.rootDirEntries*32) _ (rootPosition_aligned fprivate.primaryHeader)
    (toInt32_eq (toInt32_ge _) (toInt32_lt _)) (Nat.lt_succ_self _)
  generalize rootPosition fprivate.primaryHeader = start at *
  unfold rootSector at counts position
  generalize sector : fprivate.primaryHeader.fatCopies*fprivate.primaryHeader.sectorsPerFat+fprivate.primaryHeader.reservedSectors = first at *
  generalize entries : fprivate.primaryHeader.rootDirEntries = count at *
  cases result with
  | error e =>
    refine .uncounted ?_
    unfold fat16GetRootDirectory
    rw [bind_run (onDisk_run (loadPrivate_known known)),get_bind]
    dsimp only
    rw [if_neg nonzero,sector]
    exact bind_fault (onDisk_fault counts)
  | ok n =>
    obtain ⟨one,counted,same⟩ := counts
    let k' : Kernel := {k with disk := one}
    have valid' : HeapValid k' := valid.congr rfl (fun _ live => live)
    obtain ⟨dir,two,allocated,nonnull,fresh⟩ := kzalloc_some (count*32) valid'
      (.directoryItems (List.replicate count zeroDirectoryItem)) (by omega) room
    have diskTwo := kzalloc_disk allocated
    have liveTwo : (two.disk.streams fprivate.directoryStream).isSome := by
      rw [diskTwo]
      exact same.streams _ live
    let sought : Kernel := {two with disk := two.disk.withStream fprivate.directoryStream ⟨start⟩}
    have seek : onDisk (seekStream fprivate.directoryStream start) two = .ok (0,sought) := onDisk_run (seekStream_run liveTwo start)
    have ran : ∃ ending, fat16GetRootDirectory dev out k = (do
        let result ← onDisk (readStream dev fprivate.directoryStream (count*32 : Nat))
        if result.1 ≠ 0 then pure (-eio,out) else
        Prog.when (count*32 ≠ 0) do
          let old ← loadAs asDirectoryItems dir
          store dir (.directoryItems (directoryItems old.length result.2))
        pure (0,⟨dir,n,first,ending⟩) : KernelProg (Int × FatDirectory)) sought := by
      unfold fat16GetRootDirectory
      rw [bind_run (onDisk_run (loadPrivate_known known)),get_bind]
      dsimp only
      rw [if_neg nonzero,sector,entries,bind_run (onDisk_run counted),bind_run allocated,if_neg nonnull,position,bind_run seek,
        if_neg (by decide)]
      exact ⟨_,rfl⟩
    obtain ⟨ending,ran⟩ := ran
    have stands := withStream_at two.disk fprivate.directoryStream ⟨start⟩
    cases read : diskstreamRead dev ⟨start⟩ (count*32 : Nat) with
    | error e =>
      have stops : onDisk (readStream dev fprivate.directoryStream (count*32 : Nat)) sought = .error e := by
        refine onDisk_fault (k := sought) ?_
        unfold readStream
        rw [bind_run (loadStream_run stands),read]
        rfl
      unfold diskstreamRead at read
      rw [Int.toNat_natCast] at read
      rw [read] at reading
      cases reading
      exact .unread rfl (ran.trans (bind_fault stops))
    | ok result =>
      obtain ⟨res,bytes,moved⟩ := result
      let arrived : Kernel := {sought with disk := sought.disk.withStream fprivate.directoryStream moved}
      have readTwo : onDisk (readStream dev fprivate.directoryStream (count*32 : Nat)) sought = .ok ((res,bytes),arrived) := by
        refine onDisk_run (k := sought) ?_
        unfold readStream
        rw [bind_run (loadStream_run stands),read]
        rfl
      obtain rfl : res = eok := by
        unfold diskstreamRead at read
        rw [Int.toNat_natCast] at read
        rw [read] at reading
        cases reading
        rfl
      obtain ⟨after,filled,array⟩ : ∃ after, (Prog.when (count*32 ≠ 0) do
          let old ← loadAs asDirectoryItems dir
          store dir (.directoryItems (directoryItems old.length bytes))) arrived = .ok ((),after) ∧
            (count ≠ 0 → RootArray k after count ⟨dir,n,first,ending⟩) := by
        by_cases none : count = 0
        · rw [when_false (by omega)]
          exact ⟨arrived,rfl,fun some => absurd none some⟩
        · obtain ⟨empty,held⟩ := fresh (by omega)
          have heldArrived : arrived.objs dir = some (.directoryItems (List.replicate count zeroDirectoryItem)) := held
          refine ⟨arrived.place dir (.directoryItems (directoryItems count bytes)),?_,fun _ => ⟨empty,_,Kernel.place_same _ _ _,
            directoryItems_length count bytes⟩⟩
          rw [when_true (by omega),bind_run (loadAs_run asDirectoryItems heldArrived rfl),List.length_replicate]
          rfl
      rw [bind_run readTwo] at ran
      dsimp only at ran
      rw [if_neg (by decide),bind_run filled] at ran
      exact .listed rfl ran rfl array

def SearchInside (dev : BlockDevice) (directory : FatDirectory) (name : List UInt8) (k : Kernel) : Prop :=
  fat16FindItemInDirectory dev directory name k = .ok (0,k) ∨
    ∃ items entry, ∃ i : Nat, k.objs directory.item = some (.directoryItems items) ∧ items[i]? = some entry ∧
      fat16FindItemInDirectory dev directory name k = fat16NewFatItemForDirectoryItem dev entry k

theorem findItem_inside (dev : BlockDevice) {k : Kernel} (held : k.objs directory.item = some (.directoryItems items)) (name : List UInt8)
    (count i : Nat) (fits : i+count ≤ items.length) : findItem dev directory name count i k = .ok (0,k) ∨
      ∃ entry, ∃ j : Nat, items[j]? = some entry ∧ findItem dev directory name count i k = fat16NewFatItemForDirectoryItem dev entry k := by
  induction count generalizing i with
  | zero => exact .inl rfl
  | succ count ih =>
    have entry : items[i]? = some items[i] := List.getElem?_eq_getElem (by omega)
    have step : findItem dev directory name (count+1) i k =
        if entryMatches items[i] name then fat16NewFatItemForDirectoryItem dev items[i] k else findItem dev directory name count (i+1) k := by
      rw [findItem,bind_run (loadAs_run asDirectoryItems held rfl),entry]
      dsimp only
      split <;> rfl
    rw [step]
    split
    · exact .inr ⟨items[i],i,entry,rfl⟩
    · exact ih (i+1) (by omega)

theorem searchInside_of {directory : FatDirectory} {count : Nat} (within : directory.total ≤ count)
    (array : count ≠ 0 → ∃ items, k.objs directory.item = some (.directoryItems items) ∧ items.length = count) (dev : BlockDevice) (name : List UInt8) : SearchInside dev directory name k := by
  by_cases none : count = 0
  · have empty : directory.total.toNat = 0 := by omega
    refine Or.inl ?_
    unfold fat16FindItemInDirectory
    rw [empty]
    rfl
  · obtain ⟨items,held,length⟩ := array none
    rcases findItem_inside dev held name directory.total.toNat 0 (by omega) with missed | ⟨entry,j,inside,found⟩
    · exact Or.inl missed
    · exact Or.inr ⟨items,entry,j,held,inside,found⟩

structure RootInside (fprivate : FatPrivate) (k : Kernel) : Prop where
  total : fprivate.rootDirectory.total ≤ fprivate.primaryHeader.rootDirEntries
  searches : ∀ dev name, SearchInside dev fprivate.rootDirectory name k

-- The mount ends, and where it succeeds it leaves such a root directory.
def MountInside (dev : BlockDevice) (k : Kernel) : Prop := ∃ res after, fat16Resolve dev k = .ok (res,after) ∧
  (res = 0 → ∃ fprivate, after.disk.fsPrivate = some fprivate ∧ RootInside fprivate after)

def RootArrives (dev : BlockDevice) (header : FatHeaderMain) : Prop :=
  ∀ i : Nat, 512*i < header.rootDirEntries*32 → (dev (sectorOf (toInt32 (rootPosition header+(512*i : Nat))))).isSome

-- From the start of the root directory on, the entries are fetched up to a
-- terminator that stands behind no more live ones than there is room for.
def RootScanned (dev : BlockDevice) (header : FatHeaderMain) : Prop := ∃ t, Passed dev (rootPosition header) t ∧
  Fetched dev (tablePos (rootPosition header) t) ∧ tableByte dev (rootPosition header) (32*t) = nutsosFat16NomoreEntry ∧
    liveCount (tableByte dev (rootPosition header)) 0 t ≤ header.rootDirEntries

def RootEnds (dev : BlockDevice) : Prop := ∃ sector, dev 0 = some sector ∧ (sector 38 = nutosFat16Signature →
  RootScanned dev (fatHeaderMain (slice sector 0 62)) ∧ RootArrives dev (fatHeaderMain (slice sector 0 62)))

theorem rootScanned_iff (passed : Passed dev (rootPosition header) t) (halt : Halt dev (rootPosition header) t result) :
    RootScanned dev header ↔ ∃ n, result = .ok n ∧ n ≤ header.rootDirEntries := by
  constructor
  · rintro ⟨u,behind,fetched,last,few⟩
    have other := Halt.ended fetched last
    obtain rfl : u = t := Nat.le_antisymm (halt.passed_le behind) (other.passed_le passed)
    exact ⟨_,halt.result_unique other,by omega⟩
  · rintro ⟨n,rfl,few⟩
    cases halt with
    | ended fetched last => exact ⟨t,passed,fetched,last,by omega⟩

theorem Passed.first (passed : Passed dev start t) (halt : Halt dev start t (.ok n)) :
    (dev (sectorOf (toInt32 (start+(512*0 : Nat))))).isSome := by
  cases t with
  | zero =>
    cases halt with
    | ended fetched => exact fetched.arrives
  | succ t => exact (passed.fetched 0 (Nat.succ_pos t)).arrives

theorem rootArrives_iff (first : (dev (sectorOf (toInt32 (rootPosition header+(512*0 : Nat))))).isSome) : RootArrives dev header ↔
    ∃ result, diskstreamRead dev ⟨rootPosition header⟩ (header.rootDirEntries*32 : Nat) = .ok result := by
  have reading := diskstreamReadLoop_wraps dev _ (header.rootDirEntries*32) _ (rootPosition_aligned header)
    (toInt32_eq (toInt32_ge _) (toInt32_lt _)) (Nat.lt_succ_self _)
  unfold diskstreamRead
  rw [Int.toNat_natCast]
  generalize diskstreamReadLoop dev _ _ _ = read at reading
  cases reading with
  | whole arrived => exact ⟨fun _ => ⟨_,rfl⟩,fun _ i asked => arrived i (.inr asked)⟩
  | @hangs i asked silent =>
    constructor
    · intro arrives
      rcases asked with rfl | asked
      · rw [silent] at first
        cases first
      · have present := arrives i asked
        rw [silent] at present
        cases present
    · rintro ⟨_,equal⟩
      cases equal

theorem fatHeader_entries (sector : Nat → UInt8) : (fatHeaderMain (slice sector 0 62)).rootDirEntries < 65536 := by
  rw [fatHeaderMain_slice]
  exact (bootSector_fields sector).rootDirEntries

theorem blocksFor_root (small : count < 65536) : blocksFor (count*32) ≤ 512 := by
  unfold blocksFor heapAlignValueToUpper nutsosHeapBlockSize toUint32
  split <;> omega

theorem signed_mount_iff (opening : Opening dev k 513 cluster fat directory stream opened)
    (fill : Filled opened (FatPrivate.zero cluster fat directory) sector filled)
    (fails : ∀ e, fat16GetRootDirectory dev (FatPrivate.zero cluster fat directory).rootDirectory filled = .error e →
      resolveVolume dev stream opened = .error e)
    (accepted : ∀ directory' after, fat16GetRootDirectory dev (FatPrivate.zero cluster fat directory).rootDirectory filled =
      .ok ((0,directory'),after) → resolveVolume dev stream opened = .ok (0,{after with disk := {after.disk with
        fsPrivate := some {filledPrivate (FatPrivate.zero cluster fat directory) sector with rootDirectory := directory'}}})) :
    MountInside dev k ↔ RootScanned dev (fatHeaderMain (slice sector 0 62)) ∧ RootArrives dev (fatHeaderMain (slice sector 0 62)) := by
  have small := fatHeader_entries sector
  have known := fill.fsPrivate
  have live : (filled.disk.streams directory).isSome := fill.streams _ (opening.streams directory (by simp))
  obtain ⟨t,result,bound,passed,halt⟩ := scan_stops dev (rootPosition_aligned (fatHeaderMain (slice sector 0 62)))
    (rootPosition_low _) (toInt32_lt _)
  have position : toInt32 ((rootSector (fatHeaderMain (slice sector 0 62)) : Nat)*filled.disk.sectorSize) =
      rootPosition (fatHeaderMain (slice sector 0 62)) := by
    rw [fill.sectorSize]
    rfl
  have counts := totalItems_stops dev known live position (rootPosition_aligned _) passed halt bound
  have roomy : Room filled.heap (blocksFor ((fatHeaderMain (slice sector 0 62)).rootDirEntries*32)+1) := by
    rw [fill.heap]
    exact opening.room.less (by have blocks := blocksFor_root small; omega)
  have listing := rootDirectory_counts dev (fill.valid opening.valid) known fill.sectorSize live small roomy counts
    (FatPrivate.zero cluster fat directory).rootDirectory
  rw [rootScanned_iff passed halt]
  cases listing with
  | @uncounted e failed =>
    have stopped := opening.fails e (fails e failed)
    constructor
    · rintro ⟨_,_,ran,_⟩
      rw [stopped] at ran
      cases ran
    · rintro ⟨⟨n,equal,_⟩,_⟩
      cases equal
  | @unread n hangs failed =>
    have stopped := opening.fails _ (fails _ failed)
    constructor
    · rintro ⟨_,_,ran,_⟩
      rw [stopped] at ran
      cases ran
    · rintro ⟨_,arrives⟩
      obtain ⟨_,whole⟩ := (rootArrives_iff (passed.first halt)).mp arrives
      cases hangs.symm.trans whole
  | @listed _ _ root after n whole ran total array =>
    obtain ⟨mounted,ran,keeps⟩ := opening.ends _ _ (accepted root after ran)
    obtain ⟨private',objs⟩ := keeps (by decide)
    constructor
    · rintro ⟨res,other,again,inside⟩
      rw [ran] at again
      cases again
      obtain ⟨fprivate,found,bounded⟩ := inside rfl
      rw [private'] at found
      cases found
      exact ⟨⟨n,rfl,total ▸ bounded.total⟩,(rootArrives_iff (passed.first halt)).mpr ⟨_,whole⟩⟩
    · rintro ⟨⟨_,equal,few⟩,_⟩
      cases equal
      refine ⟨0,mounted,ran,fun _ => ⟨_,private',?_,fun later name => ?_⟩⟩
      · show root.total ≤ _
        rw [total]
        exact few
      · have within : root.total ≤ (fatHeaderMain (slice sector 0 62)).rootDirEntries := total ▸ few
        refine searchInside_of within (fun some => ?_) later name
        obtain ⟨fresh,items,held,length⟩ := array some
        have other : root.item ≠ stream := by
          intro same
          have live := opening.held
          rw [fill.objs,same] at fresh
          rw [fresh] at live
          cases live
        exact ⟨items,(objs _ other).trans held,length⟩

theorem mount_inside_iff {k : Kernel} (valid : HeapValid k) (sized : k.disk.sectorSize = nutsosSectorSize) (room : Room k.heap 518)
    (dev : BlockDevice) : MountInside dev k ↔ RootEnds dev := by
  obtain ⟨cluster,fat,directory,stream,opened,opening⟩ := fat16Resolve_opens 513 valid room dev
  cases resolveVolume_resolving dev opening.fsPrivate (opening.sectorSize.trans sized) opening.stands with
  | unread silent hangs =>
    have stopped := opening.fails _ hangs
    constructor
    · rintro ⟨_,_,ran,_⟩
      rw [stopped] at ran
      cases ran
    · rintro ⟨_,boot,_⟩
      rw [silent] at boot
      cases boot
  | @unsigned sector _ boot other resolved =>
    obtain ⟨after,ran,_⟩ := opening.ends _ _ resolved
    exact ⟨fun _ => ⟨sector,boot,fun signed => absurd signed other⟩,fun _ => ⟨_,after,ran,fun fine => absurd fine (by decide)⟩⟩
  | @signed sector filled boot signed fill fails _ accepted =>
    rw [signed_mount_iff opening fill fails accepted]
    constructor
    · exact fun read => ⟨sector,boot,fun _ => read⟩
    · rintro ⟨other,found,read⟩
      rw [boot] at found
      cases found
      exact read signed

-- A volume with room for 64 entries in its root directory, and n of 32 letters
-- from its first byte on.
def listedImage (n pos : Nat) : UInt8 := if 364544 ≤ pos ∧ pos < 364544+32*n then 0x41 else descriptorImage 1 0 0 1 pos

theorem listed_header (n : Nat) : fatHeaderMain (slice (listedImage n) 0 62) = ⟨1,200,2,64,256⟩ := by
  have same : slice (listedImage n) 0 62 = slice (descriptorImage 1 0 0 1) 0 62 := by
    apply slice_congr
    intro i small
    exact if_neg (by omega)
  rw [same,fatHeaderMain_slice,descriptor_sector]
  rfl

theorem listed_entry (less : i < n) (small : i < 1000) : tableByte (imageDevice (listedImage n)) ((364544 : Nat) : Int) (32*i) = 0x41 := by
  rw [tableByte_image _ (by omega)]
  exact if_pos ⟨by omega,by omega⟩

theorem listed_passed (small : n < 1000) : Passed (imageDevice (listedImage n)) ((364544 : Nat) : Int) n :=
  ⟨fun i less => fetched_image (listedImage n) (by omega),fun i less => by rw [listed_entry less (by omega)]; decide⟩

theorem full_root_inside : MountInside (imageDevice (listedImage 64)) (bootKernel bootEntries noDisk) := by
  refine (mount_inside_iff (boot_valid bootEntries noDisk rfl) rfl ((boot_room bootEntries noDisk).less (by decide)) _).mpr ?_
  refine ⟨listedImage 64,imageDevice_first _,fun _ => ?_⟩
  rw [listed_header]
  have last : tableByte (imageDevice (listedImage 64)) ((364544 : Nat) : Int) (32*64) = nutsosFat16NomoreEntry :=
    tableByte_image (listedImage 64) (by decide)
  have position : rootPosition ⟨1,200,2,64,256⟩ = ((364544 : Nat) : Int) := by decide
  refine ⟨⟨64,?_⟩,fun i _ => rfl⟩
  rw [position]
  exact ⟨listed_passed (by decide),fetched_image _ (by decide : 364544+32*64 < 2147483648),last,liveCount_le _ 0 64⟩

theorem full_root_overrun : ¬ MountInside (imageDevice (listedImage 65)) (bootKernel bootEntries noDisk) := by
  rw [mount_inside_iff (boot_valid bootEntries noDisk rfl) rfl ((boot_room bootEntries noDisk).less (by decide))]
  rintro ⟨sector,boot,read⟩
  rw [imageDevice_first] at boot
  cases boot
  obtain ⟨scanned,_⟩ := read rfl
  rw [listed_header] at scanned
  have passed : Passed (imageDevice (listedImage 65)) ((364544 : Nat) : Int) 65 := listed_passed (by decide)
  have last : tableByte (imageDevice (listedImage 65)) ((364544 : Nat) : Int) (32*65) = nutsosFat16NomoreEntry :=
    tableByte_image (listedImage 65) (by decide)
  have live : liveCount (tableByte (imageDevice (listedImage 65)) ((364544 : Nat) : Int)) 0 65 = 65 :=
    liveCount_all (fun j _ high deleted => by
      have letter := listed_entry (i := j) (n := 65) (by omega) (by omega)
      rw [show tableByte (imageDevice (listedImage 65)) ((364544 : Nat) : Int) (32*j) = _ from deleted] at letter
      exact absurd letter (by decide))
  have halt := Halt.ended (fetched_image (listedImage 65) (by decide : 364544+32*65 < 2147483648)) last
  have position : rootPosition ⟨1,200,2,64,256⟩ = ((364544 : Nat) : Int) := by decide
  rw [live,← position] at halt
  rw [← position] at passed
  obtain ⟨n,equal,few⟩ := (rootScanned_iff passed halt).mp scanned
  cases equal
  exact absurd few (by decide)

end NutsOS.Fat16
