import NutsOS.Fat16.Chain
import NutsOS.File.Interference

-- Reading a range of a file by two calls of fread and by one.
namespace NutsOS.Files
open Word32 Bytes HeapAlloc Fat16 DiskStreams Prog

-- What the loop of fat16_read delivers, from the outcome of each item on.
def deliver (item : Nat → Int × List UInt8) : Nat → Nat → Nat × List UInt8
  | 0,_ => (0,[])
  | n+1,j =>
    if (item j).1 < 0 then (0,(item j).2) else
    ((deliver item n (j+1)).1+1,(item j).2++(deliver item n (j+1)).2)

theorem deliver_all (read : ∀ i, j ≤ i → i < j+n → ¬ (item i).1 < 0) :
    deliver item n j = (n,(List.range' j n).flatMap (fun i => (item i).2)) := by
  induction n generalizing j with
  | zero => rfl
  | succ n ih =>
    rw [deliver,if_neg (read j (Nat.le_refl j) (by omega)),ih (fun i low high => read i (by omega) (by omega)),
      List.range'_succ,List.flatMap_cons]

theorem deliver_stops (low : j ≤ i) (high : i < j+n) (failed : (item i).1 < 0) (more : Nat) :
    deliver item (n+more) j = deliver item n j := by
  induction n generalizing j with
  | zero => exact absurd high (by omega)
  | succ n ih =>
    rw [Nat.add_right_comm,deliver,deliver]
    by_cases here : (item j).1 < 0
    · rw [if_pos here,if_pos here]
    · have later : j ≠ i := by
        intro same
        rw [same] at here
        exact here failed
      rw [if_neg here,if_neg here,ih (by omega) (by omega)]

def Sized (s : Nat) (item : Int × List UInt8) : Prop :=
  (¬ item.1 < 0 → item.2.length = s) ∧ (item.1 < 0 → 0 < item.2.length ∧ item.2.length < s)

theorem deliver_short (sized : ∀ i, j ≤ i → i < j+n → Sized s (item i)) (low : j ≤ i) (high : i < j+n)
    (failed : (item i).1 < 0) : 0 < (deliver item n j).2.length ∧ (deliver item n j).2.length < n*s := by
  induction n generalizing j with
  | zero => exact absurd high (by omega)
  | succ n ih =>
    obtain ⟨whole,part⟩ := sized j (Nat.le_refl j) (by omega)
    rw [deliver,Nat.succ_mul]
    by_cases here : (item j).1 < 0
    · rw [if_pos here]
      obtain ⟨some,short⟩ := part here
      exact ⟨some,Nat.lt_of_lt_of_le short (Nat.le_add_left _ _)⟩
    · have later : j ≠ i := by
        intro same
        rw [same] at here
        exact here failed
      obtain ⟨some,short⟩ := ih (fun i low high => sized i (by omega) (by omega)) (by omega) (by omega : i < j+1+n)
      rw [if_neg here,List.length_append,whole here]
      omega

theorem flatMap_eq_iff {f : Nat → List UInt8} (n a b : Nat) (sized : ∀ j, j < n → (f (a+j)).length = s ∧ (f (b+j)).length = s) :
    (List.range' a n).flatMap f = (List.range' b n).flatMap f ↔ ∀ j, j < n → f (a+j) = f (b+j) := by
  induction n generalizing a b with
  | zero => simp
  | succ n ih =>
    have first := sized 0 (Nat.succ_pos n)
    have rest := ih (a+1) (b+1) (fun j small => by
      have next := sized (j+1) (by omega)
      rwa [← Nat.add_assoc,← Nat.add_assoc,Nat.add_right_comm a,Nat.add_right_comm b] at next)
    rw [List.range'_succ,List.range'_succ,List.flatMap_cons,List.flatMap_cons]
    constructor
    · intro equal
      obtain ⟨head,tail⟩ := List.append_inj equal (first.1.trans first.2.symm)
      intro j small
      cases j with
      | zero => exact head
      | succ j =>
        rw [← Nat.add_assoc,← Nat.add_assoc,Nat.add_right_comm a,Nat.add_right_comm b]
        exact rest.mp tail j (by omega)
    · intro each
      have tail := rest.mpr (fun j small => by
        have next := each (j+1) (by omega)
        rwa [← Nat.add_assoc,← Nat.add_assoc,Nat.add_right_comm a,Nat.add_right_comm b] at next)
      rw [tail,show f a = f b from each 0 (Nat.succ_pos n)]

theorem flatMap_length {f : Nat → List UInt8} (n a : Nat) (sized : ∀ i, a ≤ i → i < a+n → (f i).length = s) :
    ((List.range' a n).flatMap f).length = n*s := by
  induction n generalizing a with
  | zero => simp
  | succ n ih =>
    rw [List.range'_succ,List.flatMap_cons,List.length_append,sized a (Nat.le_refl a) (by omega),
      ih (a+1) (fun i low high => sized i (by omega) (by omega)),Nat.succ_mul,Nat.add_comm]

theorem deliver_twice (some : 1 ≤ s) (first : 1 ≤ k1) (second : 1 ≤ k2) (sized : ∀ i, i < k1+k2 → Sized s (item i)) :
    (deliver item k1 0).2++(deliver item k2 0).2 = (deliver item (k1+k2) 0).2 ↔
      (∀ i, i < k1+k2 → ¬ (item i).1 < 0) ∧ ∀ j, j < k2 → (item (k1+j)).2 = (item j).2 := by
  have lengths (n : Nat) (most : n ≤ k1+k2) (read : ∀ i, i < n → ¬ (item i).1 < 0) :
      (deliver item n 0).2.length = n*s := by
    rw [deliver_all (fun i _ high => read i (by omega))]
    exact flatMap_length n 0 (fun i _ high => (sized i (by omega)).1 (read i (by omega)))
  have short (n : Nat) (most : n ≤ k1+k2) (i : Nat) (high : i < n) (failed : (item i).1 < 0) :
      0 < (deliver item n 0).2.length ∧ (deliver item n 0).2.length < n*s :=
    deliver_short (fun i _ high => sized i (by omega)) (Nat.zero_le i) (by omega) failed
  -- some bytes are delivered whether or not an item fails
  have someBytes : 0 < (deliver item k2 0).2.length := by
    by_cases read : ∀ i, i < k2 → ¬ (item i).1 < 0
    · rw [lengths k2 (by omega) read]
      exact Nat.mul_pos second some
    · simp only [not_forall,not_not] at read
      obtain ⟨i,high,failed⟩ := read
      exact (short k2 (by omega) i high failed).1
  by_cases read : ∀ i, i < k1+k2 → ¬ (item i).1 < 0
  · rw [deliver_all (fun i _ high => read i (by omega)),deliver_all (fun i _ high => read i (by omega)),
      deliver_all (fun i _ high => read i (by omega)),← List.range'_append_1,List.flatMap_append,List.append_cancel_left_eq,
      Nat.zero_add,eq_comm,flatMap_eq_iff (s := s) k2 k1 0 ?_]
    · simp only [Nat.zero_add]
      exact ⟨fun each => ⟨read,each⟩,And.right⟩
    · intro j small
      exact ⟨(sized (k1+j) (by omega)).1 (read _ (by omega)),(sized (0+j) (by omega)).1 (read _ (by omega))⟩
  · refine ⟨fun equal => ?_,fun fits => absurd fits.1 read⟩
    have all := read
    simp only [not_forall,not_not] at all
    obtain ⟨i,high,failed⟩ := all
    have total := congrArg List.length equal
    rw [List.length_append] at total
    have less := (short (k1+k2) (Nat.le_refl _) i high failed).2
    rw [Nat.add_mul] at less
    exfalso
    by_cases inFirst : ∃ i, i < k1 ∧ (item i).1 < 0
    · obtain ⟨i,high,failed⟩ := inFirst
      rw [deliver_stops (Nat.zero_le i) (by omega) failed k2] at total
      omega
    · simp only [not_exists,not_and] at inFirst
      have whole := lengths k1 (by omega) inFirst
      have positive : 0 < k1*s := Nat.mul_pos first some
      by_cases inSecond : ∃ i, i < k2 ∧ (item i).1 < 0
      · obtain ⟨i,high,failed⟩ := inSecond
        rw [Nat.add_comm k1 k2,deliver_stops (Nat.zero_le i) (by omega) failed k1] at total
        omega
      · simp only [not_exists,not_and] at inSecond
        have rest := lengths k2 (by omega) inSecond
        omega

theorem itemsLoop_deliver (pos : Nat) {R : Kernel → Prop} {readItem : Int → KernelProg (Int × List UInt8)} {k : Kernel}
    (reads : ∀ i l, j ≤ i → i < j+n → R l → ∃ after, readItem ((pos+i*s : Nat) : Int) l = .ok (item i,after) ∧ R after)
    (within : pos+(j+n)*s ≤ filesize) (bounded : filesize ≤ 2147483648) (some : 1 ≤ s)
    (here : 0 < n → offset = ((pos+j*s : Nat) : Int)) (holds : R k) :
    ∃ after, itemsLoop readItem filesize s n offset k = .ok (deliver item n j,after) ∧ R after := by
  induction n generalizing j offset k with
  | zero => exact ⟨k,rfl,holds⟩
  | succ n ih =>
    rw [here (Nat.succ_pos n)]
    have split : (j+(n+1))*s = j*s+s+n*s := by rw [Nat.add_mul,Nat.succ_mul]; omega
    have next : (j+1)*s = j*s+s := Nat.succ_mul j s
    have left : toUint32 ((filesize : Int)-((pos+j*s : Nat) : Int)) = filesize-(pos+j*s) := by
      rw [← Int.natCast_sub (by omega),toUint32_natCast (by omega)]
    obtain ⟨one,read,holdsOne⟩ := reads j k (Nat.le_refl j) (by omega) holds
    rw [itemsLoop,left,if_neg (by omega),bind_run read,deliver]
    by_cases failed : (item j).1 < 0
    · rw [if_pos failed]
      dsimp only
      rw [if_pos failed]
      exact ⟨one,rfl,holdsOne⟩
    · have later : 0 < n → toInt32 (((pos+j*s : Nat) : Int)+(s : Nat)) = ((pos+(j+1)*s : Nat) : Int) := by
        intro more
        have positive : 0 < n*s := Nat.mul_pos more some
        rw [← Int.natCast_add,toInt32_natCast (by omega),next,Nat.add_assoc]
      obtain ⟨after,rest,holdsAfter⟩ := ih (fun i l low high => reads i l (by omega) (by omega))
        (by rw [show j+1+n = j+(n+1) by omega]; exact within) later holdsOne
      rw [if_neg failed]
      dsimp only
      rw [if_neg failed,bind_run rest]
      exact ⟨after,rfl,holdsAfter⟩

-- A file of a well-formed volume: its clusters hold all of its bytes.
structure FileOn (image : Nat → UInt8) (disk : Disk) (fprivate : FatPrivate) (entry : FatDirectoryItem)
    (chain : List Nat) : Prop where
  mounted : Mounted disk fprivate
  first : ∃ rest, chain = entry.low16BitsFirstCluster::rest
  file : FileChain image fprivate chain
  fits : Addressable disk fprivate chain
  size : entry.filesize ≤ chain.length*clusterSize fprivate

theorem FileOn.kept (volume : FileOn image before fprivate entry chain) (same : SameVolume before after) :
    FileOn image after fprivate entry chain :=
  ⟨volume.mounted.after same,volume.first,volume.file,⟨volume.fits.table,by rw [clusterAddress_same same]; exact volume.fits.data⟩,
    volume.size⟩

-- Every byte of the range lands on the chain, and the bytes it lands on.
def Landed (fprivate : FatPrivate) (chain : List Nat) (offset total : Nat) : Prop :=
  ∀ pos, offset ≤ pos → pos < offset+total → landedIndex fprivate 0 (offset/clusterSize fprivate) pos < chain.length

def landedBytes (image : Nat → UInt8) (disk : Disk) (fprivate : FatPrivate) (chain : List Nat) (offset total : Nat) : List UInt8 :=
  slice (landedByte image disk fprivate chain 0 (offset/clusterSize fprivate)) offset total

def SplitReads (dev : BlockDevice) (fd : Int) (s k1 k2 : Nat) (k : Kernel) : Prop :=
  ∃ n1 b1 middle n2 b2 after n b whole, fread dev s k1 fd k = .ok ((n1,b1),middle) ∧
    fread dev s k2 fd middle = .ok ((n2,b2),after) ∧ fread dev s (k1+k2) fd k = .ok ((n,b),whole) ∧ b1++b2 = b

theorem Mounted.alike {disk : Disk} (mounted : Mounted disk fprivate) (same : SameVolume disk after) :
    Alike fprivate disk after := by
  have live : ∀ ptr ∈ [fprivate.clusterReadStream,fprivate.fatReadStream], (disk.streams ptr).isSome := by
    intro ptr member
    apply mounted.streams ptr
    simp only [List.mem_cons,List.not_mem_nil,or_false] at member ⊢
    exact member.elim .inl (fun fat => .inr (.inl fat))
  exact ⟨mounted.private_eq,same.fsPrivate.trans mounted.private_eq,same.sectorSize.symm,live,
    fun ptr member => same.streams ptr (live ptr member)⟩

-- What reading one item comes to, from whatever state of the streams it is read.
structure ItemAt (image : Nat → UInt8) (k : Kernel) (fprivate : FatPrivate) (entry : FatDirectoryItem) (chain : List Nat)
    (offset s : Nat) (item : Int × List UInt8) : Prop where
  sized : Sized s item
  read : ¬ item.1 < 0 ↔ Landed fprivate chain offset s
  bytes : Landed fprivate chain offset s → item.2 = landedBytes image k.disk fprivate chain offset s
  again : ∀ l, OnlyDisk k l → ∃ after, onDisk (fat16ReadInternal (imageDevice image) entry.low16BitsFirstCluster
    (offset : Nat) (s : Nat)) l = .ok (item,after) ∧ OnlyDisk k after

theorem item_read (offset : Nat) {k : Kernel} (volume : FileOn image k.disk fprivate entry chain) (some : 1 ≤ s)
    (within : offset+s ≤ entry.filesize) : ∃ item, ItemAt image k fprivate entry chain offset s item := by
  obtain ⟨mounted,⟨rest,rfl⟩,file,fits,size⟩ := volume
  have positive : 0 < clusterSize fprivate := by
    apply Nat.pos_of_ne_zero
    intro zero
    rw [zero] at size
    omega
  have bounded := chain_length mounted file fits.data
  obtain ⟨_,res,bytes,read,_,outcome,stopped⟩ := fat16ReadInternal_lands offset s image mounted file fits
    some positive (by omega)
  have began : 0+offset/clusterSize fprivate < (entry.low16BitsFirstCluster::rest).length := by
    rw [Nat.zero_add]
    exact (Nat.div_lt_iff_lt_mul positive).mpr (by omega)
  refine ⟨(res,bytes),?_,?_,?_,?_⟩
  · rcases outcome with ⟨_,rfl,rfl⟩ | ⟨_,rfl⟩
    · exact ⟨fun _ => slice_length,fun negative => absurd negative (show ¬ eok < 0 by decide)⟩
    · obtain ⟨short,someBytes⟩ := stopped (by decide)
      exact ⟨fun fine => absurd (show -eio < 0 by decide) fine,fun _ => ⟨someBytes began,short⟩⟩
  · rcases outcome with ⟨all,rfl,rfl⟩ | ⟨⟨pos,low,high,outside⟩,rfl⟩
    · exact ⟨fun _ => all,fun _ => (show ¬ eok < 0 by decide)⟩
    · exact ⟨fun fine => absurd (show -eio < 0 by decide) fine,fun all => absurd (all pos low high) outside⟩
  · intro all
    rcases outcome with ⟨_,_,rfl⟩ | ⟨⟨pos,low,high,outside⟩,_⟩
    · rfl
    · exact absurd (all pos low high) outside
  · intro l only
    have alike := Mounted.alike mounted only.volume
    obtain ⟨disk,again,_⟩ := (readInternal_agree (imageDevice image) _ _ _ k.disk l.disk alike).returned read
    have ran := onDisk_run again
    exact ⟨_,ran,only.trans (onDisk_only (readInternal_reads _ _ _ _) _ _ _ ran)⟩

theorem fread_delivers {k : Kernel} (held : HandleAt k fd h pos) (volume : FileOn image k.disk fprivate h.entry chain)
    (some : 1 ≤ s) (count : 1 ≤ n) (within : pos+n*s ≤ h.entry.filesize) (small : s < 2147483648)
    (items : ∀ i, i < n → ItemAt image k fprivate h.entry chain (pos+i*s) s (item i)) (only : OnlyDisk k l) :
    ∃ after, fread (imageDevice image) s n fd l = .ok (deliver item n 0,after) ∧ OnlyDisk k after := by
  have bounded : h.entry.filesize ≤ 2147483648 :=
    Nat.le_trans volume.size (chain_length volume.mounted volume.file volume.fits.data)
  have positive : 0 < n*s := Nat.mul_pos count some
  have start : toInt32 (pos : Nat) = ((pos+0*s : Nat) : Int) := by
    rw [toInt32_natCast (by omega),Nat.zero_mul,Nat.add_zero]
  rw [fread_handle (held.only_disk only),if_neg (by omega),start]
  refine itemsLoop_deliver (R := OnlyDisk k) (j := 0) pos (fun i l _ high holds => ?_) ?_ bounded some (fun _ => rfl) only
  · rw [toInt32_natCast small]
    exact (items i (by omega)).again l holds
  · rw [Nat.zero_add]
    exact within

theorem file_items {k : Kernel} (volume : FileOn image k.disk fprivate entry chain) (some : 1 ≤ s)
    (within : pos+n*s ≤ entry.filesize) :
    ∃ item : Nat → Int × List UInt8, ∀ i, i < n → ItemAt image k fprivate entry chain (pos+i*s) s (item i) := by
  have each (i : Nat) : ∃ item : Int × List UInt8, i < n → ItemAt image k fprivate entry chain (pos+i*s) s item := by
    by_cases high : i < n
    · have ends : (i+1)*s ≤ n*s := Nat.mul_le_mul_right s high
      rw [Nat.succ_mul] at ends
      obtain ⟨item,read⟩ := item_read (pos+i*s) volume some (by omega)
      exact ⟨item,fun _ => read⟩
    · exact ⟨(0,[]),fun low => absurd low high⟩
  exact Classical.axiomOfChoice each

-- The position is never moved on: the second call reads the items of the first one.
theorem split_reads_items {k : Kernel} (opened : OpenFile k fd pos entry)
    (volume : FileOn image k.disk fprivate entry chain) (some : 1 ≤ s) (first : 1 ≤ k1) (second : 1 ≤ k2)
    (within : pos+(k1+k2)*s ≤ entry.filesize) :
    ∃ item : Nat → Int × List UInt8, (∀ i, i < k1+k2 → ItemAt image k fprivate entry chain (pos+i*s) s (item i)) ∧
      (SplitReads (imageDevice image) fd s k1 k2 k ↔
        (∀ i, i < k1+k2 → ¬ (item i).1 < 0) ∧ ∀ j, j < k2 → (item (k1+j)).2 = (item j).2) := by
  obtain ⟨h,rfl,held⟩ := opened.handle
  have bounded := chain_length volume.mounted volume.file volume.fits.data
  have large := volume.size
  have split : (k1+k2)*s = k1*s+k2*s := Nat.add_mul k1 k2 s
  have one : s ≤ k1*s := Nat.le_mul_of_pos_left s first
  have two : s ≤ k2*s := Nat.le_mul_of_pos_left s second
  obtain ⟨item,items⟩ := file_items volume some within
  obtain ⟨middle,readOne,only⟩ := fread_delivers held volume some first (by omega) (by omega)
    (fun i high => items i (by omega)) (.refl k)
  obtain ⟨after,readTwo,_⟩ := fread_delivers held volume some second (by omega) (by omega)
    (fun i high => items i (by omega)) only
  obtain ⟨whole,readAll,_⟩ := fread_delivers held volume some (by omega : 1 ≤ k1+k2) within (by omega) items (.refl k)
  refine ⟨item,items,?_⟩
  rw [← deliver_twice some first second (fun i high => (items i high).sized)]
  constructor
  · rintro ⟨n1,b1,middle',n2,b2,after',n,b,whole',ranOne,ranTwo,ranAll,equal⟩
    rw [readOne] at ranOne
    obtain ⟨delivered,rfl⟩ := Prod.mk.inj (Except.ok.inj ranOne)
    rw [readTwo] at ranTwo
    rw [readAll] at ranAll
    rw [delivered,(Prod.mk.inj (Except.ok.inj ranTwo)).1,(Prod.mk.inj (Except.ok.inj ranAll)).1]
    exact equal
  · intro equal
    exact ⟨_,_,middle,_,_,after,_,_,whole,readOne,readTwo,readAll,equal⟩

theorem split_reads_repeat {k : Kernel} (opened : OpenFile k fd pos entry)
    (volume : FileOn image k.disk fprivate entry chain) (some : 1 ≤ s) (first : 1 ≤ k1) (second : 1 ≤ k2)
    (within : pos+(k1+k2)*s ≤ entry.filesize) :
    SplitReads (imageDevice image) fd s k1 k2 k ↔
      (∀ i, i < k1+k2 → Landed fprivate chain (pos+i*s) s) ∧
      ∀ j, j < k2 → landedBytes image k.disk fprivate chain (pos+(k1+j)*s) s =
        landedBytes image k.disk fprivate chain (pos+j*s) s := by
  obtain ⟨item,items,splits⟩ := split_reads_items opened volume some first second within
  have lands : (∀ i, i < k1+k2 → ¬ (item i).1 < 0) ↔ ∀ i, i < k1+k2 → Landed fprivate chain (pos+i*s) s :=
    forall_congr' (fun i => forall_congr' (fun high => (items i high).read))
  rw [splits,lands]
  refine and_congr_right (fun all => forall_congr' (fun j => forall_congr' (fun small => ?_)))
  rw [(items (k1+j) (by omega)).bytes (all _ (by omega)),(items j (by omega)).bytes (all _ (by omega))]

theorem sample_address (volume : SampleVolume disk item) (c : Nat) :
    clusterAddress disk (sampleMounted item) c = (1+(c-2)*1)*512 := by
  unfold clusterAddress
  rw [volume.sector]
  rfl

theorem sample_on (volume : SampleVolume disk item) : FileOn threeImage disk (sampleMounted item) sampleEntry [2,3,4] := by
  have sizes : clusterSize (sampleMounted item) = 512 := rfl
  have table : (sampleMounted item).fatTableAddress = 0 := rfl
  refine ⟨⟨volume.volume,show 8192 ≠ 0 by decide,fun ptr _ => volume.streams ptr,?_,?_,show (512 : Int) < 2147483648 by decide,
    show (0 : Int) ≤ 1 by decide⟩,⟨[3,4],rfl⟩,⟨three_chain.links,three_chain.data,three_chain.ended⟩,
    ⟨fun c member => ?_,fun c member => ?_⟩,show 1024 ≤ 3*512 by decide⟩
  · rw [volume.sector]
    decide
  · rw [volume.sector]
    exact show (512 : Int) = ((1 : Nat) : Int)*512 by decide
  · have small := (three_chain.data c member).2
    rw [table]
    omega
  · have small := (three_chain.data c member).2
    rw [sample_address volume,sizes]
    omega

theorem sample_right (disk : Disk) (item : Nat) (low : offset ≤ pos) (high : pos < 1024) :
    LandsRight threeImage disk (sampleMounted item) [2,3,4] (offset/clusterSize (sampleMounted item)) pos := by
  have sizes : clusterSize (sampleMounted item) = 512 := rfl
  apply lands_right_early
  · rw [sizes]
    exact Nat.lt_of_lt_of_le high (by decide)
  · rw [sizes]
    omega

theorem sample_byte (volume : SampleVolume disk item) (low : offset ≤ pos) (high : pos < 1024) :
    landedByte threeImage disk (sampleMounted item) [2,3,4] 0 (offset/clusterSize (sampleMounted item)) pos =
      UInt8.ofNat (pos/512+1) := by
  rw [(sample_right disk item low high).2]
  unfold fileByte chainAddress
  rw [sample_address volume]
  have sizes : clusterSize (sampleMounted item) = 512 := rfl
  rw [sizes]
  have cluster : (1+([2,3,4].getD (pos/512) 0-2)*1)*512 = (pos/512+1)*512 := by
    have index : pos/512 = 0 ∨ pos/512 = 1 := by omega
    rcases index with first | second
    · rw [first]
      rfl
    · rw [second]
      rfl
  rw [cluster]
  unfold threeImage
  rw [if_neg (by omega),if_neg (by omega),if_neg (by omega)]
  congr 1
  omega

theorem equal_bytes_reread : ∃ k, SplitReads (imageDevice threeImage) 1 1 1 1 k := by
  obtain ⟨k,item,_,volume,opened,_⟩ := twice_opened (imageDevice threeImage)
  refine ⟨k,(split_reads_repeat opened (sample_on volume) (by decide) (by decide) (by decide) (by decide)).mpr ⟨?_,?_⟩⟩
  · exact fun i small pos low high => (sample_right k.disk item low (by omega)).1
  · intro j small
    obtain rfl : j = 0 := by omega
    apply slice_congr
    intro i few
    obtain rfl : i = 0 := by omega
    rw [sample_byte volume (by omega) (by omega),sample_byte volume (by omega) (by omega)]

-- Its first two clusters are not: the second call delivers the first one again.
theorem second_read_repeats : ∃ k item, OpenFile k 1 0 sampleEntry ∧
    FileOn threeImage k.disk (sampleMounted item) sampleEntry [2,3,4] ∧
    ¬ SplitReads (imageDevice threeImage) 1 512 1 1 k := by
  obtain ⟨k,item,_,volume,opened,_⟩ := twice_opened (imageDevice threeImage)
  have on := sample_on volume
  refine ⟨k,item,opened,on,fun reads => ?_⟩
  obtain ⟨read,items,splits⟩ := split_reads_items opened on (show 1 ≤ 512 by decide) (Nat.le_refl 1) (Nat.le_refl 1)
    (by decide)
  have equal := (splits.mp reads).2 0 (by decide)
  have landed (i : Nat) (small : i < 2) : Landed (sampleMounted item) [2,3,4] (0+i*512) 512 :=
    fun pos low high => (sample_right k.disk item low (by omega)).1
  rw [(items (1+0) (by decide)).bytes (landed 1 (by decide)),(items 0 (by decide)).bytes (landed 0 (by decide))] at equal
  have bytes := slice_eq_iff.mp equal 0 (by decide)
  rw [sample_byte volume (by omega) (by omega),sample_byte volume (by omega) (by omega)] at bytes
  exact absurd bytes (by decide)

end NutsOS.Files
