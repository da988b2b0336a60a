import NutsOS.Fat16.Chain
import NutsOS.Fat16.Driver
import NutsOS.Kernel.Boot

-- How many items fat16_read delivers, and which bytes it asks for.
namespace NutsOS.Fat16
open Word32 DiskStreams Prog

-- The private data of an open regular file; the fields are 32-bit words.
structure RegularFile (k : Kernel) (descriptor : Nat) (entry : FatDirectoryItem) (pos : Nat) : Prop where
  held : ∃ item target, k.objs descriptor = some (.fatFileDescriptor ⟨item,pos⟩) ∧ k.objs item = some (.fatItem ⟨target,.file⟩) ∧
    k.objs target = some (.directoryItems [entry])
  filesize : entry.filesize < 4294967296

def clusterReader (dev : BlockDevice) (entry : FatDirectoryItem) (size : Nat) (offset : Int) : KernelProg (Int × List UInt8) :=
  onDisk (fat16ReadInternal dev entry.low16BitsFirstCluster offset (toInt32 size))

-- The reader that admits no range but those in [pos,filesize).
def inRange (reader : Int → KernelProg (Int × List UInt8)) (pos filesize size : Nat) (offset : Int) : KernelProg (Int × List UInt8) :=
  if pos ≤ toUint32 offset ∧ toUint32 offset+size ≤ filesize then reader offset else Prog.fault (.outOfBounds offset)

inductive Delivered (reader : Int → KernelProg (Int × List UInt8)) (pos size : Nat) (k : Kernel) : Nat → Kernel → Prop where
  | none : Delivered reader pos size k 0 k
  | more (before : Delivered reader pos size k n middle) (read : reader (toInt32 ((pos+n*size : Nat) : Int)) middle = .ok ((res,bytes),after))
      (fine : ¬ res < 0) : Delivered reader pos size k (n+1) after

inductive Ended (reader : Int → KernelProg (Int × List UInt8)) (pos filesize size nmemb count : Nat) (middle : Kernel) : Kernel → Prop where
  | all (whole : count = nmemb) : Ended reader pos filesize size nmemb count middle middle
  | short (less : count < nmemb) (left : filesize-(pos+count*size) < size) : Ended reader pos filesize size nmemb count middle middle
  | failed (less : count < nmemb) (inside : pos+(count+1)*size ≤ filesize)
      (read : reader (toInt32 ((pos+count*size : Nat) : Int)) middle = .ok ((res,bytes),after)) (error : res < 0) :
      Ended reader pos filesize size nmemb count middle after

structure Counted (reader : Int → KernelProg (Int × List UInt8)) (pos filesize size nmemb : Nat) (k : Kernel) (count : Nat)
    (after : Kernel) : Prop where
  most : count ≤ nmemb
  inside : pos+count*size ≤ filesize
  ended : ∃ middle, Delivered reader pos size k count middle ∧ Ended reader pos filesize size nmemb count middle after

structure Faulted (reader : Int → KernelProg (Int × List UInt8)) (pos filesize size nmemb : Nat) (k : Kernel) (e : Fault) : Prop where
  request : ∃ count middle, count < nmemb ∧ pos+(count+1)*size ≤ filesize ∧ Delivered reader pos size k count middle ∧
    reader (toInt32 ((pos+count*size : Nat) : Int)) middle = .error e

def ReadEnds (reader : Int → KernelProg (Int × List UInt8)) (pos filesize size nmemb : Nat) (k : Kernel) :
    Except Fault ((Nat × List UInt8) × Kernel) → Prop
  | .ok ((count,_),after) => Counted reader pos filesize size nmemb k count after
  | .error e => Faulted reader pos filesize size nmemb k e

theorem loop_test (inside : pos+n*size ≤ filesize) (bounded : filesize < 4294967296) :
    size > toUint32 ((filesize : Nat)-toInt32 ((pos+n*size : Nat) : Int)) ↔ ¬ pos+(n+1)*size ≤ filesize := by
  rw [toUint32_sub_toInt32 inside bounded,Nat.succ_mul]
  omega

theorem loop_next (pos n size : Nat) : toInt32 (toInt32 ((pos+n*size : Nat) : Int)+(size : Nat)) = toInt32 ((pos+(n+1)*size : Nat) : Int) := by
  rw [toInt32_add_left,← Int.natCast_add,Nat.succ_mul,Nat.add_assoc]

theorem itemsLoop_pass (reader : Int → KernelProg (Int × List UInt8)) (n m : Nat) (inside : pos+n*size ≤ filesize)
    (bounded : filesize < 4294967296) :
    itemsLoop reader filesize size (m+1) (toInt32 ((pos+n*size : Nat) : Int)) =
      if pos+(n+1)*size ≤ filesize then do
        let (res,bytes) ← reader (toInt32 ((pos+n*size : Nat) : Int))
        if res < 0 then return (0,bytes)
        let (read,rest) ← itemsLoop reader filesize size m (toInt32 ((pos+(n+1)*size : Nat) : Int))
        return (read+1,bytes++rest)
      else pure (0,[]) := by
  rw [itemsLoop,loop_next]
  have test := loop_test inside bounded
  by_cases fits : pos+(n+1)*size ≤ filesize
  · rw [if_pos fits,if_neg (fun short => test.mp short fits)]
  · rw [if_neg fits,if_pos (test.mpr fits)]

theorem itemsLoop_inRange (reader : Int → KernelProg (Int × List UInt8)) (nmemb n : Nat) (inside : pos+n*size ≤ filesize)
    (bounded : filesize < 4294967296) :
    itemsLoop (inRange reader pos filesize size) filesize size nmemb (toInt32 ((pos+n*size : Nat) : Int)) =
      itemsLoop reader filesize size nmemb (toInt32 ((pos+n*size : Nat) : Int)) := by
  induction nmemb generalizing n with
  | zero => rfl
  | succ m ih =>
    rw [itemsLoop_pass _ n m inside bounded,itemsLoop_pass _ n m inside bounded]
    by_cases fits : pos+(n+1)*size ≤ filesize
    · have offset : toUint32 (toInt32 ((pos+n*size : Nat) : Int)) = pos+n*size := toUint32_toInt32 (by omega)
      have asked : inRange reader pos filesize size (toInt32 ((pos+n*size : Nat) : Int)) = reader (toInt32 ((pos+n*size : Nat) : Int)) := by
        unfold inRange
        rw [offset,if_pos]
        rw [Nat.succ_mul] at fits
        omega
      rw [if_pos fits,if_pos fits,asked,ih (n+1) fits]
    · rw [if_neg fits,if_neg fits]

-- The induction is on the items that are left; those in front are delivered.
theorem itemsLoop_ends (reader : Int → KernelProg (Int × List UInt8)) (left n : Nat) {k middle : Kernel} (inside : pos+n*size ≤ filesize)
    (bounded : filesize < 4294967296) (delivered : Delivered reader pos size k n middle) :
    ReadEnds reader pos filesize size (n+left) k
      ((itemsLoop reader filesize size left (toInt32 ((pos+n*size : Nat) : Int)) middle).map (fun ((read,bytes),after) => ((n+read,bytes),after))) := by
  induction left generalizing n middle with
  | zero => exact ⟨Nat.le_refl _,inside,middle,delivered,.all rfl⟩
  | succ m ih =>
    have less : n < n+(m+1) := by omega
    rw [itemsLoop_pass _ n m inside bounded]
    by_cases fits : pos+(n+1)*size ≤ filesize
    · rw [if_pos fits]
      cases asked : reader (toInt32 ((pos+n*size : Nat) : Int)) middle with
      | error e =>
        rw [bind_fault asked]
        exact ⟨n,middle,less,fits,delivered,asked⟩
      | ok result =>
        obtain ⟨⟨res,bytes⟩,one⟩ := result
        rw [bind_run asked]
        dsimp only
        by_cases failed : res < 0
        · rw [if_pos failed]
          exact ⟨Nat.le_of_lt less,inside,middle,delivered,.failed less fits asked failed⟩
        · rw [if_neg failed]
          have rest := ih (n+1) fits (.more delivered asked failed)
          rw [show n+1+m = n+(m+1) by omega] at rest
          cases later : itemsLoop reader filesize size m (toInt32 ((pos+(n+1)*size : Nat) : Int)) one with
          | error e =>
            rw [later] at rest
            rw [bind_fault later]
            exact rest
          | ok result =>
            obtain ⟨⟨read,more⟩,after⟩ := result
            rw [later] at rest
            rw [bind_run later]
            show Counted reader pos filesize size (n+(m+1)) k (n+(read+1)) after
            rw [show n+(read+1) = n+1+read by omega]
            exact rest
    · rw [if_neg fits]
      rw [Nat.succ_mul] at fits
      have left : filesize-(pos+n*size) < size := by omega
      exact ⟨Nat.le_of_lt less,inside,middle,delivered,.short less left⟩

theorem fat16Read_items {k : Kernel} (file : RegularFile k descriptor entry pos) (dev : BlockDevice) (size nmemb : Nat) :
    fat16Read dev descriptor size nmemb k = itemsLoop (clusterReader dev entry size) entry.filesize size nmemb (toInt32 pos) k := by
  obtain ⟨item,target,held,node,array⟩ := file.held
  unfold fat16Read
  rw [bind_run (loadAs_run asFatFileDescriptor held rfl),bind_run (loadAs_run asFatItem node rfl),
    bind_run (loadAs_run asDirectoryItem array rfl)]
  rfl

theorem fat16_read_counts {k : Kernel} (file : RegularFile k descriptor entry pos) (within : pos ≤ entry.filesize) (dev : BlockDevice)
    (size nmemb : Nat) :
    fat16Read dev descriptor size nmemb k = itemsLoop (clusterReader dev entry size) entry.filesize size nmemb (toInt32 pos) k ∧
    (∀ reader, itemsLoop (inRange reader pos entry.filesize size) entry.filesize size nmemb (toInt32 pos) =
      itemsLoop reader entry.filesize size nmemb (toInt32 pos)) ∧
    ReadEnds (clusterReader dev entry size) pos entry.filesize size nmemb k (fat16Read dev descriptor size nmemb k) := by
  have first : pos+0*size = pos := by omega
  refine ⟨fat16Read_items file dev size nmemb,fun reader => ?_,?_⟩
  · have same := itemsLoop_inRange reader nmemb 0 (by rw [first]; exact within) file.filesize
    rw [first] at same
    exact same
  · have ends := itemsLoop_ends (clusterReader dev entry size) nmemb 0 (by rw [first]; exact within) file.filesize (.none (k := k))
    rw [first,← fat16Read_items file dev size nmemb,Nat.zero_add] at ends
    cases ran : fat16Read dev descriptor size nmemb k with
    | error e =>
      rw [ran] at ends
      exact ends
    | ok result =>
      obtain ⟨⟨read,bytes⟩,after⟩ := result
      rw [ran] at ends
      have same : 0+read = read := Nat.zero_add read
      show Counted _ _ _ _ _ _ read after
      rw [← same]
      exact ends

-- A file of two clusters and two bytes: the third item is short.
def openedEntry : FatDirectoryItem := ⟨[],[],0,2,1026⟩

def openedObjs (ptr : Nat) : Option Obj :=
  if ptr = 4096 then some (.fatFileDescriptor ⟨8192,0⟩)
  else if ptr = 8192 then some (.fatItem ⟨12288,.file⟩)
  else if ptr = 12288 then some (.directoryItems [openedEntry])
  else none

def openedFile : Kernel := {bootKernel bootEntries threeDisk with objs := openedObjs}

theorem opened_item {k : Kernel} (same : SameVolume threeDisk k.disk) (early : n < 2) :
    ∃ bytes after, clusterReader (imageDevice threeImage) openedEntry 512 (toInt32 ((0+n*512 : Nat) : Int)) k = .ok ((eok,bytes),after) ∧
      SameVolume threeDisk after.disk := by
  have size : clusterSize threePrivate = 512 := rfl
  have fits : Addressable k.disk threePrivate [2,3,4] := ⟨three_fits.table,by rw [clusterAddress_same same]; exact three_fits.data⟩
  obtain ⟨after,res,bytes,read,later,outcome,_⟩ := fat16ReadInternal_lands (n*512) 512 threeImage (three_mounted.after same) three_chain
    fits (by decide) (by decide) (by omega)
  have lands (pos : Nat) (low : n*512 ≤ pos) (high : pos < n*512+512) :
      LandsRight threeImage k.disk threePrivate [2,3,4] (n*512/clusterSize threePrivate) pos :=
    lands_right_early (by rw [size]; show pos < 3*512; omega) (.inl (by rw [size]; omega))
  rcases outcome with ⟨_,rfl,_⟩ | ⟨⟨pos,low,high,outside⟩,_⟩
  · refine ⟨bytes,{k with disk := after},?_,same.trans later⟩
    unfold clusterReader
    rw [Nat.zero_add,toInt32_natCast (by omega)]
    exact onDisk_run read
  · exact absurd (lands pos low high).1 outside

theorem short_file_counted : ∃ k bytes after, fat16Read (imageDevice threeImage) 4096 512 3 k = .ok ((2,bytes),after) ∧
    Counted (clusterReader (imageDevice threeImage) openedEntry 512) 0 openedEntry.filesize 512 3 k 2 after := by
  obtain ⟨k,file,same⟩ : ∃ k, RegularFile k 4096 openedEntry 0 ∧ SameVolume threeDisk k.disk :=
    ⟨openedFile,⟨⟨8192,12288,rfl,rfl,rfl⟩,by decide⟩,.refl threeDisk⟩
  obtain ⟨first,one,readFirst,same⟩ := opened_item same (by decide : 0 < 2)
  obtain ⟨second,two,readSecond,_⟩ := opened_item same (by decide : 1 < 2)
  have size : openedEntry.filesize = 1026 := rfl
  have pass (n m : Nat) (early : n ≤ 2) := itemsLoop_pass (clusterReader (imageDevice threeImage) openedEntry 512) n m
    (show 0+n*512 ≤ openedEntry.filesize by omega) file.filesize
  have ran : fat16Read (imageDevice threeImage) 4096 512 3 k = .ok ((2,first++(second++[])),two) := by
    have start := pass 0 2 (by decide)
    have last := pass 2 0 (by decide)
    rw [Nat.zero_mul] at start
    rw [fat16Read_items file,start,if_pos (by decide),bind_run readFirst]
    dsimp only
    rw [if_neg (show ¬ eok < 0 by decide),pass 1 1 (by decide),if_pos (by decide),last,if_neg (by decide),bind_run (bind_run readSecond)]
    rfl
  have ends := (fat16_read_counts file (Nat.zero_le _) (imageDevice threeImage) 512 3).2.2
  rw [ran] at ends
  exact ⟨k,_,two,ran,ends⟩
end NutsOS.Fat16
