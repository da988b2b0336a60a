import Mathlib.Tactic.Ring
import NutsOS.Lib.Successor
import NutsOS.Fat16.Reader

-- Reading a file along its cluster chain.
namespace NutsOS.Fat16
open Word32 Bytes DiskStreams Successor

-- A data cluster's successor, where its entry names a data cluster.
def nextCluster (image : Nat → UInt8) (fprivate : FatPrivate) (cluster : Nat) : Option Nat :=
  if 2 ≤ fatEntry image fprivate cluster ∧ fatEntry image fprivate cluster ≤ 0xFFEF then
    some (fatEntry image fprivate cluster) else none

structure FileChain (image : Nat → UInt8) (fprivate : FatPrivate) (chain : List Nat) : Prop where
  links : Terminates (nextCluster image fprivate) chain
  data : ∀ c ∈ chain, 2 ≤ c ∧ c ≤ 0xFFEF
  ended : ∀ c ∈ chain, nextCluster image fprivate c = none →
    fatEntry image fprivate c = 0xFFFF ∨ fatEntry image fprivate c = 0xFFF8

def clusterAddress (disk : Disk) (fprivate : FatPrivate) (cluster : Nat) : Nat :=
  (fprivate.rootDirectory.endingSectorPos.toNat + (cluster-2)*fprivate.primaryHeader.sectorsPerCluster) *
    disk.sectorSize.toNat

def clusterSize (fprivate : FatPrivate) : Nat := fprivate.bytesPerCluster.toNat

-- Every position the driver computes for the chain fits in an int.
structure Addressable (disk : Disk) (fprivate : FatPrivate) (chain : List Nat) : Prop where
  table : ∀ c ∈ chain, fprivate.fatTableAddress+2*c+2 ≤ 2147483648
  data : ∀ c ∈ chain, clusterAddress disk fprivate c + clusterSize fprivate ≤ 2147483648

def clusterData (image : Nat → UInt8) (disk : Disk) (fprivate : FatPrivate) (cluster : Nat) : List UInt8 :=
  slice image (clusterAddress disk fprivate cluster) (clusterSize fprivate)

def chainAddress (disk : Disk) (fprivate : FatPrivate) (chain : List Nat) (index pos : Nat) : Nat :=
  clusterAddress disk fprivate (chain.getD index 0) + pos % clusterSize fprivate

-- Where the recursion lands: a level that starts at index `start` walks `steps`
-- entries on, and the next level walks one more entry from there.
def landing (start steps : Nat) : Nat → Nat
  | 0 => start+steps
  | levels+1 => landing (start+steps) (steps+1) levels

theorem clusterAddress_same (same : SameVolume before after) (fprivate : FatPrivate) :
    clusterAddress after fprivate = clusterAddress before fprivate := by
  funext cluster
  simp [clusterAddress,same.sectorSize]

theorem nextCluster_some (next : nextCluster image fprivate c = some d) :
    fatEntry image fprivate c = d ∧ 2 ≤ d ∧ d ≤ 0xFFEF := by
  unfold nextCluster at next
  split at next
  · next inRange =>
    obtain rfl := Option.some.inj next
    exact ⟨rfl,inRange⟩
  · cases next

theorem walkChain_step (image : Nat → UInt8) (mounted : Mounted disk fprivate)
    (fits : fprivate.fatTableAddress+2*c+2 ≤ 2147483648) (next : nextCluster image fprivate c = some d) :
    ∃ after, SameVolume disk after ∧ ∀ count, walkChain (imageDevice image) (count+1) (c : Nat) disk =
      walkChain (imageDevice image) count (d : Nat) after := by
  obtain ⟨after,read,same,_⟩ := getFatEntry_run image mounted fits
  obtain ⟨entry,low,high⟩ := nextCluster_some next
  refine ⟨after,same,fun count => ?_⟩
  have notLast : nutsosFat16IsLastSector (d : Nat) = false := by
    simp only [nutsosFat16IsLastSector,Bool.or_eq_false_iff,beq_eq_false_iff_ne]
    omega
  have notReserved : nutsosFat16IsReservedSector (d : Nat) = false := by
    simp only [nutsosFat16IsReservedSector,Bool.or_eq_false_iff,beq_eq_false_iff_ne]
    omega
  have notBad : ¬ ((d : Nat) : Int) = nutsosFat16BadSector := by unfold nutsosFat16BadSector; omega
  have notFree : ¬ ((d : Nat) : Int) = nutsosFat16FreeCluster := by unfold nutsosFat16FreeCluster; omega
  rw [walkChain,Prog.bind_run read,entry]
  simp [notLast,notReserved,notBad,notFree]

theorem walkChain_end (image : Nat → UInt8) (mounted : Mounted disk fprivate)
    (fits : fprivate.fatTableAddress+2*c+2 ≤ 2147483648)
    (last : fatEntry image fprivate c = 0xFFFF ∨ fatEntry image fprivate c = 0xFFF8) (count : Nat) :
    ∃ after, walkChain (imageDevice image) (count+1) (c : Nat) disk = .ok (-eio,after) ∧
      SameVolume disk after := by
  obtain ⟨after,read,same,_⟩ := getFatEntry_run image mounted fits
  have isLast : nutsosFat16IsLastSector (fatEntry image fprivate c : Nat) = true := by
    rcases last with entry | entry <;> rw [entry] <;> rfl
  refine ⟨after,?_,same⟩
  rw [walkChain,Prog.bind_run read]
  simp [isLast]

theorem walkChain_chain (image : Nat → UInt8) (mounted : Mounted disk fprivate)
    (file : FileChain image fprivate (c::rest))
    (table : ∀ d ∈ c::rest, fprivate.fatTableAddress+2*d+2 ≤ 2147483648) (count : Nat) :
    ∃ after, SameVolume disk after ∧ walkChain (imageDevice image) count (c : Nat) disk =
      .ok (if count < rest.length+1 then (((c::rest).getD count 0 : Nat) : Int) else -eio,after) := by
  induction count generalizing disk c rest with
  | zero => exact ⟨disk,.refl disk,rfl⟩
  | succ count ih =>
    cases rest with
    | nil =>
      have last := file.ended c (by simp) file.links
      obtain ⟨after,walked,same⟩ := walkChain_end image mounted (table c (by simp)) last count
      exact ⟨after,same,by simpa using walked⟩
    | cons d rest =>
      obtain ⟨middle,one,walked⟩ := walkChain_step image mounted (table c (by simp)) file.links.1
      have shorter : FileChain image fprivate (d::rest) :=
        ⟨file.links.2,fun e member => file.data e (by simp [member]),fun e member => file.ended e (by simp [member])⟩
      obtain ⟨after,two,result⟩ := ih (mounted.after one) shorter (fun e member => table e (by simp [member]))
      refine ⟨after,one.trans two,?_⟩
      rw [walked,result]
      simp

theorem FileChain.drop (file : FileChain image fprivate chain) (inside : start < chain.length) :
    ∃ rest, chain.drop start = chain.getD start 0::rest ∧ rest.length+1 = chain.length-start ∧
      FileChain image fprivate (chain.getD start 0::rest) := by
  have split : chain.drop start = chain.getD start 0::chain.drop (start+1) := by
    rw [List.drop_eq_getElem_cons inside,List.getD_eq_getElem _ _ inside]
  have member : ∀ c ∈ chain.getD start 0::chain.drop (start+1), c ∈ chain := by
    intro c listed
    rw [← split] at listed
    exact List.mem_of_mem_drop listed
  refine ⟨chain.drop (start+1),split,by simp; omega,?_,fun c listed => file.data c (member c listed),
    fun c listed => file.ended c (member c listed)⟩
  apply Terminates.suffix (chain.take start)
  rw [← split,List.take_append_drop]
  exact file.links

-- A chain cannot repeat a cluster, so some cluster's address bounds its length.
theorem chain_length (mounted : Mounted disk fprivate) (file : FileChain image fprivate chain)
    (data : ∀ c ∈ chain, clusterAddress disk fprivate c + clusterSize fprivate ≤ 2147483648) :
    chain.length*clusterSize fprivate ≤ 2147483648 := by
  cases chain with
  | nil => simp
  | cons head rest =>
    obtain ⟨c,member,large⟩ := exists_large file.links.nodup (by simp) (fun c member => (file.data c member).1)
    have size : clusterSize fprivate = fprivate.primaryHeader.sectorsPerCluster*disk.sectorSize.toNat := by
      have whole := mounted.cluster
      obtain ⟨n,equal⟩ := Int.eq_ofNat_of_zero_le (Int.le_of_lt mounted.sector)
      unfold clusterSize
      rw [whole,equal]
      rfl
    have before : (c-2)*clusterSize fprivate ≤ clusterAddress disk fprivate c := by
      rw [size,← Nat.mul_assoc]
      exact Nat.mul_le_mul_right _ (Nat.le_add_left _ _)
    calc (head::rest).length*clusterSize fprivate
        ≤ ((c-2)+1)*clusterSize fprivate := Nat.mul_le_mul_right _ (by omega)
      _ ≤ clusterAddress disk fprivate c + clusterSize fprivate := by
          rw [Nat.succ_mul]
          exact Nat.add_le_add_right before _
      _ ≤ 2147483648 := data c member

theorem sector_word (ending width size pos c : Nat) (low : 2 ≤ c) (small : c ≤ 0xFFEF) (positive : 0 < size)
    (fits : (ending+(c-2)*width)*size + pos < 2147483648) :
    toInt32 (toInt32 (toInt32 ((ending : Int) + toInt32 (toInt32 ((c : Int)-2)*(width : Nat)))*(size : Nat)) +
      (pos : Nat)) = (((ending+(c-2)*width)*size+pos : Nat) : Int) := by
  have bound : ending+(c-2)*width ≤ (ending+(c-2)*width)*size := Nat.le_mul_of_pos_right _ positive
  have index : toInt32 ((c : Int)-2) = ((c-2 : Nat) : Int) := by
    rw [toInt32_eq (by omega) (by omega)]
    omega
  rw [index,← Int.natCast_mul,toInt32_natCast (by omega),← Int.natCast_add,toInt32_natCast (by omega),
    ← Int.natCast_mul,toInt32_natCast (by omega),← Int.natCast_add,toInt32_natCast fits]

theorem startingPos_eq (pos : Nat) (mounted : Mounted disk fprivate) (low : 2 ≤ c) (small : c ≤ 0xFFEF)
    (fits : clusterAddress disk fprivate c + pos < 2147483648) :
    toInt32 (toInt32 (fat16ClusterToSector fprivate (c : Nat) * disk.sectorSize) + (pos : Nat)) =
      ((clusterAddress disk fprivate c + pos : Nat) : Int) := by
  obtain ⟨size,sized⟩ := Int.eq_ofNat_of_zero_le (Int.le_of_lt mounted.sector)
  obtain ⟨ending,ends⟩ := Int.eq_ofNat_of_zero_le mounted.root
  have positive : 0 < size := by have whole := mounted.sector; omega
  unfold clusterAddress fat16ClusterToSector at *
  rw [sized,ends] at fits ⊢
  exact sector_word ending _ size pos c low small positive fits

def levelCount (size offset total : Nat) : Nat := min total (size-offset%size)

theorem levelCount_bounds (positive : 0 < size) (offset total : Nat) : levelCount size offset total ≤ total ∧
    offset%size+levelCount size offset total ≤ size ∧ (0 < total → 0 < levelCount size offset total) := by
  have inside := Nat.mod_lt offset positive
  unfold levelCount
  omega

theorem levelCount_eq (positive : 0 < size) (int : size < 2147483648) (offset total : Nat) :
    (if (total : Int) > toInt32 ((size : Nat)-((offset%size : Nat) : Int)) then
      toInt32 ((size : Nat)-((offset%size : Nat) : Int)) else total) = (levelCount size offset total : Int) := by
  have inside := Nat.mod_lt offset positive
  have left : toInt32 ((size : Nat)-((offset%size : Nat) : Int)) = ((size-offset%size : Nat) : Int) := by
    rw [← Int.natCast_sub (Nat.le_of_lt inside),toInt32_natCast (by omega)]
  rw [left]
  unfold levelCount
  split <;> omega

theorem Mounted.bytesPerCluster (mounted : Mounted disk fprivate) :
    fprivate.bytesPerCluster = (clusterSize fprivate : Nat) := by
  have whole := mounted.cluster
  have positive := Int.mul_nonneg (Int.natCast_nonneg fprivate.primaryHeader.sectorsPerCluster)
    (Int.le_of_lt mounted.sector)
  rw [← whole] at positive
  exact (Int.toNat_of_nonneg positive).symm

theorem level_step (image : Nat → UInt8) (mounted : Mounted disk fprivate) (low : 2 ≤ c) (small : c ≤ 0xFFEF)
    (fits : clusterAddress disk fprivate c + clusterSize fprivate ≤ 2147483648)
    (positive : 0 < clusterSize fprivate) (bounded : offset+total ≤ 2147483648)
    (same : SameVolume disk middle)
    (walked : fat16GetClusterForOffset (imageDevice image) start (offset : Nat) disk = .ok ((c : Nat),middle)) :
    ∃ after, SameVolume disk after ∧ ∀ fuel,
      readInternalLevel (imageDevice image) (fuel+1) start (offset : Nat) (total : Nat) disk =
        (do
          let now := levelCount (clusterSize fprivate) offset total
          let bytes := slice image (clusterAddress disk fprivate c + offset%clusterSize fprivate) now
          if now < total then
            let (res,rest) ← readInternalLevel (imageDevice image) fuel (c : Nat) ((offset+now : Nat) : Int)
              ((total-now : Nat) : Int)
            return (res,bytes++rest)
          return (0,bytes)) after := by
  have inside := Nat.mod_lt offset positive
  have sized := mounted.bytesPerCluster
  have int : clusterSize fprivate < 2147483648 := by have bound := mounted.int; omega
  have count := levelCount_eq positive int offset total
  have position := startingPos_eq (offset%clusterSize fprivate) mounted low small (by omega)
  have live := (mounted.after same).streams fprivate.clusterReadStream (by simp)
  obtain ⟨within,inCluster,progress⟩ := levelCount_bounds positive offset total
  generalize levelCount (clusterSize fprivate) offset total = now at *
  obtain ⟨sought,after,seek,read,later,_⟩ := seek_read_run (clusterAddress disk fprivate c + offset%clusterSize fprivate) now image
    live (by omega) (by omega)
  refine ⟨after,same.trans later,fun fuel => ?_⟩
  have offsetIn : (offset : Int).tmod (clusterSize fprivate : Nat) = ((offset%clusterSize fprivate : Nat) : Int) := rfl
  rw [readInternalLevel,Prog.bind_run (loadPrivate_run mounted)]
  simp only []
  rw [Prog.bind_run walked]
  simp only [sized,offsetIn,count,Prog.get_bind,show ¬ ((c : Nat) : Int) < 0 by omega,if_false,same.sectorSize,position]
  rw [Prog.bind_run seek]
  simp only [show ¬ (0 : Int) < 0 by decide,if_false]
  rw [Prog.bind_run read]
  simp only [show ¬ (0 : Int) < 0 by decide,if_false]
  by_cases more : now < total
  · rw [if_pos (by omega),if_pos more,← Int.natCast_add,toInt32_natCast (by omega),← Int.natCast_sub within,
      toInt32_natCast (by omega)]
  · rw [if_neg (by omega),if_neg more]

theorem clusterForOffset_chain (image : Nat → UInt8) (mounted : Mounted disk fprivate)
    (file : FileChain image fprivate chain) (table : ∀ c ∈ chain, fprivate.fatTableAddress+2*c+2 ≤ 2147483648)
    (inside : start < chain.length) (positive : 0 < clusterSize fprivate) (offset : Nat) :
    ∃ after, SameVolume disk after ∧
      fat16GetClusterForOffset (imageDevice image) (chain.getD start 0 : Nat) (offset : Nat) disk =
        .ok (if start+offset/clusterSize fprivate < chain.length then
          ((chain.getD (start+offset/clusterSize fprivate) 0 : Nat) : Int) else -eio,after) := by
  obtain ⟨rest,split,length,later⟩ := file.drop inside
  have listed : ∀ c ∈ chain.getD start 0::rest, c ∈ chain := by
    intro c member
    rw [← split] at member
    exact List.mem_of_mem_drop member
  obtain ⟨after,same,walked⟩ := walkChain_chain image mounted later (fun c member => table c (listed c member))
    (offset/clusterSize fprivate)
  have index : (chain.getD start 0::rest).getD (offset/clusterSize fprivate) 0 =
      chain.getD (start+offset/clusterSize fprivate) 0 := by
    rw [← split]
    simp
  have count : ((offset : Int).tdiv (clusterSize fprivate : Nat)).toNat = offset/clusterSize fprivate := rfl
  refine ⟨after,same,?_⟩
  unfold fat16GetClusterForOffset
  rw [Prog.bind_run (loadPrivate_run mounted)]
  simp only [mounted.bytesPerCluster,count,show ¬ ((clusterSize fprivate : Nat) : Int) = 0 by omega,if_false]
  rw [walked,index]
  simp only [show offset/clusterSize fprivate < rest.length+1 ↔ start+offset/clusterSize fprivate < chain.length by omega]

def fileByte (image : Nat → UInt8) (disk : Disk) (fprivate : FatPrivate) (chain : List Nat) (pos : Nat) : UInt8 :=
  image (chainAddress disk fprivate chain (pos/clusterSize fprivate) pos)

def landedIndex (fprivate : FatPrivate) (start first pos : Nat) : Nat :=
  landing start first (pos/clusterSize fprivate-first)

def landedByte (image : Nat → UInt8) (disk : Disk) (fprivate : FatPrivate) (chain : List Nat)
    (start first pos : Nat) : UInt8 :=
  image (chainAddress disk fprivate chain (landedIndex fprivate start first pos) pos)

theorem landedIndex_next (later : first+1 ≤ pos/clusterSize fprivate) :
    landedIndex fprivate start first pos = landedIndex fprivate (start+first) (first+1) pos := by
  obtain ⟨levels,equal⟩ := Nat.exists_eq_add_of_le later
  have one : pos/clusterSize fprivate-first = levels+1 := by omega
  have two : pos/clusterSize fprivate-(first+1) = levels := by omega
  unfold landedIndex
  rw [one,two]
  rfl

theorem landedIndex_first (same : pos/clusterSize fprivate = first) :
    landedIndex fprivate start first pos = start+first := by
  unfold landedIndex
  rw [same,Nat.sub_self,landing]

theorem same_cluster (offset size j : Nat) (inside : offset%size+j < size) :
    (offset+j)/size = offset/size ∧ (offset+j)%size = offset%size+j := by
  have split : offset+j = (offset%size+j)+size*(offset/size) := by
    have whole := Nat.mod_add_div offset size
    omega
  have positive : 0 < size := by omega
  rw [split]
  exact ⟨by rw [Nat.add_mul_div_left _ _ positive,Nat.div_eq_of_lt inside,Nat.zero_add],
    by rw [Nat.add_mul_mod_self_left,Nat.mod_eq_of_lt inside]⟩

theorem next_cluster {offset size : Nat} (positive : 0 < size) :
    (offset+(size-offset%size))/size = offset/size+1 := by
  have inside := Nat.mod_lt offset positive
  have split : offset+(size-offset%size) = size*(offset/size+1) := by
    have whole := Nat.mod_add_div offset size
    rw [Nat.mul_succ]
    omega
  rw [split,Nat.mul_div_cancel_left _ positive]

theorem level_bytes (image : Nat → UInt8) (base : Disk) (chain : List Nat) (start : Nat)
    (inside : offset%clusterSize fprivate+now ≤ clusterSize fprivate) :
    slice image (clusterAddress base fprivate (chain.getD (start+offset/clusterSize fprivate) 0) +
        offset%clusterSize fprivate) now =
      slice (landedByte image base fprivate chain start (offset/clusterSize fprivate)) offset now := by
  apply slice_congr
  intro j small
  obtain ⟨quotient,remainder⟩ := same_cluster offset (clusterSize fprivate) j (by omega)
  unfold landedByte chainAddress
  rw [landedIndex_first quotient,remainder,Nat.add_assoc]

theorem level_error (walked : fat16GetClusterForOffset dev start offset disk = .ok (res,middle)) (negative : res < 0)
    (loaded : loadPrivate disk = .ok (fprivate,disk)) (fuel : Nat) (total : Int) :
    readInternalLevel dev (fuel+1) start offset total disk = .ok ((res,[]),middle) := by
  rw [readInternalLevel,Prog.bind_run loaded]
  simp only []
  rw [Prog.bind_run walked,if_pos negative]
  rfl

-- The outcome of a read: every position lands on the chain and its byte is
-- delivered, or one lands behind the chain and the walk reports -EIO.
def Outcome (res : Int) (bytes : List UInt8) (lands : Nat → Prop) (byte : Nat → UInt8) (offset total : Nat) : Prop :=
  ((∀ pos, offset ≤ pos → pos < offset+total → lands pos) ∧ res = eok ∧ bytes = slice byte offset total) ∨
    ((∃ pos, offset ≤ pos ∧ pos < offset+total ∧ ¬ lands pos) ∧ res = -eio)

-- A read that failed stopped short, though not before its first cluster.
def Stopped (res : Int) (bytes : List UInt8) (began : Prop) (total : Nat) : Prop :=
  res ≠ eok → bytes.length < total ∧ (began → 0 < bytes.length)

theorem Outcome.join {now rest : List UInt8} {lands below : Nat → Prop} {byte byteBelow : Nat → UInt8}
    (most : count ≤ total) (level : now = slice byte offset count)
    (landed : ∀ pos, offset ≤ pos → pos < offset+count → lands pos)
    (same : ∀ pos, offset+count ≤ pos → (lands pos ↔ below pos) ∧ byte pos = byteBelow pos)
    (outcome : Outcome res rest below byteBelow (offset+count) (total-count)) :
    Outcome res (now++rest) lands byte offset total := by
  have ends : offset+count+(total-count) = offset+total := by omega
  unfold Outcome at *
  rw [ends] at outcome
  rcases outcome with ⟨all,ended,bytes⟩ | ⟨⟨pos,low,high,outside⟩,failed⟩
  · refine .inl ⟨?_,ended,?_⟩
    · intro pos low high
      by_cases early : pos < offset+count
      · exact landed pos low early
      · exact (same pos (by omega)).1.mpr (all pos (by omega) high)
    · have later : slice byte (offset+count) (total-count) = slice byteBelow (offset+count) (total-count) :=
        slice_congr (fun i _ => (same _ (Nat.le_add_right _ _)).2)
      rw [level,bytes,← later,slice_append,Nat.add_sub_cancel' most]
  · exact .inr ⟨⟨pos,by omega,high,fun lands => outside ((same pos low).1.mp lands)⟩,failed⟩

-- The induction is on the levels: one level reads up to the end of a cluster
-- and the rest of the range starts the next one.
theorem readInternalLevel_chain (offset total : Nat) (image : Nat → UInt8) (base : Disk) (mounted : Mounted base fprivate)
    (file : FileChain image fprivate chain) (fits : Addressable base fprivate chain)
    (same : SameVolume base disk) (inside : start < chain.length) (some : 0 < total) (positive : 0 < clusterSize fprivate)
    (bounded : offset+total ≤ 2147483648) (enough : total < fuel) :
    ∃ after res bytes,
      readInternalLevel (imageDevice image) fuel (chain.getD start 0 : Nat) (offset : Nat) (total : Nat) disk =
        .ok ((res,bytes),after) ∧ SameVolume disk after ∧
      Outcome res bytes (fun pos => landedIndex fprivate start (offset/clusterSize fprivate) pos < chain.length)
        (landedByte image base fprivate chain start (offset/clusterSize fprivate)) offset total ∧
      Stopped res bytes (start+offset/clusterSize fprivate < chain.length) total := by
  induction fuel generalizing disk start offset total with
  | zero => exact False.elim (Nat.not_lt_zero _ enough)
  | succ fuel ih =>
    obtain ⟨middle,first,walked⟩ := clusterForOffset_chain image (mounted.after same) file fits.table inside
      positive offset
    by_cases found : start+offset/clusterSize fprivate < chain.length
    · rw [if_pos found] at walked
      have member : chain.getD (start+offset/clusterSize fprivate) 0 ∈ chain := by
        rw [List.getD_eq_getElem _ _ found]
        exact List.getElem_mem found
      obtain ⟨low,small⟩ := file.data _ member
      have address := fits.data _ member
      rw [← clusterAddress_same same] at address
      obtain ⟨after,second,level⟩ := level_step image (mounted.after same) low small address positive bounded first walked
      rw [clusterAddress_same same] at level
      obtain ⟨most,inCluster,progress⟩ := levelCount_bounds positive offset total
      have bytes := level_bytes image base chain start inCluster
      have landed : ∀ pos, offset ≤ pos → pos < offset+levelCount (clusterSize fprivate) offset total →
          landedIndex fprivate start (offset/clusterSize fprivate) pos < chain.length := by
        intro pos low high
        obtain ⟨j,rfl⟩ := Nat.exists_eq_add_of_le low
        rw [landedIndex_first (same_cluster _ _ _ (by omega)).1]
        exact found
      by_cases more : levelCount (clusterSize fprivate) offset total < total
      · have whole : levelCount (clusterSize fprivate) offset total =
            clusterSize fprivate-offset%clusterSize fprivate := by unfold levelCount at *; omega
        rw [level fuel]
        simp only [if_pos more]
        generalize levelCount (clusterSize fprivate) offset total = now at *
        have quotient : (offset+now)/clusterSize fprivate = offset/clusterSize fprivate+1 := by
          rw [whole]
          exact next_cluster positive
        obtain ⟨last,res,rest,read,third,outcome,stopped⟩ := ih (offset+now) (total-now) (same.trans second) found
          (by omega) (by omega) (by omega)
        rw [Prog.bind_run read]
        refine ⟨last,res,_,rfl,second.trans third,outcome.join most bytes landed ?_,fun failed => ?_⟩
        · intro pos later
          have next : offset/clusterSize fprivate+1 ≤ pos/clusterSize fprivate := by
            rw [← quotient]
            exact Nat.div_le_div_right later
          rw [quotient]
          unfold landedByte
          rw [landedIndex_next next]
          exact ⟨Iff.rfl,rfl⟩
        · have short := (stopped failed).1
          have here := progress some
          rw [List.length_append,slice_length]
          dsimp only
          exact ⟨by omega,fun _ => by omega⟩
      · have all : levelCount (clusterSize fprivate) offset total = total := Nat.le_antisymm most (Nat.le_of_not_lt more)
        rw [all] at bytes landed
        rw [level fuel]
        simp only [all,Nat.lt_irrefl,if_false]
        exact ⟨after,_,_,rfl,second,.inl ⟨landed,rfl,bytes⟩,fun failed => absurd rfl failed⟩
    · rw [if_neg found] at walked
      have loaded := loadPrivate_run (mounted.after same)
      have behind : ¬ landedIndex fprivate start (offset/clusterSize fprivate) offset < chain.length := by
        rw [landedIndex_first rfl]
        exact found
      exact ⟨middle,_,_,level_error walked (by decide) loaded fuel _,first,
        .inr ⟨⟨offset,Nat.le_refl _,by omega,behind⟩,rfl⟩,fun _ => ⟨some,fun began => absurd began found⟩⟩

theorem chain_data (image : Nat → UInt8) (disk : Disk) (fprivate : FatPrivate) (chain : List Nat)
    (positive : 0 < clusterSize fprivate) :
    chain.flatMap (clusterData image disk fprivate) =
      slice (fileByte image disk fprivate chain) 0 (chain.length*clusterSize fprivate) := by
  induction chain using List.reverseRecOn with
  | nil => simp
  | append_singleton chain last ih =>
    have kept : slice (fileByte image disk fprivate chain) 0 (chain.length*clusterSize fprivate) =
        slice (fileByte image disk fprivate (chain++[last])) 0 (chain.length*clusterSize fprivate) := by
      apply slice_congr
      intro i small
      have index : i/clusterSize fprivate < chain.length := (Nat.div_lt_iff_lt_mul positive).mpr small
      simp [fileByte,chainAddress,List.getElem?_append_left index]
    have added : clusterData image disk fprivate last =
        slice (fileByte image disk fprivate (chain++[last])) (0+chain.length*clusterSize fprivate)
          (clusterSize fprivate) := by
      apply slice_congr
      intro i small
      have index : (chain.length*clusterSize fprivate+i)/clusterSize fprivate = chain.length := by
        rw [Nat.add_comm,Nat.add_mul_div_right _ _ positive,Nat.div_eq_of_lt small,Nat.zero_add]
      have place : (chain.length*clusterSize fprivate+i)%clusterSize fprivate = i := by
        rw [Nat.add_comm,Nat.add_mul_mod_self_right,Nat.mod_eq_of_lt small]
      simp [fileByte,chainAddress,index,place]
    rw [List.flatMap_append,ih,kept,List.flatMap_singleton,added,slice_append,List.length_append,
      List.length_singleton,Nat.succ_mul]

theorem landing_eq (start steps levels : Nat) :
    2*landing start steps levels = 2*start + 2*(levels+1)*steps + levels*(levels+1) := by
  induction levels generalizing start steps with
  | zero => simp [landing,Nat.mul_add]
  | succ levels ih =>
    rw [landing,ih]
    ring

theorem fat16ReadInternal_lands (offset total : Nat) (image : Nat → UInt8) (mounted : Mounted disk fprivate)
    (file : FileChain image fprivate (start::rest)) (fits : Addressable disk fprivate (start::rest))
    (some : 1 ≤ total) (positive : 0 < clusterSize fprivate) (bounded : offset+total ≤ 2147483648) :
    ∃ after res bytes,
      fat16ReadInternal (imageDevice image) (start : Nat) (offset : Nat) (total : Nat) disk = .ok ((res,bytes),after) ∧
      SameVolume disk after ∧
      Outcome res bytes (fun pos => landedIndex fprivate 0 (offset/clusterSize fprivate) pos < (start::rest).length)
        (landedByte image disk fprivate (start::rest) 0 (offset/clusterSize fprivate)) offset total ∧
      Stopped res bytes (0+offset/clusterSize fprivate < (start::rest).length) total :=
  readInternalLevel_chain _ _ image disk mounted file fits (.refl disk) (Nat.succ_pos _) some positive bounded (Nat.lt_succ_self _)

theorem fat16ReadInternal_chain (offset total : Nat) (image : Nat → UInt8) (mounted : Mounted disk fprivate)
    (file : FileChain image fprivate (start::rest)) (fits : Addressable disk fprivate (start::rest))
    (some : 1 ≤ total) (within : offset+total ≤ (start::rest).length*clusterSize fprivate) :
    ∃ after res bytes,
      fat16ReadInternal (imageDevice image) (start : Nat) (offset : Nat) (total : Nat) disk = .ok ((res,bytes),after) ∧
      SameVolume disk after ∧
      Outcome res bytes (fun pos => landedIndex fprivate 0 (offset/clusterSize fprivate) pos < (start::rest).length)
        (landedByte image disk fprivate (start::rest) 0 (offset/clusterSize fprivate)) offset total := by
  have positive : 0 < clusterSize fprivate := by
    apply Nat.pos_of_ne_zero
    intro zero
    rw [zero] at within
    omega
  obtain ⟨after,res,bytes,read,same,outcome,_⟩ := fat16ReadInternal_lands _ _ image mounted file fits some positive
    (Nat.le_trans within (chain_length mounted file fits.data))
  exact ⟨after,res,bytes,read,same,outcome⟩

-- The position is read as the file has it: its level lands on the chain, on a
-- cluster with the same byte at that place.
def LandsRight (image : Nat → UInt8) (disk : Disk) (fprivate : FatPrivate) (chain : List Nat)
    (first pos : Nat) : Prop :=
  landedIndex fprivate 0 first pos < chain.length ∧
    landedByte image disk fprivate chain 0 first pos = fileByte image disk fprivate chain pos

theorem Outcome.exact {lands : Nat → Prop} {byte file : Nat → UInt8} (outcome : Outcome res bytes lands byte offset total) :
    (res = eok ∧ bytes = slice file offset total) ↔
      ∀ pos, offset ≤ pos → pos < offset+total → lands pos ∧ byte pos = file pos := by
  rcases outcome with ⟨all,ended,delivered⟩ | ⟨⟨pos,low,high,outside⟩,failed⟩
  · subst ended delivered
    constructor
    · rintro ⟨_,equal⟩ pos low high
      obtain ⟨i,rfl⟩ := Nat.exists_eq_add_of_le low
      exact ⟨all _ low high,slice_eq_iff.mp equal i (by omega)⟩
    · intro right
      exact ⟨rfl,slice_congr (fun i small => (right (offset+i) (by omega) (by omega)).2)⟩
  · subst failed
    constructor
    · rintro ⟨ended,_⟩
      exact absurd ended (by decide)
    · intro right
      exact absurd (right pos low high).1 outside

-- A range inside one cluster, or inside the first two, always lands right: from
-- the third level on, and from the second one after a start further in, the
-- recursion has walked too far.
theorem lands_right_early (inChain : pos < chain.length*clusterSize fprivate)
    (early : pos/clusterSize fprivate = offset/clusterSize fprivate ∨
      offset/clusterSize fprivate = 0 ∧ pos/clusterSize fprivate = 1) :
    LandsRight image disk fprivate chain (offset/clusterSize fprivate) pos := by
  have positive : 0 < clusterSize fprivate := by
    apply Nat.pos_of_ne_zero
    intro zero
    rw [zero] at inChain
    omega
  have index : pos/clusterSize fprivate < chain.length := (Nat.div_lt_iff_lt_mul positive).mpr inChain
  have lands : landedIndex fprivate 0 (offset/clusterSize fprivate) pos = pos/clusterSize fprivate := by
    rcases early with same | ⟨first,second⟩
    · rw [landedIndex_first same,Nat.zero_add,same]
    · unfold landedIndex
      rw [first,second]
      rfl
  unfold LandsRight landedByte
  rw [lands]
  exact ⟨index,rfl⟩

theorem file_range (image : Nat → UInt8) (disk : Disk) (chain : List Nat) (some : 1 ≤ total)
    (within : offset+total ≤ chain.length*clusterSize fprivate) :
    ((chain.flatMap (clusterData image disk fprivate)).drop offset).take total =
      slice (fileByte image disk fprivate chain) offset total := by
  have positive : 0 < clusterSize fprivate := by
    apply Nat.pos_of_ne_zero
    intro zero
    rw [zero] at within
    omega
  rw [chain_data _ _ _ _ positive,drop_take_slice _ _ _ _ _ within,Nat.zero_add]

theorem fat16_read_internal_exact (image : Nat → UInt8) (mounted : Mounted disk fprivate)
    (file : FileChain image fprivate (start::rest)) (fits : Addressable disk fprivate (start::rest))
    (some : 1 ≤ total) (within : offset+total ≤ (start::rest).length*clusterSize fprivate) :
    ∃ after res bytes,
      fat16ReadInternal (imageDevice image) (start : Nat) (offset : Nat) (total : Nat) disk = .ok ((res,bytes),after) ∧
      ((res = eok ∧
        bytes = (((start::rest).flatMap (clusterData image disk fprivate)).drop offset).take total) ↔
        ∀ pos, offset ≤ pos → pos < offset+total →
          LandsRight image disk fprivate (start::rest) (offset/clusterSize fprivate) pos) := by
  obtain ⟨after,res,bytes,read,_,outcome⟩ := fat16ReadInternal_chain _ _ image mounted file fits some within
  refine ⟨after,res,bytes,read,?_⟩
  rw [file_range image disk (start::rest) some within]
  exact outcome.exact

-- A volume with 512-byte clusters that holds one file of three of them.
def threeImage (pos : Nat) : UInt8 :=
  if pos = 4 then 3 else if pos = 6 then 4 else if pos = 8 ∨ pos = 9 then 0xFF else UInt8.ofNat (pos/512)

def threePrivate : FatPrivate :=
  ⟨⟨1,0,1,0,1⟩,⟨0,0,0,1⟩,0,512,4096,8192,12288⟩

def threeDisk : Disk := ⟨512,some .fat16,some threePrivate,fun _ => some ⟨0⟩⟩

theorem three_mounted : Mounted threeDisk threePrivate :=
  ⟨rfl,by decide,fun _ _ => rfl,by decide,by decide,by decide,by decide⟩

theorem three_chain : FileChain threeImage threePrivate [2,3,4] :=
  ⟨⟨by decide,by decide,show nextCluster threeImage threePrivate 4 = none by decide⟩,by decide,by decide⟩

theorem three_fits : Addressable threeDisk threePrivate [2,3,4] := ⟨by decide,by decide⟩

theorem two_clusters_read :
    ∃ after, fat16ReadInternal (imageDevice threeImage) 2 0 1024 threeDisk =
      .ok ((eok,(([2,3,4].flatMap (clusterData threeImage threeDisk threePrivate)).drop 0).take 1024),after) := by
  obtain ⟨after,res,bytes,read,right⟩ := fat16_read_internal_exact threeImage three_mounted
    three_chain three_fits (show 1 ≤ 1024 by decide) (show 0+1024 ≤ _ by decide)
  have delivered := right.mpr (fun pos low high => by
    apply lands_right_early
    · exact Nat.lt_of_lt_of_le high (by decide)
    · show pos/512 = 0 ∨ 0 = 0 ∧ pos/512 = 1
      omega)
  exact ⟨after,by rw [← delivered.1,← delivered.2]; exact read⟩

-- The third level walks two entries on from the second cluster.
theorem three_clusters_unread :
    Mounted threeDisk threePrivate ∧ FileChain threeImage threePrivate [2,3,4] ∧
      Addressable threeDisk threePrivate [2,3,4] ∧
      ¬ ∃ after, fat16ReadInternal (imageDevice threeImage) 2 0 1536 threeDisk =
        .ok ((eok,(([2,3,4].flatMap (clusterData threeImage threeDisk threePrivate)).drop 0).take 1536),after) := by
  refine ⟨three_mounted,three_chain,three_fits,?_⟩
  intro ⟨after,delivered⟩
  obtain ⟨_,res,bytes,read,_,outcome⟩ := fat16ReadInternal_chain 0 1536 threeImage
    three_mounted three_chain three_fits (by decide) (by decide)
  have equal := Except.ok.inj (read.symm.trans delivered)
  simp only [Prod.mk.injEq] at equal
  rcases outcome with ⟨all,_,_⟩ | ⟨_,failed⟩
  · exact absurd (all 1024 (by omega) (by omega)) (by decide)
  · exact absurd (failed.symm.trans equal.1.1) (by decide)

end NutsOS.Fat16
