import NutsOS.Fat16.Chain
import NutsOS.Fat16.Classes
import NutsOS.Fat16.Frame
import NutsOS.Lib.Triple

-- Where the cluster reader stores the bytes it reads.
namespace NutsOS.Fat16
open Word32 Bytes DiskStreams Prog

def storesFrom (out : Nat) (bytes : List UInt8) : List (Nat × UInt8) := (List.range' out bytes.length).zip bytes

theorem storesFrom_addresses (out : Nat) (bytes : List UInt8) : (storesFrom out bytes).map Prod.fst = List.range' out bytes.length := by
  unfold storesFrom
  rw [List.map_fst_zip]
  rw [List.length_range']

structure Streaming (disk : Disk) (fprivate : FatPrivate) : Prop where
  private_eq : disk.fsPrivate = some fprivate
  cluster : (disk.streams fprivate.clusterReadStream).isSome
  fat : fprivate.fatReadStream ≠ 0 → (disk.streams fprivate.fatReadStream).isSome

theorem Streaming.after {before after : Disk} (streaming : Streaming before fprivate) (same : SameVolume before after) :
    Streaming after fprivate :=
  ⟨same.fsPrivate.trans streaming.private_eq,same.streams _ streaming.cluster,fun some => same.streams _ (streaming.fat some)⟩

def entryPos (fprivate : FatPrivate) (c : Int) : Int := toInt32 (fprivate.fatTableAddress+toInt32 (c*nutsosFat16FatEntrySize))

def startingPos (disk : Disk) (fprivate : FatPrivate) (c offset : Int) : Int :=
  toInt32 (toInt32 (fat16ClusterToSector fprivate c*disk.sectorSize)+offset.tmod fprivate.bytesPerCluster)

def Fits (pos : Int) (count : Nat) : Prop := 0 ≤ pos ∧ pos+count ≤ 2147483648

-- The i-th entry that a walk from a cluster looks up is that of this cluster.
inductive LooksUp (dev : BlockDevice) (base : Disk) : Int → Nat → Int → Prop where
  | first : LooksUp dev base c 0 c
  | next (same : SameVolume base disk) (read : fat16GetFatEntryForCluster dev c disk = .ok (entry,after)) (on : ¬ WalkEnds entry)
      (later : LooksUp dev base entry i d) : LooksUp dev base c (i+1) d

-- One call of the reader leads to another one, level by level.
inductive Calls (dev : BlockDevice) (base : Disk) (fprivate : FatPrivate) : Int → Nat → Nat → Int → Nat → Nat → Prop where
  | first : Calls dev base fprivate start offset total start offset total
  | deeper {offset total : Nat} (same : SameVolume base disk) (walked : fat16GetClusterForOffset dev start (offset : Nat) disk = .ok (c,after))
      (found : 0 ≤ c) (more : levelCount (clusterSize fprivate) offset total < total)
      (later : Calls dev base fprivate c (offset+levelCount (clusterSize fprivate) offset total)
        (total-levelCount (clusterSize fprivate) offset total) start' offset' total') :
      Calls dev base fprivate start offset total start' offset' total'

-- All positions that a call of the reader computes are non-negative ints.
structure PositionsFit (dev : BlockDevice) (base : Disk) (fprivate : FatPrivate) (start : Int) (offset total : Nat) : Prop where
  entries : ∀ s o t i c, Calls dev base fprivate start offset total s o t → i < o/clusterSize fprivate → LooksUp dev base s i c →
    Fits (entryPos fprivate c) 2
  data : ∀ s o t c disk after, Calls dev base fprivate start offset total s o t → SameVolume base disk →
    fat16GetClusterForOffset dev s o disk = .ok (c,after) → 0 ≤ c →
    Fits (startingPos base fprivate c o) (levelCount (clusterSize fprivate) o t)

-- What a call has stored: a prefix of the buffer when it reports an error, all
-- of it otherwise; each byte once and in order.
def Tiles (res : Int) (stores : List (Nat × UInt8)) (out total : Nat) : Prop :=
  ∃ count ≤ total, stores.map Prod.fst = List.range' out count ∧ (res < 0 ∨ res = eok ∧ count = total)

theorem Tiles.one (image : Nat → UInt8) (pos total out : Nat) : Tiles eok (storesFrom out (slice image pos total)) out total :=
  ⟨total,Nat.le_refl _,by rw [storesFrom_addresses,slice_length],.inr ⟨rfl,rfl⟩⟩

theorem Tiles.join (one : Tiles eok first out now) (two : Tiles res rest (out+now) (total-now)) (less : now ≤ total) :
    Tiles res (first++rest) out total := by
  obtain ⟨count,_,addresses,ended⟩ := one
  obtain ⟨more,within,later,result⟩ := two
  obtain ⟨_,rfl⟩ := ended.resolve_left (by decide)
  refine ⟨count+more,by omega,?_,?_⟩
  · rw [List.map_append,addresses,later,List.range'_append_1]
  · rcases result with failed | ⟨done,whole⟩
    · exact .inl failed
    · exact .inr ⟨done,by omega⟩

theorem PositionsFit.deeper {base disk : Disk} (fits : PositionsFit dev base fprivate start offset total) (same : SameVolume base disk)
    (walked : fat16GetClusterForOffset dev start (offset : Nat) disk = .ok (c,after)) (found : 0 ≤ c)
    (more : levelCount (clusterSize fprivate) offset total < total) :
    PositionsFit dev base fprivate c (offset+levelCount (clusterSize fprivate) offset total)
      (total-levelCount (clusterSize fprivate) offset total) :=
  ⟨fun s o t i d called => fits.entries s o t i d (.deeper same walked found more called),
    fun s o t d before later called => fits.data s o t d before later (.deeper same walked found more called)⟩

end NutsOS.Fat16
