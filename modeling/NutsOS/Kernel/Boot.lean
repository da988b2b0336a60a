import Mathlib.Tactic.NormNum
import NutsOS.Kernel.State

-- The kernel's memory when kheap_init has run and nothing is allocated yet.
namespace NutsOS
open Word32 HeapAlloc Fat16

def nutsosHeapSizeBytes : Nat := 512*(1024*1024)
def nutsosHeapAddress : Nat := 0x01000000

-- `entries` is what the memory at the table's address held before.
def kheapInit (heap : Heap) (entries : Int → UInt8) : Int × Heap :=
  heapCreate heap nutsosHeapAddress (nutsosHeapAddress+nutsosHeapSizeBytes)
    ⟨entries,nutsosHeapSizeBytes/nutsosHeapBlockSize⟩

-- Static variables start out zeroed.
def bootKernel (entries : Int → UInt8) (disk : Disk) : Kernel where
  heap := (kheapInit ⟨⟨fun _ => 0,0⟩,0⟩ entries).2
  objs := fun _ => none
  disk := disk
  fileDescriptors := fun _ => 0
  errno := 0
  processes := fun _ => 0
  currentTask := 0
  taskHead := 0
  taskTail := 0
  currentDirectory := 0

def noDisk : Disk := ⟨512,none,none,fun _ => none⟩

def clearedEntries (entries : Int → UInt8) (i : Int) : UInt8 :=
  if 0 ≤ i ∧ i < (131072 : Nat) then heapBlockTableEntryFree else entries i

theorem kheapInit_heap (heap : Heap) (entries : Int → UInt8) :
    kheapInit heap entries = (0,⟨⟨clearedEntries entries,131072⟩,0x01000000⟩) := by
  have total : nutsosHeapSizeBytes/nutsosHeapBlockSize = 131072 := by
    norm_num [nutsosHeapSizeBytes,nutsosHeapBlockSize]
  have pool : nutsosHeapAddress+nutsosHeapSizeBytes = 553648128 := by
    norm_num [nutsosHeapAddress,nutsosHeapSizeBytes]
  have aligned : heapValidateAlignment nutsosHeapAddress = true ∧ heapValidateAlignment 553648128 = true := by
    constructor <;> rfl
  have checked : heapValidateTable nutsosHeapAddress 553648128 ⟨entries,131072⟩ = 0 := by
    have bytes : toUint32 (((553648128 : Nat) : Int)-(nutsosHeapAddress : Nat)) = 536870912 := by
      unfold toUint32 nutsosHeapAddress
      omega
    unfold heapValidateTable
    rw [bytes]
    norm_num [nutsosHeapBlockSize]
  unfold kheapInit heapCreate
  rw [total,pool]
  simp only [aligned,checked]
  rfl

theorem boot_heap (entries : Int → UInt8) (disk : Disk) :
    (bootKernel entries disk).heap = ⟨⟨clearedEntries entries,131072⟩,0x01000000⟩ :=
  congrArg Prod.snd (kheapInit_heap ⟨⟨fun _ => 0,0⟩,0⟩ entries)

-- Right below the table ends the boot sector, with the bytes 0x55 and 0xAA.
theorem boot_valid (entries : Int → UInt8) (disk : Disk) (signature : entries (-2) = 0x55) :
    HeapValid (bootKernel entries disk) := by
  refine ⟨∅,?_,?_,?_,fun ptr held => by cases held⟩
  · rw [boot_heap]
    exact ⟨by norm_num,by norm_num,by norm_num⟩
  · rw [boot_heap]
    apply Decodes.toTiled
    apply decodes_empty
    intro i low high
    exact if_pos ⟨low,high⟩
  · rw [boot_heap]
    refine ⟨-2,by norm_num,by norm_num,?_⟩
    have below : clearedEntries entries (-2) = entries (-2) := if_neg (by norm_num)
    dsimp only
    rw [below,signature]
    decide

-- The memory around the table, as the boot loader leaves it.
def bootEntries (i : Int) : UInt8 := if i = -2 then 0x55 else if i = -1 then 0xAA else 0

theorem cleared_free (entries : Int → UInt8) (inside : i < 131072) : IsFree (clearedEntries entries) i := by
  have free : clearedEntries entries i = heapBlockTableEntryFree := if_pos (by omega)
  unfold IsFree
  rw [free]
  decide

theorem boot_room (entries : Int → UInt8) (disk : Disk) : Room (bootKernel entries disk).heap 131072 := by
  rw [boot_heap]
  exact ⟨0,Nat.le_of_eq (Nat.zero_add _),fun i _ high => cleared_free entries high⟩

end NutsOS
