import NutsOS.Config
import NutsOS.Lib.Word32

-- heap.c: the block table of a heap and the first-fit allocator over it.
namespace NutsOS.HeapAlloc
open Word32

def heapBlockTableEntryTaken : UInt8 := 0b00000001
def heapBlockTableEntryFree : UInt8 := 0b00000000
def heapBlockMaskType : UInt8 := 0b00000001
def heapBlockHasNext : UInt8 := 0b10000000
def heapBlockIsFirst : UInt8 := 0b01000000

-- `entries` is the memory seen from the entries pointer, in both directions:
-- the table is the part at the indexes 0, ..., total-1.
structure HeapTable where
  entries : Int → UInt8
  total : Nat

structure Heap where
  table : HeapTable
  saddr : Nat

def writeEntry (entries : Int → UInt8) (i : Int) (value : UInt8) : Int → UInt8 :=
  fun j => if j = i then value else entries j

def heapValidateTable (ptr endPtr : Nat) (table : HeapTable) : Int :=
  let tableSize := toUint32 (endPtr - ptr)
  let totalBlocks := tableSize / nutsosHeapBlockSize
  if table.total ≠ totalBlocks then -einvarg else 0

def heapValidateAlignment (ptr : Nat) : Bool := ptr % nutsosHeapBlockSize == 0

def heapCreate (heap : Heap) (ptr endPtr : Nat) (table : HeapTable) : Int × Heap :=
  if !heapValidateAlignment ptr || !heapValidateAlignment endPtr then (-einvarg,heap) else
  let heap : Heap := ⟨table,ptr⟩
  let res := heapValidateTable ptr endPtr table
  if res < 0 then (res,heap) else
  let cleared := fun i : Int => if 0 ≤ i ∧ i < table.total then heapBlockTableEntryFree else table.entries i
  (0,{heap with table := {table with entries := cleared}})

def heapAlignValueToUpper (val : Nat) : Nat :=
  if val % nutsosHeapBlockSize = 0 then val else
  toUint32 ((val - val % nutsosHeapBlockSize : Nat) + nutsosHeapBlockSize)

def heapGetEntryType (entry : UInt8) : UInt8 := entry &&& heapBlockMaskType

-- The scan of heap_get_next_free_block over the `count` entries from index i:
-- bc free blocks counted in the current run, bs its first index or -1.
def heapScan (entries : Int → UInt8) (totalBlocks : Nat) : Nat → Nat → Nat → Int → Int
  | 0,_,_,bs => bs
  | count+1,i,bc,bs =>
    if heapGetEntryType (entries i) ≠ heapBlockTableEntryFree then
      heapScan entries totalBlocks count (i+1) 0 (-1)
    else
      let bs := if bs = -1 then (i : Int) else bs
      let bc := bc+1
      if bc = totalBlocks then bs else heapScan entries totalBlocks count (i+1) bc bs

def heapGetNextFreeBlock (heap : Heap) (totalBlocks : Nat) : Int :=
  let bs := heapScan heap.table.entries totalBlocks heap.table.total 0 0 (-1)
  if bs = -1 then -enomem else bs

def heapBlockToAddress (heap : Heap) (block : Int) : Nat :=
  toUint32 (heap.saddr + block * nutsosHeapBlockSize)

def heapAddressToBlock (heap : Heap) (address : Nat) : Int :=
  (toInt32 (address - heap.saddr)).tdiv nutsosHeapBlockSize

-- The marking loop: `count` more entries from index i, the first one written
-- as `entry`. The indexes written are returned with the table.
def markTakenLoop (endBlock : Int) : Nat → Int → UInt8 → (Int → UInt8) → (Int → UInt8) × List Int
  | 0,_,_,entries => (entries,[])
  | count+1,i,entry,entries =>
    let entries := writeEntry entries i entry
    let entry := heapBlockTableEntryTaken
    let entry := if i ≠ endBlock - 1 then entry ||| heapBlockHasNext else entry
    let (entries,written) := markTakenLoop endBlock count (i+1) entry entries
    (entries,i::written)

def heapMarkBlocksTaken (heap : Heap) (startBlock totalBlocks : Int) : Heap × List Int :=
  let endBlock := startBlock + totalBlocks - 1
  let entry := heapBlockTableEntryTaken ||| heapBlockIsFirst
  let entry := if totalBlocks > 1 then entry ||| heapBlockHasNext else entry
  let (entries,written) :=
    markTakenLoop endBlock (endBlock + 1 - startBlock).toNat startBlock entry heap.table.entries
  ({heap with table := {heap.table with entries := entries}},written)

def heapMallocBlocks (heap : Heap) (totalBlocks : Nat) : Nat × Heap × List Int :=
  let startBlock := heapGetNextFreeBlock heap totalBlocks
  if startBlock < 0 then (0,heap,[]) else
  let address := heapBlockToAddress heap startBlock
  let (heap,written) := heapMarkBlocksTaken heap startBlock totalBlocks
  (address,heap,written)

-- The freeing loop: at most `count` entries from index i, up to the first one
-- that does not announce a next block.
def markFreeLoop : Nat → Int → (Int → UInt8) → (Int → UInt8) × List Int
  | 0,_,entries => (entries,[])
  | count+1,i,entries =>
    let entry := entries i
    let entries := writeEntry entries i heapBlockTableEntryFree
    if entry &&& heapBlockHasNext = 0 then (entries,[i]) else
    let (entries,written) := markFreeLoop count (i+1) entries
    (entries,i::written)

def heapMarkBlocksFree (heap : Heap) (startingBlock : Int) : Heap × List Int :=
  let (entries,written) :=
    markFreeLoop (heap.table.total - startingBlock).toNat startingBlock heap.table.entries
  ({heap with table := {heap.table with entries := entries}},written)

def heapMalloc (heap : Heap) (size : Nat) : Nat × Heap × List Int :=
  let alignedSize := heapAlignValueToUpper size
  let totalBlocks := alignedSize / nutsosHeapBlockSize
  heapMallocBlocks heap totalBlocks

def heapFree (heap : Heap) (ptr : Nat) : Heap × List Int :=
  heapMarkBlocksFree heap (heapAddressToBlock heap ptr)

end NutsOS.HeapAlloc
