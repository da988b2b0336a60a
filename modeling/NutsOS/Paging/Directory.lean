import NutsOS.Lib.Word32
import NutsOS.Kernel.State

-- paging.c: page directories in kernel memory.
namespace NutsOS.Paging
open Word32

def pagingIsPresent : Nat := 0b00000001
def pagingIsWriteable : Nat := 0b00000010
def pagingAccessFromAll : Nat := 0b00000100

def pagingTotalDirEntries : Nat := 1024
def pagingTotalEntriesPerTable : Nat := 1024
def pagingPageSize : Nat := 4096

def pagingEntryGetPointer (entry : Nat) : Nat := entry &&& 0xFFFFF000
def pagingEntrySetFlags (entry : Nat) (flags : Int) : Nat := entry ||| toUint32 flags
def pagingEntryGetFlags (entry : Nat) : Nat := entry &&& 0xFFF

def asWords : Obj → Option Words
  | .words words => some words
  | _ => none

def asPagingChunk : Obj → Option PagingChunk
  | .pagingChunk chunk => some chunk
  | _ => none

theorem asWords_eq (obj : Obj) (words : Words) (typed : asWords obj = some words) : obj = .words words := by
  cases obj <;> cases typed
  rfl

theorem asPagingChunk_eq (obj : Obj) (chunk : PagingChunk) (typed : asPagingChunk obj = some chunk) : obj = .pagingChunk chunk := by
  cases obj <;> cases typed
  rfl

def Words.set (words : Words) (i value : Nat) : Words :=
  {words with word := fun j => if j = i then value else words.word j}

def getWord (ptr i : Nat) : KernelProg Nat := do
  let words ← loadAs asWords ptr
  if words.count ≤ i then Prog.fault (.outOfBounds i) else
  return words.word i

def setWord (ptr i value : Nat) : KernelProg Unit := do
  let words ← loadAs asWords ptr
  if words.count ≤ i then Prog.fault (.outOfBounds i) else
  store ptr (.words (Words.set words i value))

def zeroWords (count : Int) : Obj := .words ⟨count.toNat,fun _ => 0⟩

-- The loop over the entries of one table: `count` more from index b.
def fillTable (entry : Nat) (offset : Int) (flags : Nat) : Nat → Nat → KernelProg Unit
  | 0,_ => pure ()
  | count+1,b => do
    setWord entry b (toUint32 (toInt32 (offset + toInt32 (b*pagingPageSize))) ||| flags)
    fillTable entry offset flags count (b+1)

-- The loop over the directory: `count` more tables from index i.
def fillDirectory (directory : Nat) (pageEntries : Int) (flags : Nat) : Nat → Nat → Int → KernelProg Unit
  | 0,_,_ => pure ()
  | count+1,i,offset => do
    let entry ← kzalloc (toUint32 (4*pageEntries)) (zeroWords pageEntries)
    fillTable entry offset flags pageEntries.toNat 0
    setWord directory i (entry ||| (flags ||| pagingIsWriteable))
    fillDirectory directory pageEntries flags count (i+1) (toInt32 (offset + toInt32 (pageEntries*pagingPageSize)))

def pagingChunkNew (dirEntries pageEntries : Int) (flags : Nat) : KernelProg Nat := do
  let directory ← kzalloc (toUint32 (4*dirEntries)) (zeroWords dirEntries)
  fillDirectory directory pageEntries flags dirEntries.toNat 0 0
  let chunk ← kzalloc 12 (.pagingChunk ⟨0,0,0⟩)
  let _ ← loadAs asPagingChunk chunk
  store chunk (.pagingChunk ⟨directory,dirEntries,pageEntries⟩)
  return chunk

-- The loop of paging_chunk_free: `count` more directory entries from index i.
def freeTables (directory : Nat) : Nat → Nat → KernelProg Unit
  | 0,_ => pure ()
  | count+1,i => do
    let entry ← getWord directory i
    kfree (pagingEntryGetPointer entry)
    freeTables directory count (i+1)

def pagingChunkFree (chunk : Nat) : KernelProg Unit := do
  let c ← loadAs asPagingChunk chunk
  freeTables c.directoryEntry pagingTotalDirEntries 0
  kfree c.directoryEntry
  kfree chunk

def pagingSwitch (directory : Nat) : KernelProg Unit :=
  Prog.modify (fun k => {k with currentDirectory := directory})

def pagingIsAligned (addr : Nat) : Bool := addr % pagingPageSize == 0

def pagingAlignAddress (ptr : Nat) : Nat :=
  let reminder := ptr % pagingPageSize
  if reminder ≠ 0 then toUint32 ((ptr : Int) - reminder + pagingPageSize) else ptr

def pagingGetIndexes (virtualAddress : Nat) : Except Int (Nat × Nat) :=
  if !pagingIsAligned virtualAddress then .error (-einvarg) else
  .ok (virtualAddress / (pagingTotalEntriesPerTable*pagingPageSize),
    virtualAddress % (pagingTotalEntriesPerTable*pagingPageSize) / pagingPageSize)

def pagingSet (directory virt pdesc : Nat) : KernelProg Int := do
  if !pagingIsAligned virt then return -einvarg
  match pagingGetIndexes virt with
  | .error res => return res
  | .ok (directoryIndex,tableIndex) =>
    let entry ← getWord directory directoryIndex
    let table := pagingEntryGetPointer entry
    setWord table tableIndex pdesc
    return 0

def pagingMap (directory virt phys : Nat) (flags : Int) : KernelProg Int := do
  if !pagingIsAligned virt || !pagingIsAligned phys then return -einvarg
  pagingSet directory virt (pagingEntrySetFlags phys flags)

-- The loop of paging_map_range, with the result of the last pass.
def mapRangeLoop (directory : Nat) (flags : Int) : Nat → Nat → Nat → Int → KernelProg Int
  | 0,_,_,res => pure res
  | count+1,virt,phys,_ => do
    let res ← pagingMap directory virt phys flags
    if res < 0 then return res
    mapRangeLoop directory flags count (toUint32 ((virt : Int)+pagingPageSize)) (toUint32 ((phys : Int)+pagingPageSize)) res

def pagingMapRange (directory virt phys : Nat) (count flags : Int) : KernelProg Int :=
  mapRangeLoop directory flags count.toNat virt phys 0

def pagingMapTo (directory virt phys physEnd : Nat) (flags : Int) : KernelProg Int := do
  if virt % pagingPageSize ≠ 0 ∨ phys % pagingPageSize ≠ 0 ∨ physEnd % pagingPageSize ≠ 0 then return -einvarg
  if physEnd < phys then return -einvarg
  let totalBytes := toUint32 ((physEnd : Int)-phys)
  let totalPages := toInt32 (totalBytes / pagingPageSize : Nat)
  pagingMapRange directory virt phys totalPages flags

end NutsOS.Paging
