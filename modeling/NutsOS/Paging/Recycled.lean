import NutsOS.Heap.Sweep
import NutsOS.Paging.Refinement

-- paging_chunk_new and paging_chunk_free for every dimension, over memory that
-- was in use before.
namespace NutsOS.Paging
open Word32 HeapAlloc Prog

-- A block is 1024 words. kzalloc clears the ones it was asked for; `prior` is
-- what the others hold.
def recycledWords (count : Int) (prior : Nat → Nat) : Obj :=
  .words ⟨1024,fun j => if count.toNat ≤ j ∧ j < 1024 then prior j else 0⟩

-- The loop of paging_chunk_new over the directory: `count` more tables.
def fillDirectoryOn (tables : Nat → Nat → Nat) (directory : Nat) (pageEntries : Int) (flags : Nat) : Nat → Nat → Int → KernelProg Unit
  | 0,_,_ => pure ()
  | count+1,i,offset => do
    let entry ← kzalloc (toUint32 (4*pageEntries)) (recycledWords pageEntries (tables i))
    fillTable entry offset flags pageEntries.toNat 0
    setWord directory i (entry ||| (flags ||| pagingIsWriteable))
    fillDirectoryOn tables directory pageEntries flags count (i+1) (toInt32 (offset + toInt32 (pageEntries*pagingPageSize)))

def pagingChunkNewOn (prior : Nat → Nat) (tables : Nat → Nat → Nat) (dirEntries pageEntries : Int) (flags : Nat) : KernelProg Nat := do
  let directory ← kzalloc (toUint32 (4*dirEntries)) (recycledWords dirEntries prior)
  fillDirectoryOn tables directory pageEntries flags dirEntries.toNat 0 0
  let chunk ← kzalloc 12 (.pagingChunk ⟨0,0,0⟩)
  let _ ← loadAs asPagingChunk chunk
  store chunk (.pagingChunk ⟨directory,dirEntries,pageEntries⟩)
  return chunk

theorem recycledWords_full (prior : Nat → Nat) : recycledWords 1024 prior = zeroWords 1024 := by
  unfold recycledWords zeroWords
  congr 2
  funext j
  exact if_neg (by omega)

theorem fillDirectoryOn_full (tables : Nat → Nat → Nat) (directory flags count i : Nat) (offset : Int) :
    fillDirectoryOn tables directory 1024 flags count i offset = fillDirectory directory 1024 flags count i offset := by
  induction count generalizing i offset with
  | zero => rfl
  | succ count ih =>
    unfold fillDirectoryOn fillDirectory
    simp only [recycledWords_full,ih]

theorem pagingChunkNewOn_full (prior : Nat → Nat) (tables : Nat → Nat → Nat) (flags : Nat) :
    pagingChunkNewOn prior tables 1024 1024 flags = pagingChunkNew 1024 1024 flags := by
  unfold pagingChunkNewOn pagingChunkNew
  simp only [recycledWords_full,fillDirectoryOn_full]

-- The loop of paging_chunk_free. heap_free writes nothing but its table, so the
-- words can still be read when one of them led to the directory itself.
def freePointers (word : Nat → Nat) : Nat → Nat → KernelProg Unit
  | 0,_ => pure ()
  | count+1,i => do
    kfree (pagingEntryGetPointer (word i))
    freePointers word count (i+1)

def pagingChunkFreeOn (chunk : Nat) : KernelProg Unit := do
  let c ← loadAs asPagingChunk chunk
  let words ← loadAs asWords c.directoryEntry
  freePointers words.word pagingTotalDirEntries 0
  kfree c.directoryEntry
  kfree chunk

theorem kfree_total (ptr : Nat) (k : Kernel) : kfree ptr k = .ok ((),(k.withHeap (heapFree k.heap ptr).1).drop ptr) := rfl

-- What paging_chunk_free gives back as long as it does not read the directory
-- after freeing it.
theorem freeTables_reads {k : Kernel} (held : k.objs directory = some (.words words))
    (ran : freeTables directory count i k = .ok ((),after)) : freePointers words.word count i k = .ok ((),after) := by
  induction count generalizing i k with
  | zero => exact ran
  | succ count ih =>
    obtain ⟨entry,one,got,ran⟩ := bind_ok.mp ran
    obtain ⟨found,two,loaded,got⟩ := bind_ok.mp got
    obtain ⟨rfl,array⟩ := load_held asWords_eq loaded
    cases held.symm.trans array
    have inside : i < words.count := by
      by_contra outside
      rw [if_pos (by omega)] at got
      cases got
    rw [if_neg (by omega)] at got
    cases got
    rw [bind_run (kfree_total _ _)] at ran
    rw [freePointers,bind_run (kfree_total _ _)]
    by_cases same : pagingEntryGetPointer (words.word i) = directory
    · cases count with
      | zero => exact ran
      | succ count =>
        obtain ⟨_,_,got,_⟩ := bind_ok.mp ran
        obtain ⟨_,_,loaded,_⟩ := bind_ok.mp got
        have present := (load_held asWords_eq loaded).2
        rw [same,Kernel.drop_same] at present
        cases present
    · apply ih _ ran
      rw [Kernel.drop_other (Ne.symm same)]
      exact held

theorem pagingChunkFree_reads {k : Kernel} (ran : pagingChunkFree chunk k = .ok ((),after)) :
    pagingChunkFreeOn chunk k = .ok ((),after) := by
  obtain ⟨c,one,loaded,ran⟩ := bind_ok.mp ran
  obtain ⟨rfl,chunkHeld⟩ := load_held asPagingChunk_eq loaded
  obtain ⟨⟨⟩,two,tables,ran⟩ := bind_ok.mp ran
  have first := tables
  obtain ⟨_,_,got,_⟩ := bind_ok.mp (show freeTables c.directoryEntry (1023+1) 0 k = _ from first)
  obtain ⟨words,_,loaded,_⟩ := bind_ok.mp got
  obtain ⟨_,held⟩ := load_held asWords_eq loaded
  unfold pagingChunkFreeOn
  rw [bind_run (loadAs_run asPagingChunk chunkHeld rfl),bind_run (loadAs_run asWords held rfl),
    bind_run (freeTables_reads held tables)]
  exact ran

theorem freeAll_append (heap : Heap) (front back : List Nat) : freeAll heap (front++back) = freeAll (freeAll heap front) back := by
  induction front generalizing heap with
  | nil => rfl
  | cons ptr rest ih => exact ih _

theorem freePointers_run (word : Nat → Nat) (count i : Nat) (k : Kernel) :
    ∃ after, freePointers word count i k = .ok ((),after) ∧
      after.heap = freeAll k.heap ((List.range' i count).map (fun j => pagingEntryGetPointer (word j))) := by
  induction count generalizing i k with
  | zero => exact ⟨k,rfl,rfl⟩
  | succ count ih =>
    obtain ⟨after,ran,heap⟩ := ih (i+1) ((k.withHeap (heapFree k.heap (pagingEntryGetPointer (word i))).1).drop
      (pagingEntryGetPointer (word i)))
    refine ⟨after,?_,?_⟩
    · rw [freePointers,bind_run (kfree_total _ _)]
      exact ran
    · rw [heap,List.range'_succ]
      rfl

def freedPointers (chunk directory : Nat) (word : Nat → Nat) : List Nat :=
  (List.range' 0 1024).map (fun j => pagingEntryGetPointer (word j))++[directory,chunk]

theorem pagingChunkFreeOn_run {k : Kernel} (chunkHeld : k.objs chunk = some (.pagingChunk c))
    (held : k.objs c.directoryEntry = some (.words words)) : ∃ after, pagingChunkFreeOn chunk k = .ok ((),after) ∧
      after.heap = freeAll k.heap (freedPointers chunk c.directoryEntry words.word) := by
  obtain ⟨one,ran,heap⟩ := freePointers_run words.word pagingTotalDirEntries 0 k
  let two := (one.withHeap (heapFree one.heap c.directoryEntry).1).drop c.directoryEntry
  refine ⟨(two.withHeap (heapFree two.heap chunk).1).drop chunk,?_,?_⟩
  · unfold pagingChunkFreeOn
    rw [bind_run (loadAs_run asPagingChunk chunkHeld rfl),bind_run (loadAs_run asWords held rfl),bind_run ran,
      bind_run (kfree_total _ _)]
    rfl
  · unfold freedPointers
    rw [freeAll_append]
    show freeAll one.heap [c.directoryEntry,chunk] = _
    rw [heap]
    rfl

-- The blocks that were handed out since `base` start at these pointers.
def OwnBlock (base : Heap) (owned : List Nat) (i : Int) : Prop := ∃ ptr ∈ owned, heapAddressToBlock base ptr = i

structure Handing (base k : Kernel) (owned : List Nat) : Prop where
  valid : HeapValid k
  pool : SamePool base.heap k.heap
  handed : Handed base.heap.table.entries k.heap.table.entries base.heap.table.total (OwnBlock base.heap owned)
  inside : ∀ ptr ∈ owned, ∃ start < base.heap.table.total, ptr = base.heap.saddr+start*4096

theorem Handing.start (valid : HeapValid k) : Handing k k [] := by
  refine ⟨valid,⟨rfl,rfl⟩,⟨fun _ _ _ _ => rfl,?_,fun _ _ => .inl rfl⟩,fun ptr member => (List.not_mem_nil member).elim⟩
  intro i ⟨ptr,member,_⟩
  exact (List.not_mem_nil member).elim

theorem Handing.place (handing : Handing base k owned) (held : (k.objs ptr).isSome) (obj : Obj) :
    Handing base (k.place ptr obj) owned :=
  ⟨handing.valid.place held obj,handing.pool,handing.handed,handing.inside⟩

-- One more block, or none because there is no room.
structure Handing.Next (base k : Kernel) (owned : List Nat) (zero : Obj) (ptr : Nat) (after : Kernel) : Prop where
  empty : k.objs ptr = none
  low : ptr ≠ 0 ∧ ptr%4096 = 0 ∧ ptr+4096 ≤ 2147483648
  objs : ∀ a, after.objs a = (k.place ptr zero).objs a
  handing : Handing base after (ptr::owned)

theorem Handing.alloc (handing : Handing base k owned) (zero : Obj) (positive : 1 ≤ size) (small : size ≤ 4096) :
    ∃ ptr after, kzalloc size zero k = .ok (ptr,after) ∧ (∀ rest, Room k.heap (1+rest) → ptr ≠ 0 ∧ Room after.heap rest) ∧
      ((ptr = 0 ∧ after = k) ∨ Handing.Next base k owned zero ptr after) := by
  have one := blocksFor_single positive small
  obtain ⟨ptr,after,ran,result,serves⟩ := kzalloc_run _ handing.valid zero positive (by omega)
  have fresh : ptr ≠ 0 → k.objs ptr = none ∧ (ptr ≠ 0 ∧ ptr%4096 = 0 ∧ ptr+4096 ≤ 2147483648) ∧ HeapValid after := by
    intro some
    cases result with
    | null => exact absurd rfl some
    | fresh _ _ empty low valid => exact ⟨empty,low,valid⟩
  refine ⟨ptr,after,ran,?_,?_⟩
  · intro rest room
    obtain ⟨some,_,left⟩ := serves rest (by rw [one]; exact room)
    exact ⟨some,left⟩
  clear serves result
  rcases heapMalloc_cases _ k.heap (by omega : 0 < blocksFor size) with refused | ⟨start,inside,free,granted⟩
  · left
    unfold kzalloc at ran
    rw [bind_run (kmalloc_run refused)] at ran
    cases ran
    exact ⟨rfl,rfl⟩
  · right
    obtain ⟨allocated,_⟩ := kzalloc_granted _ handing.valid zero (by omega) (align_bounds (by omega)) inside free granted
    rw [one] at allocated
    rw [allocated] at ran
    cases ran
    have inPool : start < base.heap.table.total := by
      rw [← handing.pool.total]
      exact inside
    have block : heapAddressToBlock base.heap (k.heap.saddr+start*4096) = (start : Nat) := by
      rw [← handing.pool.block]
      exact handing.valid.pool.block inside
    have clear : k.heap.table.entries (start : Nat) = heapBlockTableEntryFree := by
      obtain ⟨chunks,holds⟩ := handing.valid
      have first := free start (Nat.le_refl _) (by omega) inside
      exact holds.tiled.free start (by omega) (by omega) (fun c member covers => holds.tiled.covered_taken member covers inside first)
    have positive := handing.valid.pool.low
    obtain ⟨empty,low,valid⟩ := fresh (by omega)
    refine ⟨empty,low,fun _ => rfl,valid,⟨handing.pool.saddr,handing.pool.total⟩,?_,?_⟩
    · refine handing.handed.grant inPool clear (fun i => ?_)
      constructor
      · rintro ⟨p,member,same⟩
        rcases List.mem_cons.mp member with rfl | old
        · exact .inl (same.symm.trans block)
        · exact .inr ⟨p,old,same⟩
      · rintro (same | ⟨p,old,same⟩)
        · exact ⟨_,List.mem_cons_self,block.trans same.symm⟩
        · exact ⟨p,List.mem_cons_of_mem _ old,same⟩
    · intro p member
      rcases List.mem_cons.mp member with rfl | old
      · exact ⟨start,inPool,by rw [handing.pool.saddr]⟩
      · exact handing.inside p old

-- The directory after its first i entries: the words from `cleared` on are old.
structure Laid (base k : Kernel) (prior : Nat → Nat) (cleared directory i : Nat) (table : Nat → Nat) (owned : List Nat) : Prop where
  handing : Handing base k owned
  held : ∃ words, k.objs directory = some (.words words) ∧ words.count = 1024 ∧
    (∀ j < i, pagingEntryGetPointer (words.word j) = table j) ∧ ∀ j, cleared ≤ j → j < 1024 → words.word j = prior j
  member : ∀ ptr, ptr ∈ owned ↔ ptr = directory ∨ ∃ j < i, ptr = table j
  tables : ∀ j < i, ∃ words, k.objs (table j) = some (.words words) ∧ words.count = 1024
  apart : ∀ j < i, table j ≠ directory

theorem Laid.next (laid : Laid base k prior cleared directory i table owned) (next : Handing.Next base k owned zero ptr one)
    (held : k.objs directory = some (.words words)) (before : i < cleared) (small : flags < 4096) (array : Words)
    (full : array.count = 1024) :
    Laid base ((one.place ptr (.words array)).place directory (.words (Words.set words i (ptr ||| flags)))) prior cleared directory (i+1)
      (fun j => if j = i then ptr else table j) (ptr::owned) := by
  have other : directory ≠ ptr := by
    intro same
    rw [same,next.empty] at held
    cases held
  have old : ∀ j < i, table j ≠ ptr := by
    intro j low same
    obtain ⟨_,live,_⟩ := laid.tables j low
    rw [same,next.empty] at live
    cases live
  have kept (a : Nat) (different : a ≠ ptr) : one.objs a = k.objs a := (next.objs a).trans (Kernel.place_other different)
  have still : ((one.place ptr (.words array)).objs directory).isSome := by
    rw [Kernel.place_other other,kept directory other,held]
    rfl
  have placed : (one.objs ptr).isSome := by
    rw [next.objs,Kernel.place_same]
    rfl
  obtain ⟨words',held',count,pointers,rest⟩ := laid.held
  cases held.symm.trans held'
  have pointer : pagingEntryGetPointer (ptr ||| flags) = ptr := or_flags_frame next.low.2.1 small (by have := next.low.2.2; omega)
  refine ⟨(next.handing.place placed (.words array)).place still _,⟨_,Kernel.place_same _ _ _,count,?_,?_⟩,?_,?_,?_⟩
  · intro j low
    by_cases last : j = i
    · simp only [Words.set,last,if_true]
      exact pointer
    · simp only [Words.set,last,if_false]
      exact pointers j (by omega)
  · intro j low high
    have later : j ≠ i := by omega
    simp only [Words.set,later,if_false]
    exact rest j low high
  · intro p
    rw [List.mem_cons,laid.member p]
    constructor
    · rintro (rfl | here | ⟨j,low,same⟩)
      · exact .inr ⟨i,Nat.lt_succ_self i,(if_pos rfl).symm⟩
      · exact .inl here
      · exact .inr ⟨j,by omega,same.trans (if_neg (by omega)).symm⟩
    · rintro (here | ⟨j,low,same⟩)
      · exact .inr (.inl here)
      · by_cases last : j = i
        · exact .inl (same.trans (if_pos last))
        · exact .inr (.inr ⟨j,by omega,same.trans (if_neg last)⟩)
  · intro j low
    by_cases last : j = i
    · rw [if_pos last,Kernel.place_other (Ne.symm other),Kernel.place_same]
      exact ⟨array,rfl,full⟩
    · rw [if_neg last,Kernel.place_other (laid.apart j (by omega)),Kernel.place_other (old j (by omega)),kept _ (old j (by omega))]
      exact laid.tables j (by omega)
  · intro j low
    by_cases last : j = i
    · rw [if_pos last]
      exact Ne.symm other
    · rw [if_neg last]
      exact laid.apart j (by omega)

theorem wordBytes (small : n ≤ 1024) : toUint32 (4*((n : Nat) : Int)) = 4*n := by
  unfold toUint32
  omega

theorem fillDirectoryOn_run (count : Nat) (laid : Laid base k prior cleared directory i table owned) (tables : Nat → Nat → Nat)
    (dims : 1 ≤ p ∧ p ≤ 1024)
    (small : flags < 256) (left : i+count = cleared) (inside : cleared ≤ 1024) (offset : Int) :
    (∃ after table owned, fillDirectoryOn tables directory (p : Nat) flags count i offset k = .ok ((),after) ∧
      Laid base after prior cleared directory cleared table owned ∧ ∀ rest, Room k.heap (count+rest) → Room after.heap rest) ∨
    (fillDirectoryOn tables directory (p : Nat) flags count i offset k = .error .nullDeref ∧ ∀ rest, ¬ Room k.heap (count+rest)) := by
  induction count generalizing k i table owned offset with
  | zero =>
    obtain rfl : i = cleared := left
    exact .inl ⟨k,table,owned,rfl,laid,fun rest room => by rwa [Nat.zero_add] at room⟩
  | succ count ih =>
    obtain ⟨ptr,one,allocated,room,result⟩ := laid.handing.alloc (recycledWords p (tables i)) (by omega : 1 ≤ 4*p) (by omega)
    have more : ∀ rest, Room k.heap (count+1+rest) → ptr ≠ 0 ∧ Room one.heap (count+rest) := by
      intro rest given
      exact room (count+rest) (by rw [show 1+(count+rest) = count+1+rest by omega]; exact given)
    rw [fillDirectoryOn,wordBytes dims.2,bind_run allocated]
    rcases result with ⟨rfl,rfl⟩ | next
    · obtain ⟨q,rfl⟩ : ∃ q, p = q+1 := ⟨p-1,by omega⟩
      have failed := fillTable_null laid.handing.valid.null offset flags q
      exact .inr ⟨bind_fault failed,fun rest given => (more rest given).1 rfl⟩
    · obtain ⟨words,held,count',_⟩ := laid.held
      have other : directory ≠ ptr := by
        intro same
        rw [same,next.empty] at held
        cases held
      have placed : one.objs ptr = some (recycledWords p (tables i)) := (next.objs ptr).trans (Kernel.place_same _ _ _)
      have filled := fillTable_run 0 p placed (show 0+p ≤ 1024 by omega) offset flags
      have still (obj : Obj) : (one.place ptr obj).objs directory = some (.words words) := by
        rw [Kernel.place_other other,next.objs,Kernel.place_other other]
        exact held
      rw [show ((p : Nat) : Int).toNat = p from Int.toNat_natCast p,bind_run filled,bind_run (setWord_run (still _) (by omega))]
      have flagged : flags ||| pagingIsWriteable < 4096 := Nat.or_lt_two_pow (n := 12) (by omega) (by decide)
      have laid' := laid.next next held (by omega) flagged (filledWord offset flags
        ⟨1024,fun j => if ((p : Nat) : Int).toNat ≤ j ∧ j < 1024 then tables i j else 0⟩ 0 p) rfl
      rcases ih laid' (by omega) (toInt32 (offset + toInt32 ((p : Nat)*pagingPageSize))) with
        ⟨after,table,owned,ran,full,room'⟩ | ⟨failed,noRoom⟩
      · exact .inl ⟨after,table,owned,ran,full,fun rest given => room' rest (more rest given).2⟩
      · exact .inr ⟨failed,fun rest given => noRoom rest (more rest given).2⟩

theorem fillDirectoryOn_null (handing : Handing base k owned) (tables : Nat → Nat → Nat) (dims : 1 ≤ p ∧ p ≤ 1024)
    (flags count i : Nat) (offset : Int) :
    fillDirectoryOn tables 0 (p : Nat) flags (count+1) i offset k = .error .nullDeref := by
  obtain ⟨ptr,one,allocated,_,result⟩ := handing.alloc (recycledWords p (tables i)) (by omega : 1 ≤ 4*p) (by omega)
  rw [fillDirectoryOn,wordBytes dims.2,bind_run allocated,show ((p : Nat) : Int).toNat = p from Int.toNat_natCast p]
  rcases result with ⟨rfl,rfl⟩ | next
  · obtain ⟨q,rfl⟩ : ∃ q, p = q+1 := ⟨p-1,by omega⟩
    exact bind_fault (fillTable_null handing.valid.null offset flags q)
  · have placed : one.objs ptr = some (recycledWords p (tables i)) := (next.objs ptr).trans (Kernel.place_same _ _ _)
    rw [bind_run (fillTable_run 0 p placed (show 0+p ≤ 1024 by omega) offset flags)]
    apply bind_fault
    apply setWord_null
    rw [Kernel.place_other (Ne.symm next.low.1)]
    exact next.handing.valid.null

-- What paging_chunk_new leaves: its blocks are the chunk, the directory and one
-- table for each of the first n entries.
structure Made (base k : Kernel) (prior : Nat → Nat) (n chunk directory : Nat) (table : Nat → Nat) (owned : List Nat) : Prop where
  pool : Pool base.heap
  same : SamePool base.heap k.heap
  handed : Handed base.heap.table.entries k.heap.table.entries base.heap.table.total (OwnBlock base.heap owned)
  inside : ∀ ptr ∈ owned, ∃ start < base.heap.table.total, ptr = base.heap.saddr+start*4096
  member : ∀ ptr, ptr ∈ owned ↔ ptr = chunk ∨ ptr = directory ∨ ∃ j < n, ptr = table j
  chunkHeld : ∃ p, k.objs chunk = some (.pagingChunk ⟨directory,n,p⟩)
  held : ∃ words, k.objs directory = some (.words words) ∧ words.count = 1024 ∧
    (∀ j < n, pagingEntryGetPointer (words.word j) = table j) ∧ ∀ j, n ≤ j → j < 1024 → words.word j = prior j
  tables : ∀ j < n, ∃ words, k.objs (table j) = some (.words words) ∧ words.count = 1024
  apart : ∀ j < n, table j ≠ directory ∧ table j ≠ chunk

theorem Laid.made (laid : Laid base k prior n directory n table owned) (pool : Pool base.heap)
    (next : Handing.Next base k owned (.pagingChunk ⟨0,0,0⟩) chunk one) (p : Int) :
    Made base (one.place chunk (.pagingChunk ⟨directory,n,p⟩)) prior n chunk directory table (chunk::owned) := by
  obtain ⟨words,held,facts⟩ := laid.held
  have other : directory ≠ chunk := by
    intro same
    rw [same,next.empty] at held
    cases held
  have apart : ∀ j < n, table j ≠ chunk := by
    intro j low same
    obtain ⟨_,live,_⟩ := laid.tables j low
    rw [same,next.empty] at live
    cases live
  refine ⟨pool,next.handing.pool,next.handing.handed,next.handing.inside,fun ptr => ?_,
    ⟨p,Kernel.place_same _ _ _⟩,⟨words,?_,facts⟩,fun j low => ?_,fun j low => ⟨laid.apart j low,apart j low⟩⟩
  · rw [List.mem_cons,laid.member]
  · rw [Kernel.place_other other,next.objs,Kernel.place_other other]
    exact held
  · rw [Kernel.place_other (apart j low),next.objs,Kernel.place_other (apart j low)]
    exact laid.tables j low

theorem pagingChunkNewOn_run (flags : Nat) (valid : HeapValid k) (prior : Nat → Nat) (tables : Nat → Nat → Nat) (dir : 1 ≤ n ∧ n ≤ 1024)
    (dims : 1 ≤ p ∧ p ≤ 1024) (small : flags < 256) :
    (∃ chunk after directory table owned, pagingChunkNewOn prior tables (n : Nat) (p : Nat) flags k = .ok (chunk,after) ∧
      Made k after prior n chunk directory table owned) ∨
    (pagingChunkNewOn prior tables (n : Nat) (p : Nat) flags k = .error .nullDeref ∧ ¬ Room k.heap (n+2)) := by
  obtain ⟨directory,one,allocated,room,result⟩ := (Handing.start valid).alloc (recycledWords n prior) (by omega : 1 ≤ 4*n) (by omega)
  have first : Room k.heap (n+2) → directory ≠ 0 ∧ Room one.heap (n+1) := by
    intro given
    exact room (n+1) (by rw [show 1+(n+1) = n+2 by omega]; exact given)
  unfold pagingChunkNewOn
  rw [wordBytes dir.2,bind_run allocated]
  rcases result with ⟨rfl,rfl⟩ | next
  · obtain ⟨m,rfl⟩ : ∃ m, n = m+1 := ⟨n-1,by omega⟩
    have failed := fillDirectoryOn_null (Handing.start valid) tables dims flags m 0 0
    exact .inr ⟨bind_fault failed,fun given => (first given).1 rfl⟩
  · have start : Laid k one prior n directory 0 (fun _ => 0) [directory] := by
      refine ⟨next.handing,⟨_,(next.objs directory).trans (Kernel.place_same _ _ _),rfl,fun j none => ?_,fun j low high => ?_⟩,
        fun ptr => ?_,fun j none => ?_,fun j none => ?_⟩
      · omega
      · exact if_pos ⟨low,high⟩
      · simp
      · omega
      · omega
    rcases fillDirectoryOn_run n start tables dims small (Nat.zero_add n) dir.2 0 with
      ⟨two,table,owned,filling,laid,room'⟩ | ⟨failed,noRoom⟩
    · rw [bind_run (show fillDirectoryOn tables directory (p : Nat) flags ((n : Nat) : Int).toNat 0 0 one = _ from filling)]
      obtain ⟨chunk,three,allocated,room'',result⟩ := laid.handing.alloc (.pagingChunk ⟨0,0,0⟩) (by decide : 1 ≤ 12) (by decide)
      rw [bind_run allocated]
      rcases result with ⟨rfl,rfl⟩ | last
      · refine .inr ⟨bind_fault (loadAs_null laid.handing.valid.null asPagingChunk),fun given => ?_⟩
        exact (room'' 0 (room' 1 (first given).2)).1 rfl
      · have placed : three.objs chunk = some (.pagingChunk ⟨0,0,0⟩) := (last.objs chunk).trans (Kernel.place_same _ _ _)
        refine .inl ⟨chunk,_,directory,table,_,?_,laid.made valid.pool last p⟩
        rw [bind_run (loadAs_run asPagingChunk placed rfl)]
        rfl
    · exact .inr ⟨bind_fault failed,fun given => noRoom 1 (first given).2⟩

-- The chunk can be given back, and the heap table is then as before it was taken.
def FreesOwn (base k : Kernel) (chunk : Nat) : Prop :=
  ∃ after, pagingChunkFreeOn chunk k = .ok ((),after) ∧ SameTable base.heap after.heap

theorem Made.frees (made : Made base k prior n chunk directory table owned) (dir : n ≤ 1024) :
    FreesOwn base k chunk ↔ ∀ j, n ≤ j → j < 1024 → Harmless base.heap (pagingEntryGetPointer (prior j)) := by
  obtain ⟨p,chunkHeld⟩ := made.chunkHeld
  obtain ⟨words,held,_,pointers,rest⟩ := made.held
  obtain ⟨after,ran,heap⟩ := pagingChunkFreeOn_run chunkHeld held
  have among (ptr : Nat) : ptr ∈ freedPointers chunk directory words.word ↔
      (∃ j < 1024, pagingEntryGetPointer (words.word j) = ptr) ∨ ptr = directory ∨ ptr = chunk := by
    simp [freedPointers]
  have own (ptr : Nat) (member : ptr ∈ owned) : ptr ∈ freedPointers chunk directory words.word := by
    rw [among]
    rcases (made.member ptr).mp member with here | here | ⟨j,low,same⟩
    · exact .inr (.inr here)
    · exact .inr (.inl here)
    · exact .inl ⟨j,by omega,(pointers j low).trans same.symm⟩
  have restored := freeAll_restores (freedPointers chunk directory words.word) made.same made.handed (by
    rintro i ⟨ptr,member,same⟩
    obtain ⟨start,inside,address⟩ := made.inside ptr member
    have block := made.pool.block inside
    rw [← address,same] at block
    exact ⟨by omega,by omega,ptr,own ptr member,same⟩)
  have harmless (ptr : Nat) (member : ptr ∈ owned) : Harmless base.heap ptr := by
    obtain ⟨start,inside,address⟩ := made.inside ptr member
    have block := made.pool.block inside
    rw [← address] at block
    have free := (made.handed.own _ ⟨ptr,member,block⟩).1
    have quiet : Quiet base.heap.table.entries base.heap.table.total (start : Nat) := (quiet_inside (by omega) (by omega)).mpr free
    rw [← block] at quiet
    exact quiet
  have returned : FreesOwn base k chunk ↔ SameTable base.heap after.heap := by
    constructor
    · rintro ⟨after',ran',same⟩
      cases ran.symm.trans ran'
      exact same
    · exact fun same => ⟨after,ran,same⟩
  rw [returned,heap,restored]
  constructor
  · intro all j low high
    rw [← rest j low high]
    exact all _ ((among _).mpr (.inl ⟨j,high,rfl⟩))
  · intro old ptr member
    rcases (among ptr).mp member with ⟨j,high,same⟩ | here | here
    · by_cases low : j < n
      · exact harmless ptr ((made.member ptr).mpr (.inr (.inr ⟨j,low,same.symm.trans (pointers j low)⟩)))
      · rw [← same,rest j (by omega) high]
        exact old j (by omega) high
    · exact harmless ptr ((made.member ptr).mpr (.inr (.inl here)))
    · exact harmless ptr ((made.member ptr).mpr (.inl here))

-- The calls of paging_map on the directory of a chunk.
structure MapCall where
  virt : Nat
  phys : Nat
  flags : Int

def runMaps (chunk : Nat) : List MapCall → KernelProg Unit
  | [] => pure ()
  | call::rest => do
    let c ← loadAs asPagingChunk chunk
    let _ ← pagingMap c.directoryEntry call.virt call.phys call.flags
    runMaps chunk rest

-- The call stays with the entries that paging_chunk_new wrote, unless it is
-- refused for its alignment.
def MapCall.Within (call : MapCall) (n : Nat) : Prop := call.virt%4096 = 0 → call.phys%4096 = 0 → call.virt/4194304 < n

theorem Made.map (made : Made base k prior n chunk directory table owned) (call : MapCall) (within : call.Within n) (dir : n ≤ 1024) :
    ∃ res after, pagingMap directory call.virt call.phys call.flags k = .ok (res,after) ∧
      Made base after prior n chunk directory table owned := by
  by_cases aligned : call.virt%4096 = 0 ∧ call.phys%4096 = 0
  · obtain ⟨words,held,count,pointers,rest⟩ := made.held
    have low := within aligned.1 aligned.2
    obtain ⟨array,tableHeld,full⟩ := made.tables _ low
    obtain ⟨notDirectory,notChunk⟩ := made.apart _ low
    obtain ⟨p,chunkHeld⟩ := made.chunkHeld
    have index : call.virt/(pagingTotalEntriesPerTable*pagingPageSize) = call.virt/4194304 := rfl
    refine ⟨0,k.place (table (call.virt/4194304)) (.words (Words.set array (call.virt%4194304/4096) (pagingEntrySetFlags call.phys call.flags))),
      ?_,made.pool,made.same,made.handed,made.inside,made.member,⟨p,?_⟩,⟨words,?_,count,pointers,rest⟩,?_,made.apart⟩
    · unfold pagingMap
      rw [if_neg (by simp [aligned_true aligned.1,aligned_true aligned.2])]
      unfold pagingSet
      rw [if_neg (by simp [aligned_true aligned.1])]
      unfold pagingGetIndexes
      rw [if_neg (by simp [aligned_true aligned.1])]
      dsimp only
      rw [index,bind_run (getWord_run held (by omega)),pointers _ low]
      rw [bind_run (setWord_run tableHeld (by rw [full]; unfold pagingTotalEntriesPerTable pagingPageSize; omega))]
      rfl
    · exact (Kernel.place_other (Ne.symm notChunk)).trans chunkHeld
    · exact (Kernel.place_other (Ne.symm notDirectory)).trans held
    · intro j below
      by_cases same : table j = table (call.virt/4194304)
      · rw [same,Kernel.place_same]
        exact ⟨_,rfl,full⟩
      · rw [Kernel.place_other same]
        exact made.tables j below
  · exact ⟨_,k,pagingMap_unaligned aligned _ _ _,made⟩

theorem Made.maps (made : Made base k prior n chunk directory table owned) (calls : List MapCall) (within : ∀ call ∈ calls, call.Within n)
    (dir : n ≤ 1024) : ∃ after, runMaps chunk calls k = .ok ((),after) ∧ Made base after prior n chunk directory table owned := by
  induction calls generalizing k with
  | nil => exact ⟨k,rfl,made⟩
  | cons call rest ih =>
    obtain ⟨p,chunkHeld⟩ := made.chunkHeld
    obtain ⟨_,two,mapped,made⟩ := made.map call (within call List.mem_cons_self) dir
    obtain ⟨after,ran,made⟩ := ih made (fun c member => within c (List.mem_cons_of_mem _ member))
    refine ⟨after,?_,made⟩
    rw [runMaps,bind_run (loadAs_run asPagingChunk chunkHeld rfl),bind_run mapped]
    exact ran

theorem chunk_frees_own (valid : HeapValid k) (dir : 1 ≤ n ∧ n ≤ 1024) (dims : 1 ≤ p ∧ p ≤ 1024) (small : flags < 256)
    (made : pagingChunkNewOn prior tables (n : Nat) (p : Nat) flags k = .ok (chunk,start)) (calls : List MapCall)
    (within : ∀ call ∈ calls, call.Within n) : ∃ before, runMaps chunk calls start = .ok ((),before) ∧
      (FreesOwn k before chunk ↔ ∀ j, n ≤ j → j < 1024 → Harmless k.heap (pagingEntryGetPointer (prior j))) := by
  rcases pagingChunkNewOn_run _ valid prior tables dir dims small with ⟨chunk',start',directory,table,owned,ran,built⟩ | ⟨failed,_⟩
  · cases ran.symm.trans made
    obtain ⟨before,mapped,kept⟩ := built.maps calls within dir.2
    exact ⟨before,mapped,kept.frees dir.2⟩
  · cases failed.symm.trans made

-- Words that lead to free blocks of the pool and behind it.
def strayWords (j : Nat) : Nat := if j%2 = 0 then 0x01100007 else 0x40000007

theorem stray_harmless (j : Nat) : Harmless (bootKernel bootEntries noDisk).heap (pagingEntryGetPointer (strayWords j)) := by
  rw [boot_heap]
  by_cases even : j%2 = 0
  · have block : heapAddressToBlock ⟨⟨clearedEntries bootEntries,131072⟩,0x01000000⟩ (pagingEntryGetPointer (strayWords j)) = (256 : Nat) := by
      rw [strayWords,if_pos even]
      rfl
    show Quiet _ _ (heapAddressToBlock _ _)
    rw [block]
    have cleared : clearedEntries bootEntries (256 : Nat) = heapBlockTableEntryFree := if_pos ⟨by omega,by norm_num⟩
    exact (quiet_inside (by omega) (by norm_num)).mpr cleared
  · have block : heapAddressToBlock ⟨⟨clearedEntries bootEntries,131072⟩,0x01000000⟩ (pagingEntryGetPointer (strayWords j)) = (258048 : Nat) := by
      rw [strayWords,if_neg even]
      rfl
    show Quiet _ _ (heapAddressToBlock _ _)
    rw [block]
    exact quiet_behind (by norm_num)

theorem small_chunk_frees_own : ∃ chunk start before,
    pagingChunkNewOn strayWords (fun _ _ => 0) 2 1 5 (bootKernel bootEntries noDisk) = .ok (chunk,start) ∧
    runMaps chunk [⟨0x400000,0x5000,7⟩,⟨1,0,7⟩,⟨0,0x7000,3⟩] start = .ok ((),before) ∧
    FreesOwn (bootKernel bootEntries noDisk) before chunk := by
  have valid := boot_valid bootEntries noDisk rfl
  rcases pagingChunkNewOn_run (n := 2) (p := 1) 5 valid strayWords (fun _ _ => 0) (by decide) (by decide) (by decide) with
    ⟨chunk,start,_,_,_,ran,_⟩ | ⟨_,noRoom⟩
  · obtain ⟨before,mapped,frees⟩ := chunk_frees_own valid (by decide) (by decide) (by decide) ran
      [⟨0x400000,0x5000,7⟩,⟨1,0,7⟩,⟨0,0x7000,3⟩] (by unfold MapCall.Within; decide)
    exact ⟨chunk,start,before,ran,mapped,frees.mpr (fun j _ _ => stray_harmless j)⟩
  · obtain ⟨b,fits,free⟩ := boot_room bootEntries noDisk
    exact absurd ⟨b,by omega,free⟩ noRoom

theorem live_harmful {k : Kernel} (valid : HeapValid k) (live : (k.objs ptr).isSome) : ¬ Harmless k.heap ptr := by
  have pool := valid.pool
  obtain ⟨chunks,holds⟩ := valid
  obtain ⟨c,member,rfl⟩ := holds.owned ptr live
  have inside := holds.tiled.starts c member
  have length := holds.tiled.positive c member
  intro harmless
  have quiet : Quiet k.heap.table.entries k.heap.table.total (c.start : Nat) := by
    rw [← pool.block inside]
    exact harmless
  have free := (quiet_inside (by omega) (by omega)).mp quiet
  refine holds.tiled.covered_taken member ⟨Int.le_refl _,by omega⟩ inside ?_
  unfold IsFree
  rw [free]
  decide

-- A chunk of one table over a block that held the address of a live object: the
-- object's block is freed with the chunk.
theorem stale_word_freed : ∃ k ptr chunk start, HeapValid k ∧ k.objs ptr = some (.chars []) ∧
    pagingChunkNewOn (fun _ => ptr ||| 7) (fun _ _ => 0) 1 1 5 k = .ok (chunk,start) ∧ ¬ FreesOwn k start chunk := by
  obtain ⟨ptr,k,_,result,serves⟩ := kzalloc_run _ (boot_valid bootEntries noDisk rfl) (.chars []) (by decide : 1 ≤ 32) (by decide)
  have room := serves 131071 (by
    rw [show blocksFor 32+131071 = 131072 from rfl]
    exact boot_room bootEntries noDisk)
  cases result with
  | null => exact absurd rfl room.1
  | fresh _ heap empty low valid =>
    rcases pagingChunkNewOn_run (n := 1) (p := 1) 5 valid (fun _ => ptr ||| 7) (fun _ _ => 0) (by decide) (by decide) (by decide) with
      ⟨chunk,start,directory,table,owned,ran,made⟩ | ⟨_,noRoom⟩
    · refine ⟨_,ptr,chunk,start,valid,Kernel.place_same _ _ _,ran,fun frees => ?_⟩
      have harmless := (made.frees (by decide)).mp frees 1 (Nat.le_refl _) (by decide)
      rw [show pagingEntryGetPointer (ptr ||| 7) = ptr from or_flags_frame low.2.1 (by decide) (by omega)] at harmless
      exact live_harmful valid (by simp) harmless
    · obtain ⟨b,fits,free⟩ := room.2.2
      exact absurd ⟨b,by omega,free⟩ noRoom

end NutsOS.Paging
