import Mathlib.Data.Set.Insert
import NutsOS.Heap.Scan

-- The block table as a set of chunks, and what marking and freeing do to it.
namespace NutsOS.HeapAlloc

structure Chunk where
  start : Nat
  len : Nat
  deriving DecidableEq

def Chunk.Covers (c : Chunk) (i : Int) : Prop := c.start ≤ i ∧ i < c.start + c.len

instance : Decidable (Chunk.Covers c i) := inferInstanceAs (Decidable (_ ∧ _))

def Chunk.Apart (c d : Chunk) : Prop := c.start+c.len ≤ d.start ∨ d.start+d.len ≤ c.start

-- The table byte of block i of a chunk: IS_FIRST on its first block, HAS_NEXT
-- on every block but its last.
def Chunk.entry (c : Chunk) (i : Int) : UInt8 :=
  let first := if i = c.start then heapBlockTableEntryTaken ||| heapBlockIsFirst else heapBlockTableEntryTaken
  if i+1 = c.start+c.len then first else first ||| heapBlockHasNext

theorem entry_type (c : Chunk) (i : Int) : heapGetEntryType (c.entry i) ≠ heapBlockTableEntryFree := by
  unfold Chunk.entry
  dsimp only
  split <;> split <;> decide

theorem entry_last (c : Chunk) (i : Int) : c.entry i &&& heapBlockHasNext = 0 ↔ i+1 = c.start+c.len := by
  unfold Chunk.entry
  dsimp only
  split <;> rename_i last
  · refine ⟨fun _ => last,fun _ => ?_⟩
    split <;> decide
  · refine ⟨fun zero => ?_,fun equal => False.elim (last equal)⟩
    split at zero <;> exact absurd zero (by decide)

theorem apart_of_starts {c d : Chunk} (atC : ¬ d.Covers c.start) (atD : ¬ c.Covers d.start) : c.Apart d := by
  unfold Chunk.Covers at atC atD
  unfold Chunk.Apart
  omega

-- The table is the chunks of `chunks`, apart from each other, and free blocks
-- everywhere else. A chunk starts in the table; the scan can hand out one that
-- ends behind it.
structure Tiled (entries : Int → UInt8) (total : Nat) (chunks : Set Chunk) : Prop where
  positive : ∀ c ∈ chunks, 0 < c.len
  starts : ∀ c ∈ chunks, c.start < total
  apart : ∀ c ∈ chunks, ∀ d ∈ chunks, c ≠ d → c.Apart d
  marked : ∀ c ∈ chunks, ∀ i, c.Covers i → i < total → entries i = c.entry i
  free : ∀ i : Int, 0 ≤ i → i < total → (∀ c ∈ chunks, ¬ c.Covers i) → entries i = heapBlockTableEntryFree

theorem Tiled.congr (valid : Tiled entries total chunks)
    (same : ∀ i : Int, 0 ≤ i → i < total → after i = entries i) : Tiled after total chunks := by
  refine ⟨valid.positive,valid.starts,valid.apart,?_,?_⟩
  · intro c member i covers inTable
    have start := covers.1
    rw [same i (by omega) inTable]
    exact valid.marked c member i covers inTable
  · intro i low high uncovered
    rw [same i low high]
    exact valid.free i low high uncovered

theorem Tiled.start_unique (valid : Tiled entries total chunks) (one : c ∈ chunks) (two : d ∈ chunks)
    (same : c.start = d.start) : c = d := by
  by_contra different
  have apart := valid.apart c one d two different
  have lengthC := valid.positive c one
  have lengthD := valid.positive d two
  unfold Chunk.Apart at apart
  omega

theorem Tiled.determined (one : Tiled entries total chunks) (two : Tiled others total chunks) (low : 0 ≤ i) (high : i < (total : Int)) :
    entries i = others i := by
  by_cases covered : ∃ c ∈ chunks, c.Covers i
  · obtain ⟨c,member,covers⟩ := covered
    rw [one.marked c member i covers high,two.marked c member i covers high]
  · have free : ∀ c ∈ chunks, ¬ c.Covers i := fun c member covers => covered ⟨c,member,covers⟩
    rw [one.free i low high free,two.free i low high free]

structure Decodes (entries : Int → UInt8) (total : Nat) (chunks : Set Chunk) : Prop
    extends Tiled entries total chunks where
  inside : ∀ c ∈ chunks, c.start+c.len ≤ total

theorem decodes_empty {total : Nat}
    (clear : ∀ i : Int, 0 ≤ i → i < total → entries i = heapBlockTableEntryFree) :
    Decodes entries total ∅ := by
  refine ⟨⟨?_,?_,?_,?_,fun i low high _ => clear i low high⟩,?_⟩
  all_goals intro c member; exact False.elim member

theorem Tiled.covered_taken (valid : Tiled entries total chunks) (member : c ∈ chunks)
    (covers : Chunk.Covers c (i : Nat)) (inTable : i < total) : ¬ IsFree entries i := by
  unfold IsFree
  rw [valid.marked c member i covers (by omega)]
  exact entry_type c i

def FreeIn (entries : Int → UInt8) (total s n : Nat) : Prop :=
  ∀ i, s ≤ i → i < s+n → i < total → IsFree entries i

theorem Tiled.free_apart (valid : Tiled entries total chunks) (positive : 0 < n) (starts : s < total)
    (run : FreeIn entries total s n) (member : d ∈ chunks) : Chunk.Apart ⟨s,n⟩ d := by
  have other := valid.starts d member
  have length := valid.positive d member
  apply apart_of_starts
  · intro covers
    exact valid.covered_taken member covers starts (run s (Nat.le_refl _) (by omega) starts)
  · intro ⟨low,high⟩
    have covers : Chunk.Covers d d.start := ⟨Int.le_refl _,by omega⟩
    simp only at low high
    exact valid.covered_taken member covers other (run d.start (by omega) (by omega) other)

-- `entries` with the blocks of chunk c rewritten by `value`.
def setChunk (c : Chunk) (value : Int → UInt8) (entries : Int → UInt8) : Int → UInt8 :=
  fun i => if c.Covers i then value i else entries i

theorem setChunk_covered (covers : Chunk.Covers c i) : setChunk c value entries i = value i := if_pos covers
theorem setChunk_other (other : ¬ Chunk.Covers c i) : setChunk c value entries i = entries i := if_neg other

theorem Apart.disjoint {c d : Chunk} (apart : c.Apart d) (covers : c.Covers i) : ¬ d.Covers i := by
  unfold Chunk.Apart at apart
  unfold Chunk.Covers at *
  omega

theorem Tiled.insert (valid : Tiled entries total chunks) (positive : 0 < n) (starts : s < total)
    (run : FreeIn entries total s n) :
    Tiled (setChunk ⟨s,n⟩ (Chunk.entry ⟨s,n⟩) entries) total (insert ⟨s,n⟩ chunks) := by
  have fresh : ∀ d ∈ chunks, Chunk.Apart ⟨s,n⟩ d := fun d member => valid.free_apart positive starts run member
  refine ⟨?_,?_,?_,?_,?_⟩
  · rintro c (rfl | old)
    · exact positive
    · exact valid.positive c old
  · rintro c (rfl | old)
    · exact starts
    · exact valid.starts c old
  · rintro c (rfl | oldC) d (rfl | oldD) different
    · exact False.elim (different rfl)
    · exact fresh d oldD
    · exact (fresh c oldC).symm
    · exact valid.apart c oldC d oldD different
  · rintro c (rfl | old) i covers inTable
    · exact setChunk_covered covers
    · have apart : Chunk.Apart c ⟨s,n⟩ := (fresh c old).symm
      rw [setChunk_other (Apart.disjoint apart covers)]
      exact valid.marked c old i covers inTable
  · intro i low high uncovered
    rw [setChunk_other (uncovered _ (Set.mem_insert _ _))]
    exact valid.free i low high (fun c member => uncovered c (Set.mem_insert_of_mem _ member))

theorem Decodes.insert (valid : Decodes entries total chunks) (positive : 0 < n)
    (fits : s+n ≤ total) (run : FreeRun entries s n) :
    Decodes (setChunk ⟨s,n⟩ (Chunk.entry ⟨s,n⟩) entries) total (insert ⟨s,n⟩ chunks) := by
  refine ⟨valid.toTiled.insert positive (by omega) (fun i low high _ => run i low high),?_⟩
  rintro c (rfl | old)
  · exact fits
  · exact valid.inside c old

def Chunk.clip (c : Chunk) (total : Nat) : Chunk := ⟨c.start,min c.len (total-c.start)⟩

theorem clip_covers {c : Chunk} (starts : c.start < total) (inTable : i < (total : Int)) :
    (c.clip total).Covers i ↔ c.Covers i := by
  unfold Chunk.clip Chunk.Covers
  dsimp only
  omega

theorem clip_inside {c : Chunk} (inside : c.start+c.len ≤ total) : c.clip total = c := by
  unfold Chunk.clip
  rw [Nat.min_eq_left (by omega)]

theorem Tiled.remove (valid : Tiled entries total chunks) (member : c ∈ chunks) :
    Tiled (setChunk (c.clip total) (fun _ => heapBlockTableEntryFree) entries) total (chunks \ {c}) := by
  have starts := valid.starts c member
  refine ⟨fun d left => valid.positive d left.1,fun d left => valid.starts d left.1,
    fun d leftD e leftE => valid.apart d leftD.1 e leftE.1,?_,?_⟩
  · intro d left i covers inTable
    have apart : d.Apart c := valid.apart d left.1 c member left.2
    have other : ¬ (c.clip total).Covers i := by
      rw [clip_covers starts inTable]
      exact Apart.disjoint apart covers
    rw [setChunk_other other]
    exact valid.marked d left.1 i covers inTable
  · intro i low high uncovered
    by_cases covers : (c.clip total).Covers i
    · exact setChunk_covered covers
    · rw [setChunk_other covers]
      apply valid.free i low high
      intro d old
      by_cases same : d = c
      · rw [same,← clip_covers starts high]
        exact covers
      · exact uncovered d ⟨old,same⟩

theorem Decodes.remove (valid : Decodes entries total chunks) (member : c ∈ chunks) :
    Decodes (setChunk c (fun _ => heapBlockTableEntryFree) entries) total (chunks \ {c}) := by
  have tiled := valid.toTiled.remove member
  rw [clip_inside (valid.inside c member)] at tiled
  exact ⟨tiled,fun d left => valid.inside d left.1⟩

-- The tail of chunk c from index i on, as the loops process it.
def Chunk.tail (c : Chunk) (i : Nat) : Chunk := ⟨i,c.start+c.len-i⟩

theorem covers_tail {c : Chunk} {i : Nat} (below : i ≤ c.start+c.len) :
    (c.tail i).Covers j ↔ i ≤ j ∧ j < c.start+c.len := by
  unfold Chunk.Covers Chunk.tail
  dsimp only
  omega

theorem setChunk_tail_step {c : Chunk} {i : Nat} (below : i < c.start+c.len)
    (value entries : Int → UInt8) :
    setChunk (c.tail (i+1)) value (writeEntry entries i (value i)) = setChunk (c.tail i) value entries := by
  funext j
  by_cases covers : (c.tail (i+1)).Covers j
  · have wider : (c.tail i).Covers j := by
      rw [covers_tail (by omega)] at *
      omega
    rw [setChunk_covered covers,setChunk_covered wider]
  · rw [setChunk_other covers]
    rw [covers_tail (by omega)] at covers
    by_cases here : j = i
    · have first : (c.tail i).Covers j := by rw [covers_tail (by omega)]; omega
      rw [setChunk_covered first,here]
      exact if_pos rfl
    · have other : ¬ (c.tail i).Covers j := by rw [covers_tail (by omega)]; omega
      rw [setChunk_other other]
      exact if_neg here

theorem setChunk_tail_end (c : Chunk) (value entries : Int → UInt8) :
    setChunk (c.tail (c.start+c.len)) value entries = entries := by
  funext j
  refine setChunk_other ?_
  rw [covers_tail (Nat.le_refl _)]
  omega

-- Both loops touch exactly the indexes of the blocks from i on, in order.
def Chunk.indexes (c : Chunk) (i : Nat) : List Int := (List.range' i (c.start+c.len-i)).map Int.ofNat

theorem indexes_step {c : Chunk} {i : Nat} (below : i < c.start+c.len) :
    c.indexes i = (i : Int) :: c.indexes (i+1) := by
  unfold Chunk.indexes
  obtain ⟨rest,equal⟩ : ∃ rest, c.start+c.len-i = rest+1 := ⟨c.start+c.len-i-1,by omega⟩
  have tail : c.start+c.len-(i+1) = rest := by omega
  rw [equal,tail,List.range'_succ,List.map_cons]
  rfl

theorem indexes_end (c : Chunk) : c.indexes (c.start+c.len) = [] := by simp [Chunk.indexes]

theorem mem_indexes {c : Chunk} {x : Int} : x ∈ c.indexes c.start ↔ c.Covers x := by
  unfold Chunk.indexes Chunk.Covers
  simp only [List.mem_map,List.mem_range'_1]
  constructor
  · rintro ⟨j,⟨low,high⟩,rfl⟩
    simp only [Int.ofNat_eq_natCast]
    omega
  · rintro ⟨low,high⟩
    exact ⟨x.toNat,by omega,by simp only [Int.ofNat_eq_natCast]; omega⟩

theorem next_entry (c : Chunk) (i : Nat) (after : c.start ≤ i) :
    (if (i : Int) ≠ (c.start : Int) + c.len - 1 - 1 then heapBlockTableEntryTaken ||| heapBlockHasNext
      else heapBlockTableEntryTaken) = c.entry (i+1 : Nat) := by
  unfold Chunk.entry
  dsimp only
  rw [if_neg (by omega : ¬ ((i+1 : Nat) : Int) = c.start)]
  split
  · rw [if_neg (by omega)]
  · rw [if_pos (by omega)]

-- The induction is on the number of blocks left; `entry` is always the byte
-- of the block the loop stands on.
theorem markTakenLoop_eq (c : Chunk) (count i : Nat) (entries : Int → UInt8) (after : c.start ≤ i)
    (left : i+count = c.start+c.len) :
    markTakenLoop ((c.start : Int)+c.len-1) count i (c.entry i) entries =
      (setChunk (c.tail i) c.entry entries,c.indexes i) := by
  induction count generalizing i entries with
  | zero =>
    simp only [Nat.add_zero] at left
    subst left
    rw [setChunk_tail_end,indexes_end]
    rfl
  | succ count ih =>
    have step := ih (i+1) (writeEntry entries i (c.entry i)) (by omega) (by omega)
    simp only [markTakenLoop]
    rw [next_entry c i after,← Int.natCast_succ,step,setChunk_tail_step (by omega),← indexes_step (by omega)]

theorem markFreeLoop_eq (c : Chunk) (total count i : Nat) (entries : Int → UInt8) (starts : c.start ≤ i)
    (inside : i < c.start+c.len) (left : i+count = total)
    (marked : ∀ j : Int, i ≤ j → j < c.start+c.len → j < total → entries j = c.entry j) :
    markFreeLoop count i entries =
      (setChunk ((c.clip total).tail i) (fun _ => heapBlockTableEntryFree) entries,(c.clip total).indexes i) := by
  induction count generalizing i entries with
  | zero =>
    have ended : (c.clip total).start+(c.clip total).len = i := by unfold Chunk.clip; dsimp only; omega
    rw [← ended,setChunk_tail_end,indexes_end]
    rfl
  | succ count ih =>
    have stop := entry_last c i
    rw [← marked i (Int.le_refl _) (by omega) (by omega)] at stop
    have within : i < (c.clip total).start+(c.clip total).len := by unfold Chunk.clip; dsimp only; omega
    rw [markFreeLoop]
    dsimp only
    split
    · rename_i last
      have finished : (c.clip total).start+(c.clip total).len = i+1 := by
        have ended := stop.mp last
        unfold Chunk.clip
        dsimp only
        omega
      rw [indexes_step within,← finished,indexes_end,← setChunk_tail_step within,← finished,setChunk_tail_end]
    · rename_i more
      have below : i+1 < c.start+c.len := by
        have different : ¬ ((i : Int)+1 = c.start+c.len) := fun equal => more (stop.mpr equal)
        omega
      have rest := ih (i+1) (writeEntry entries i heapBlockTableEntryFree) (by omega) below (by omega) (by
        intro j low high inTable
        have other : ¬ j = (i : Int) := by omega
        simp only [writeEntry,if_neg other]
        exact marked j (by omega) high inTable)
      rw [← Int.natCast_succ,rest,← indexes_step within,
        setChunk_tail_step within (fun _ => heapBlockTableEntryFree) entries]

theorem tail_start (c : Chunk) : c.tail c.start = c := by
  unfold Chunk.tail
  rw [Nat.add_sub_cancel_left]

def Heap.withEntries (heap : Heap) (entries : Int → UInt8) : Heap :=
  {heap with table := {heap.table with entries := entries}}

theorem heapMarkBlocksTaken_eq (heap : Heap) (s n : Nat) (positive : 0 < n) :
    heapMarkBlocksTaken heap s n =
      (heap.withEntries (setChunk ⟨s,n⟩ (Chunk.entry ⟨s,n⟩) heap.table.entries),Chunk.indexes ⟨s,n⟩ s) := by
  have first : (if (n : Int) > 1 then heapBlockTableEntryTaken ||| heapBlockIsFirst ||| heapBlockHasNext
      else heapBlockTableEntryTaken ||| heapBlockIsFirst) = Chunk.entry ⟨s,n⟩ s := by
    unfold Chunk.entry
    dsimp only
    rw [if_pos rfl]
    split
    · rw [if_neg (by omega)]
    · rw [if_pos (by omega)]
  have count : ((s : Int)+n-1+1-s).toNat = n := by omega
  have loop := markTakenLoop_eq ⟨s,n⟩ n s heap.table.entries (Nat.le_refl _) rfl
  have whole : Chunk.tail ⟨s,n⟩ s = ⟨s,n⟩ := tail_start ⟨s,n⟩
  dsimp only at loop
  rw [whole] at loop
  unfold heapMarkBlocksTaken
  dsimp only
  rw [first,count,loop]
  rfl

theorem heapMarkBlocksFree_tiled (heap : Heap) (valid : Tiled heap.table.entries heap.table.total chunks)
    (member : c ∈ chunks) :
    heapMarkBlocksFree heap c.start =
      (heap.withEntries (setChunk (c.clip heap.table.total) (fun _ => heapBlockTableEntryFree) heap.table.entries),
        (c.clip heap.table.total).indexes c.start) := by
  have positive := valid.positive c member
  have starts := valid.starts c member
  have loop := markFreeLoop_eq c heap.table.total (heap.table.total-c.start) c.start heap.table.entries
    (Nat.le_refl _) (by omega) (by omega) (fun j low high => valid.marked c member j ⟨low,high⟩)
  have count : ((heap.table.total : Int)-c.start).toNat = heap.table.total-c.start := by omega
  have whole : (c.clip heap.table.total).tail c.start = c.clip heap.table.total := tail_start _
  rw [whole] at loop
  unfold heapMarkBlocksFree
  rw [count,loop]
  rfl

theorem heapMarkBlocksFree_eq (heap : Heap) (valid : Decodes heap.table.entries heap.table.total chunks)
    (member : c ∈ chunks) :
    heapMarkBlocksFree heap c.start =
      (heap.withEntries (setChunk c (fun _ => heapBlockTableEntryFree) heap.table.entries),c.indexes c.start) := by
  rw [heapMarkBlocksFree_tiled heap valid.toTiled member,clip_inside (valid.inside c member)]

end NutsOS.HeapAlloc
