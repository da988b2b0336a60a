import NutsOS.Heap.Pool

-- How long a chunk is can be read off the table: it runs on as long as its
-- blocks announce a next one. What marking and freeing do to that.
namespace NutsOS.HeapAlloc

-- The blocks from `start` to start+j carry the type and IS_FIRST bits of one chunk.
def FrontMarked (entries : Int → UInt8) (start j : Nat) : Prop :=
  ∀ i, i ≤ j → heapGetEntryType (entries (start+i : Nat)) ≠ heapBlockTableEntryFree ∧
    (entries (start+i : Nat) &&& heapBlockIsFirst ≠ 0 ↔ i = 0)

-- Wherever a chunk that starts at `start` is marked as one, it does not stop before
-- its n-th block. This also holds of a start that is not marked at all.
def RunsOn (entries : Int → UInt8) (total start n : Nat) : Prop :=
  ∀ j, j+1 < n → start+j < total → FrontMarked entries start j → entries (start+j : Nat) &&& heapBlockHasNext ≠ 0

theorem runsOn_single (entries : Int → UInt8) (total start : Nat) (single : n ≤ 1) : RunsOn entries total start n :=
  fun j more _ _ => absurd more (by omega)

theorem RunsOn.shorter (runs : RunsOn entries total start n) (less : m ≤ n) : RunsOn entries total start m :=
  fun j more inside front => runs j (by omega) inside front

theorem entry_isFirst (c : Chunk) (i : Int) : c.entry i &&& heapBlockIsFirst ≠ 0 ↔ i = c.start := by
  unfold Chunk.entry
  dsimp only
  by_cases first : i = c.start
  · rw [if_pos first]
    refine iff_of_true ?_ first
    split <;> decide
  · rw [if_neg first]
    refine iff_of_false ?_ first
    split <;> decide

theorem RunsOn.cleared (runs : RunsOn entries total start n)
    (clears : ∀ i, after i = entries i ∨ after i = heapBlockTableEntryFree) : RunsOn after total start n := by
  intro j more inside front
  have same (i : Nat) (early : i ≤ j) : after (start+i : Nat) = entries (start+i : Nat) := by
    rcases clears (start+i : Nat) with kept | cleared
    · exact kept
    · refine absurd ?_ (front i early).1
      rw [cleared]
      decide
  rw [same j (Nat.le_refl j)]
  refine runs j more inside (fun i early => ?_)
  rw [← same i early]
  exact front i early

-- Marking a new chunk that starts elsewhere. Blocks that carry its marks are no
-- front of another chunk: going down from them, its own IS_FIRST comes first.
theorem RunsOn.granted (runs : RunsOn entries total start n) (elsewhere : s ≠ start) :
    RunsOn (setChunk ⟨s,m⟩ (Chunk.entry ⟨s,m⟩) entries) total start n := by
  intro j more inside front
  have apart (i : Nat) (early : i ≤ j) : ¬ Chunk.Covers ⟨s,m⟩ (start+i : Nat) := by
    induction i with
    | zero =>
      intro covers
      have marked := (front 0 early).2.mpr rfl
      rw [setChunk_covered covers,entry_isFirst] at marked
      simp only [Nat.add_zero] at marked
      omega
    | succ i ih =>
      intro covers
      have unmarked := (front (i+1) early).2.not.mpr (Nat.succ_ne_zero i)
      rw [setChunk_covered covers,entry_isFirst] at unmarked
      apply ih (by omega)
      unfold Chunk.Covers at *
      simp only at *
      omega
  rw [setChunk_other (apart j (Nat.le_refl j))]
  refine runs j more inside (fun i early => ?_)
  have here := front i early
  rw [setChunk_other (apart i early)] at here
  exact here

theorem runsOn_granted (entries : Int → UInt8) (total s m : Nat) : RunsOn (setChunk ⟨s,m⟩ (Chunk.entry ⟨s,m⟩) entries) total s m := by
  intro j more _ _
  have covers : Chunk.Covers ⟨s,m⟩ (s+j : Nat) := by
    unfold Chunk.Covers
    dsimp only
    omega
  rw [setChunk_covered covers]
  intro last
  have ends := (entry_last ⟨s,m⟩ _).mp last
  dsimp only at ends
  omega

theorem Tiled.runs (valid : Tiled entries total chunks) (member : c ∈ chunks) (runs : RunsOn entries total c.start n) :
    n ≤ c.len ∨ total < c.start+c.len := by
  have positive := valid.positive c member
  by_contra short
  rw [not_or] at short
  have marked (i : Nat) (early : i ≤ c.len-1) : entries (c.start+i : Nat) = c.entry (c.start+i : Nat) := by
    apply valid.marked c member
    · unfold Chunk.Covers
      omega
    · omega
  apply runs (c.len-1) (by omega) (by omega)
  · intro i early
    rw [marked i early,entry_isFirst]
    refine ⟨entry_type c _,?_⟩
    omega
  · rw [marked _ (Nat.le_refl _),entry_last]
    omega

end NutsOS.HeapAlloc
