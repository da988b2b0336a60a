import NutsOS.Heap.Table

-- What heap_get_next_free_block finds, for every content of the table.
namespace NutsOS.HeapAlloc

def IsFree (entries : Int → UInt8) (i : Nat) : Prop :=
  heapGetEntryType (entries i) = heapBlockTableEntryFree

instance : Decidable (IsFree entries i) := inferInstanceAs (Decidable (_ = _))

def FreeRun (entries : Int → UInt8) (s n : Nat) : Prop := ∀ i, s ≤ i → i < s+n → IsFree entries i

theorem freeRun_iff : FreeRun entries s n ↔ ∀ i < n, IsFree entries (s+i) := by
  constructor
  · intro free i small
    exact free (s+i) (Nat.le_add_right s i) (by omega)
  · intro free i low high
    obtain ⟨j,rfl⟩ := Nat.exists_eq_add_of_le low
    exact free j (by omega)

instance : Decidable (FreeRun entries s n) := decidable_of_iff _ freeRun_iff.symm

def HasRun (entries : Int → UInt8) (total n : Nat) : Prop := ∃ s, s+n ≤ total ∧ FreeRun entries s n

def LastTaken (entries : Int → UInt8) (total : Nat) : Prop := ∀ t, total = t+1 → ¬ IsFree entries t

-- The three ways the scan ends. The third one is not an error for the source:
-- the scan reaches the end of the table inside a run that is still too short.
inductive ScanResult (entries : Int → UInt8) (total n : Nat) : Int → Prop where
  | found (s : Nat) (fits : s+n ≤ total) (free : FreeRun entries s n)
      (lowest : ∀ s', s' < s → ¬ FreeRun entries s' n) : ScanResult entries total n s
  | full (none : ¬ HasRun entries total n) (last : LastTaken entries total) : ScanResult entries total n (-1)
  | short (s : Nat) (none : ¬ HasRun entries total n) (inside : s < total)
      (free : FreeRun entries s (total-s)) : ScanResult entries total n s

-- State of the scan in front of index i: bc free blocks since the last taken
-- one, fewer than wanted, and no wanted run among the blocks seen.
structure Scanning (entries : Int → UInt8) (n i bc : Nat) (bs : Int) : Prop where
  counted : bc ≤ i
  short : bc < n
  run : FreeRun entries (i-bc) bc
  bounded : i-bc = 0 ∨ ¬ IsFree entries (i-bc-1)
  start : bs = if bc = 0 then -1 else ((i-bc : Nat) : Int)
  none : ∀ s, s+n ≤ i → ¬ FreeRun entries s n

theorem scanning_start (positive : 0 < n) : Scanning entries n 0 0 (-1) := by
  refine ⟨Nat.le_refl _,positive,?_,Or.inl rfl,rfl,?_⟩
  · intro i low high; omega
  · intro s bound; omega

theorem scanning_taken (scan : Scanning entries n i bc bs) (taken : ¬ IsFree entries i) :
    Scanning entries n (i+1) 0 (-1) := by
  refine ⟨Nat.zero_le _,Nat.zero_lt_of_lt scan.short,?_,Or.inr taken,rfl,?_⟩
  · intro j low high; omega
  · intro s bound run
    by_cases earlier : s+n ≤ i
    · exact scan.none s earlier run
    · have positive := Nat.zero_lt_of_lt scan.short
      exact taken (run i (by omega) (by omega))

theorem scanning_extends (scan : Scanning entries n i bc bs) (free : IsFree entries i) :
    FreeRun entries (i-bc) (bc+1) := by
  intro j low high
  by_cases last : j = i
  · exact last ▸ free
  · have counted := scan.counted
    exact scan.run j low (by omega)

theorem scanning_free (scan : Scanning entries n i bc bs) (free : IsFree entries i)
    (still : bc+1 ≠ n) : Scanning entries n (i+1) (bc+1) ((i-bc : Nat) : Int) := by
  have counted := scan.counted
  have short := scan.short
  have same : i+1-(bc+1) = i-bc := by omega
  refine ⟨by omega,by omega,?_,?_,?_,?_⟩
  · rw [same]; exact scanning_extends scan free
  · rw [same]; exact scan.bounded
  · simp [same]
  · intro s bound run
    by_cases earlier : s+n ≤ i
    · exact scan.none s earlier run
    · -- a run ending at i would have to cross the taken block before i-bc
      rcases scan.bounded with origin | taken
      · omega
      · exact taken (run (i-bc-1) (by omega) (by omega))

theorem scanning_found (scan : Scanning entries n i bc bs) (free : IsFree entries i)
    (inside : i < total) (enough : bc+1 = n) : ScanResult entries total n ((i-bc : Nat) : Int) := by
  have counted := scan.counted
  refine .found (i-bc) (by omega) (enough ▸ scanning_extends scan free) ?_
  intro s earlier run
  exact scan.none s (by omega) run

theorem scanning_end (scan : Scanning entries n total bc bs) : ScanResult entries total n bs := by
  have noRun : ¬ HasRun entries total n := fun ⟨s,fits,run⟩ => scan.none s fits run
  have counted := scan.counted
  rw [scan.start]
  split
  · rename_i empty
    refine .full noRun ?_
    intro t equal free
    subst empty
    rcases scan.bounded with origin | taken
    · omega
    · simp only [Nat.sub_zero,equal,Nat.add_sub_cancel] at taken
      exact taken free
  · rename_i some
    refine .short (total-bc) noRun (by omega) ?_
    have rest : total-(total-bc) = bc := by omega
    rw [rest]
    exact scan.run

theorem heapScan_result (scan : Scanning entries n i bc bs) (position : i+count = total) :
    ScanResult entries total n (heapScan entries n count i bc bs) := by
  induction count generalizing i bc bs with
  | zero =>
    simp only [Nat.add_zero] at position
    subst position
    exact scanning_end scan
  | succ count ih =>
    rw [heapScan]
    split
    · rename_i taken
      exact ih (scanning_taken scan taken) (by omega)
    · rename_i free
      have free : IsFree entries i := by simpa [IsFree] using free
      have first : (if bs = -1 then (i : Int) else bs) = ((i-bc : Nat) : Int) := by
        rw [scan.start]
        split <;> split <;> omega
      simp only [first]
      split
      · rename_i enough
        exact scanning_found scan free (by omega) enough
      · rename_i still
        exact ih (scanning_free scan free still) (by omega)

theorem getNextFreeBlock_scan (heap : Heap) (positive : 0 < n) :
    ∃ bs, ScanResult heap.table.entries heap.table.total n bs ∧
      heapGetNextFreeBlock heap n = if bs = -1 then -enomem else bs := by
  refine ⟨_,heapScan_result (scanning_start positive) (Nat.zero_add _),rfl⟩

-- The leftmost run of n free blocks is found, and -ENOMEM means there is none.
structure LeftmostFit (heap : Heap) (n : Nat) : Prop where
  found : HasRun heap.table.entries heap.table.total n → ∃ s : Nat, heapGetNextFreeBlock heap n = s ∧
    s+n ≤ heap.table.total ∧ FreeRun heap.table.entries s n ∧ ∀ earlier < s, ¬ FreeRun heap.table.entries earlier n
  refused : heapGetNextFreeBlock heap n = -enomem → ¬ HasRun heap.table.entries heap.table.total n

theorem next_free_block_leftmost (heap : Heap) (positive : 0 < n) : LeftmostFit heap n := by
  obtain ⟨bs,scan,result⟩ := getNextFreeBlock_scan heap positive
  generalize same : bs = value at scan
  cases scan with
  | found s fits free lowest =>
    have index : heapGetNextFreeBlock heap n = (s : Int) := by
      rw [result,same,if_neg (by omega)]
    refine ⟨fun _ => ⟨s,index,fits,free,lowest⟩,fun refused => ?_⟩
    rw [index] at refused
    simp only [enomem] at refused
    omega
  | full none => exact ⟨fun has => absurd has none,fun _ => none⟩
  | short s none => exact ⟨fun has => absurd has none,fun _ => none⟩

theorem leftmost_pair : LeftmostFit ⟨⟨fun i => if i = 1 then 1 else 0,4⟩,0x01000000⟩ 2 := next_free_block_leftmost _ (by decide)

end NutsOS.HeapAlloc
