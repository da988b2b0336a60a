import Mathlib.Data.List.Pairwise
import NutsOS.Heap.Chunks
import NutsOS.Lib.Runs

-- Reading the chunks back from the table's bytes, over runs of markings.
namespace NutsOS.HeapAlloc
open Runs

-- Reads `count` bytes from index i on, inside the chunk that started at the
-- given index or between chunks. Bytes that belong to no well-formed chunk, and
-- a chunk that the table's end cuts off, are refused.
def decodeFrom (entries : Int → UInt8) : Nat → Nat → Option Nat → Option (List Chunk)
  | 0,_,none => some []
  | 0,_,some _ => none
  | count+1,i,none =>
    if entries i = heapBlockTableEntryFree then decodeFrom entries count (i+1) none
    else if entries i = heapBlockTableEntryTaken ||| heapBlockIsFirst then
      (decodeFrom entries count (i+1) none).map (⟨i,1⟩::·)
    else if entries i = heapBlockTableEntryTaken ||| heapBlockIsFirst ||| heapBlockHasNext then
      decodeFrom entries count (i+1) (some i)
    else none
  | count+1,i,some start =>
    if entries i = heapBlockTableEntryTaken then (decodeFrom entries count (i+1) none).map (⟨start,i+1-start⟩::·)
    else if entries i = heapBlockTableEntryTaken ||| heapBlockHasNext then decodeFrom entries count (i+1) (some start)
    else none

def decodeTable (table : HeapTable) : Option (List Chunk) := decodeFrom table.entries table.total 0 none

-- The table is the live chunks, in their order, and free bytes.
structure DecodesTo (table : HeapTable) (live : Set Chunk) : Prop where
  decoded : ∃ chunks, decodeTable table = some chunks ∧ (∀ c, c ∈ chunks ↔ c ∈ live) ∧
    chunks.Pairwise (fun c d => c.start+c.len ≤ d.start)

-- Where the reading stands at index i: in the chunk it entered, or between chunks.
inductive Reading (chunks : Set Chunk) (i : Nat) : Option Nat → Prop where
  | between (ended : ∀ c ∈ chunks, c.start < i → c.start+c.len ≤ i) : Reading chunks i none
  | inside (member : ⟨s,n⟩ ∈ chunks) (entered : s < i) (more : i < s+n) : Reading chunks i (some s)

theorem entry_first {c : Chunk} (single : c.len = 1) : c.entry c.start = heapBlockTableEntryTaken ||| heapBlockIsFirst := by
  unfold Chunk.entry
  dsimp only
  rw [if_pos rfl,if_pos (by omega)]

theorem entry_opens {c : Chunk} (long : 1 < c.len) :
    c.entry c.start = heapBlockTableEntryTaken ||| heapBlockIsFirst ||| heapBlockHasNext := by
  unfold Chunk.entry
  dsimp only
  rw [if_pos rfl,if_neg (by omega)]

theorem entry_closes {c : Chunk} {i : Nat} (entered : c.start < i) (last : i+1 = c.start+c.len) :
    c.entry i = heapBlockTableEntryTaken := by
  unfold Chunk.entry
  dsimp only
  rw [if_pos (by omega),if_neg (by omega)]

theorem entry_continues {c : Chunk} {i : Nat} (entered : c.start < i) (more : i+1 < c.start+c.len) :
    c.entry i = heapBlockTableEntryTaken ||| heapBlockHasNext := by
  unfold Chunk.entry
  dsimp only
  rw [if_neg (by omega),if_neg (by omega)]

-- What is left to read at index i.
structure Reads (chunks : Set Chunk) (i : Nat) (list : List Chunk) : Prop where
  members : ∀ c, c ∈ list ↔ c ∈ chunks ∧ i < c.start+c.len
  sorted : list.Pairwise (fun c d => c.start+c.len ≤ d.start)

theorem Reads.cons (valid : Tiled entries total chunks) (rest : Reads chunks (i+1) list) (member : c ∈ chunks)
    (ends : c.start+c.len = i+1) : Reads chunks i (c::list) := by
  refine ⟨fun d => ⟨fun here => ?_,fun here => ?_⟩,List.pairwise_cons.mpr ⟨fun d later => ?_,rest.sorted⟩⟩
  · rcases List.mem_cons.mp here with rfl | later
    · exact ⟨member,by omega⟩
    · obtain ⟨old,open'⟩ := (rest.members d).mp later
      exact ⟨old,by omega⟩
  · obtain ⟨old,unread⟩ := here
    by_cases later : i+1 < d.start+d.len
    · exact List.mem_cons_of_mem _ ((rest.members d).mpr ⟨old,later⟩)
    · -- two chunks that end with the same block
      have same : d = c := by
        by_contra different
        have apart := valid.apart d old c member different
        have lengthC := valid.positive c member
        have lengthD := valid.positive d old
        unfold Chunk.Apart at apart
        omega
      exact same ▸ List.mem_cons_self
  · obtain ⟨old,open'⟩ := (rest.members d).mp later
    have different : c ≠ d := by
      rintro rfl
      omega
    have apart := valid.apart c member d old different
    unfold Chunk.Apart at apart
    have length := valid.positive d old
    have lengthC := valid.positive c member
    omega

theorem Reads.skip (rest : Reads chunks (i+1) list) (none : ∀ c ∈ chunks, c.start+c.len ≠ i+1) : Reads chunks i list := by
  refine ⟨fun c => ?_,rest.sorted⟩
  rw [rest.members c]
  constructor
  · rintro ⟨old,later⟩
    exact ⟨old,by omega⟩
  · rintro ⟨old,unread⟩
    have other := none c old
    exact ⟨old,by omega⟩

theorem Tiled.behind (valid : Tiled entries total chunks) (member : c ∈ chunks) (ends : c.start+c.len = i+1) :
    Reading chunks (i+1) none := by
  refine .between (fun d old earlier => ?_)
  by_cases same : d = c
  · rw [same]
    exact Nat.le_of_eq ends
  · have apart := valid.apart d old c member same
    have length := valid.positive c member
    unfold Chunk.Apart at apart
    omega

theorem Tiled.no_end (valid : Tiled entries total chunks) (member : c ∈ chunks) (entered : c.start ≤ i) (more : i+1 < c.start+c.len) :
    ∀ d ∈ chunks, d.start+d.len ≠ i+1 := by
  intro d old ends
  have different : d ≠ c := by
    rintro rfl
    omega
  have apart := valid.apart d old c member different
  have length := valid.positive d old
  unfold Chunk.Apart at apart
  omega

theorem decodeFrom_reads (valid : Decodes entries total chunks) (reading : Reading chunks i open') (position : i+count = total) :
    ∃ list, decodeFrom entries count i open' = some list ∧ Reads chunks i list := by
  induction count generalizing i open' with
  | zero =>
    cases reading with
    | between ended =>
      refine ⟨[],rfl,fun c => ⟨fun none => absurd none List.not_mem_nil,fun ⟨old,unread⟩ => ?_⟩,List.Pairwise.nil⟩
      have inside := valid.inside c old
      omega
    | inside member entered more =>
      have inside := valid.inside _ member
      simp only at inside
      omega
  | succ count ih =>
    cases reading with
    | between ended =>
      by_cases starts : ∃ n, (⟨i,n⟩ : Chunk) ∈ chunks
      · obtain ⟨n,member⟩ := starts
        have length := valid.positive _ member
        have marked := valid.marked _ member i ⟨Int.le_refl _,by dsimp only at *; omega⟩ (by omega)
        by_cases single : n = 1
        · subst single
          have next : Reading chunks (i+1) none := valid.toTiled.behind member rfl
          obtain ⟨list,decoded,rest⟩ := ih next (by omega)
          refine ⟨⟨i,1⟩::list,?_,rest.cons valid.toTiled member rfl⟩
          rw [decodeFrom,marked,entry_first (c := ⟨i,1⟩) rfl,if_neg (by decide),if_pos rfl,decoded]
          rfl
        · dsimp only at length
          obtain ⟨list,decoded,rest⟩ := ih (.inside member (Nat.lt_succ_self i) (by omega)) (by omega)
          refine ⟨list,?_,rest.skip (valid.toTiled.no_end member (Nat.le_refl i) (by dsimp only; omega))⟩
          rw [decodeFrom,marked,entry_opens (c := ⟨i,n⟩) (by dsimp only; omega),if_neg (by decide),if_neg (by decide),if_pos rfl]
          exact decoded
      · have uncovered : ∀ c ∈ chunks, ¬ c.Covers i := by
          intro c old ⟨low,high⟩
          by_cases here : c.start = i
          · exact starts ⟨c.len,by rw [← here]; exact old⟩
          · have finished := ended c old (by omega)
            omega
        have free := valid.free i (by omega) (by omega) uncovered
        have next : Reading chunks (i+1) none := by
          refine .between (fun c old earlier => ?_)
          by_cases here : c.start = i
          · exact absurd ⟨c.len,by rw [← here]; exact old⟩ starts
          · have finished := ended c old (by omega)
            omega
        obtain ⟨list,decoded,rest⟩ := ih next (by omega)
        refine ⟨list,?_,rest.skip (fun c old ends => ?_)⟩
        · rw [decodeFrom,free,if_pos rfl]
          exact decoded
        · have length := valid.positive c old
          exact uncovered c old ⟨by omega,by omega⟩
    | @inside s n member entered more =>
      have marked := valid.marked _ member i ⟨by dsimp only; omega,by dsimp only; omega⟩ (by omega)
      by_cases last : i+1 = s+n
      · have next : Reading chunks (i+1) none := valid.toTiled.behind member last.symm
        obtain ⟨list,decoded,rest⟩ := ih next (by omega)
        have len : i+1-s = n := by omega
        refine ⟨⟨s,n⟩::list,?_,rest.cons valid.toTiled member last.symm⟩
        rw [decodeFrom,marked,entry_closes (c := ⟨s,n⟩) entered last,if_pos rfl,decoded,len]
        rfl
      · have next : Reading chunks (i+1) (some s) := .inside member (by omega) (by omega)
        obtain ⟨list,decoded,rest⟩ := ih next (by omega)
        refine ⟨list,?_,rest.skip (valid.toTiled.no_end member (Nat.le_of_lt entered) (by dsimp only; omega))⟩
        rw [decodeFrom,marked,entry_continues (c := ⟨s,n⟩) entered (by dsimp only; omega),if_neg (by decide),if_pos rfl]
        exact decoded

theorem decodes_to {table : HeapTable} (valid : Decodes table.entries table.total live) : DecodesTo table live := by
  have start : Reading live 0 none := .between (fun c _ earlier => absurd earlier (Nat.not_lt_zero _))
  obtain ⟨list,decoded,reads⟩ := decodeFrom_reads valid start (Nat.zero_add _)
  refine ⟨list,decoded,fun c => ?_,reads.sorted⟩
  rw [reads.members c]
  refine ⟨fun ⟨old,_⟩ => old,fun old => ⟨old,?_⟩⟩
  have length := valid.positive c old
  omega

-- The live chunks are what the callers know of the table.
structure MarkRun where
  heap : Heap
  live : Set Chunk

inductive MarkAction where
  | taken (startBlock totalBlocks : Nat)
  | freed (startingBlock : Nat)

inductive MarkStep : MarkRun → MarkAction → MarkRun → Prop where
  | taken (positive : 1 ≤ n) (inside : s+n ≤ r.heap.table.total) (free : FreeRun r.heap.table.entries s n) :
      MarkStep r (.taken s n) ⟨(heapMarkBlocksTaken r.heap s n).1,insert ⟨s,n⟩ r.live⟩
  | freed (member : c ∈ r.live) : MarkStep r (.freed c.start) ⟨(heapMarkBlocksFree r.heap c.start).1,r.live \ {c}⟩

-- Freeing clears the chunk's own entries, inside the table and next to it.
def ClearsOwn (r : MarkRun) : MarkAction → MarkRun → Prop
  | .taken _ _,_ => True
  | .freed s,t => ∀ n, (⟨s,n⟩ : Chunk) ∈ r.live → ∀ i : Int, t.heap.table.entries i =
      if s ≤ i ∧ i < s+n then heapBlockTableEntryFree else r.heap.table.entries i

def MarkInvariant (r : MarkRun) : Prop := Decodes r.heap.table.entries r.heap.table.total r.live

theorem mark_keeps (r : MarkRun) (action : MarkAction) (t : MarkRun) (valid : MarkInvariant r) (step : MarkStep r action t) :
    MarkInvariant t := by
  cases step with
  | @taken n _ s positive inside free =>
    have marked := valid.insert positive inside free
    unfold MarkInvariant
    rw [heapMarkBlocksTaken_eq _ _ _ positive]
    exact marked
  | @freed c _ member =>
    have left := valid.remove member
    unfold MarkInvariant
    rw [heapMarkBlocksFree_eq _ valid member]
    exact left

theorem mark_clears (r : MarkRun) (action : MarkAction) (t : MarkRun) (valid : MarkInvariant r) (step : MarkStep r action t) :
    ClearsOwn r action t := by
  cases step with
  | taken => trivial
  | @freed c _ member =>
    intro n other i
    have same := valid.toTiled.start_unique member other rfl
    rw [heapMarkBlocksFree_eq _ valid member]
    show setChunk c (fun _ => heapBlockTableEntryFree) r.heap.table.entries i = _
    rw [same]
    rfl

theorem marks_decode (start : MarkRun) (valid : Decodes start.heap.table.entries start.heap.table.total start.live)
    (ran : IsRun MarkStep start trace) :
    Always (fun r => DecodesTo r.heap.table r.live) start trace ∧ Each ClearsOwn start trace :=
  ⟨kept_always mark_keeps (fun _ holds => decodes_to holds) valid ran,invariant_each mark_keeps mark_clears valid ran⟩

def fourBlocks : MarkRun := ⟨⟨⟨fun _ => 0,4⟩,0x01000000⟩,∅⟩

theorem pair_decodes :
    let taken : MarkRun := ⟨(heapMarkBlocksTaken fourBlocks.heap (1 : Nat) (2 : Nat)).1,insert ⟨1,2⟩ ∅⟩
    let trace := [(.taken 1 2,taken),(.freed 1,⟨(heapMarkBlocksFree taken.heap (1 : Nat)).1,taken.live \ {⟨1,2⟩}⟩)]
    Always (fun r => DecodesTo r.heap.table r.live) fourBlocks trace ∧ Each ClearsOwn fourBlocks trace :=
  marks_decode fourBlocks (decodes_empty (fun _ _ _ => rfl))
    ⟨.taken (by decide) (by decide) (fun _ _ _ => (by decide : heapGetEntryType 0 = heapBlockTableEntryFree)),.freed (c := ⟨1,2⟩)
      (Set.mem_insert _ _),trivial⟩

end NutsOS.HeapAlloc
