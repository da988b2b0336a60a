import NutsOS.Fat16.Restore
import NutsOS.File.RoundTrip

-- pathparser_free, and that it gives back just what the parse has taken.
namespace NutsOS.Files
open Stdutil HeapAlloc Fat16 Prog

-- How the parser and the release call kfree, and how the statements in between run.
structure FreeCalls (ε : Type) where
  run : {α : Type} → KernelProg α → Prog ε Kernel α
  kfree : Nat → Prog ε Kernel Unit

section
variable {ε : Type} (calls : FreeCalls ε)

def extractNextPathPartWith (path : List UInt8) : Prog ε Kernel (Nat × List UInt8) := do
  let resultPathPart ← calls.run (kzalloc nutsosMaxPath (.chars (List.replicate nutsosMaxPath 0)))
  let part := path.takeWhile isPartChar
  Prog.when (part ≠ []) (calls.run (storeChars resultPathPart part))
  let rest := path.dropWhile isPartChar
  let rest := if charOf rest = slash then rest.tail else rest
  if part = [] then
    calls.kfree resultPathPart
    return (0,rest)
  return (resultPathPart,rest)

def parsePathPartWith (lastPart : Nat) (path : List UInt8) : Prog ε Kernel (Nat × List UInt8) := do
  let (pathPartStr,path) ← extractNextPathPartWith calls path
  if pathPartStr = 0 then return (0,path)
  let part ← calls.run (kzalloc 8 (.pathPart ⟨0,0⟩))
  let _ ← calls.run (loadAs asPathPart part)
  calls.run (store part (.pathPart ⟨pathPartStr,0⟩))
  Prog.when (lastPart ≠ 0) (calls.run (do
    let last ← loadAs asPathPart lastPart
    store lastPart (.pathPart {last with next := part})))
  return (part,path)

def parsePartsWith : Nat → Nat → List UInt8 → Prog ε Kernel Unit
  | 0,_,_ => calls.run (Prog.fault .unbounded)
  | fuel+1,part,path => do
    let (part,path) ← parsePathPartWith calls part path
    if part = 0 then return ()
    parsePartsWith fuel part path

def parseWith (path : List UInt8) : Prog ε Kernel Nat := do
  if strlen path > nutsosMaxPath then return 0
  let (res,tmpPath) := pathparserExtractDriveFromPath path
  if res < 0 then return 0
  let pathRoot ← calls.run (pathparserCreateRoot res)
  if pathRoot = 0 then return pathRoot
  let (firstPart,tmpPath) ← parsePathPartWith calls 0 tmpPath
  if firstPart = 0 then return pathRoot
  let root ← calls.run (loadAs asPathRoot pathRoot)
  calls.run (store pathRoot (.pathRoot {root with first := firstPart}))
  parsePartsWith calls (path.length+1) firstPart tmpPath
  return pathRoot

-- The release reads a part before it gives it back.
def freePartsWith : Nat → Nat → Prog ε Kernel Unit
  | 0,_ => calls.run (Prog.fault .unbounded)
  | fuel+1,part => do
    if part = 0 then return ()
    let found ← calls.run (loadAs asPathPart part)
    calls.kfree found.part
    calls.kfree part
    freePartsWith fuel found.next

def pathFreeWith (root : Nat) : Prog ε Kernel Unit := do
  let found ← calls.run (loadAs asPathRoot root)
  freePartsWith calls 4294967296 found.first
  calls.kfree root

end

-- No list has more parts than there are addresses.
def freeParts : Nat → Nat → KernelProg Unit
  | 0,_ => Prog.fault .unbounded
  | fuel+1,part => do
    if part = 0 then return ()
    let found ← loadAs asPathPart part
    kfree found.part
    kfree part
    freeParts fuel found.next

def pathparserFree (root : Nat) : KernelProg Unit := do
  let found ← loadAs asPathRoot root
  freeParts 4294967296 found.first
  kfree root

def plainCalls : FreeCalls Fault := ⟨fun x => x,kfree⟩

theorem parsePartsWith_plain (fuel part : Nat) (path : List UInt8) : parsePartsWith plainCalls fuel part path = parseParts fuel part path := by
  induction fuel generalizing part path with
  | zero => rfl
  | succ fuel ih =>
    unfold parsePartsWith parseParts
    simp only [ih]
    rfl

theorem parseWith_plain : parseWith plainCalls = pathparserParse := by
  funext path
  unfold parseWith pathparserParse
  simp only [parsePartsWith_plain]
  rfl

theorem freePartsWith_plain (fuel part : Nat) : freePartsWith plainCalls fuel part = freeParts fuel part := by
  induction fuel generalizing part with
  | zero => rfl
  | succ fuel ih =>
    unfold freePartsWith freeParts
    simp only [ih]
    rfl

theorem pathFreeWith_plain : pathFreeWith plainCalls = pathparserFree := by
  funext root
  unfold pathFreeWith pathparserFree
  simp only [freePartsWith_plain]
  rfl

-- A call that stops at a block that is not in use.
def liveCalls : FreeCalls Stop where
  run := embed .fault
  kfree ptr := do
    if ptr ≠ 0 ∧ ((← Prog.get).objs ptr).isNone then Prog.fault .freed else embed .fault (kfree ptr)

theorem live_run (x : KernelProg α) : liveCalls.run x = embed Stop.fault x := rfl

theorem live_kfree {k : Kernel} (live : ptr = 0 ∨ (k.objs ptr).isSome) : liveCalls.kfree ptr k = embed Stop.fault (kfree ptr) k := by
  show (if ptr ≠ 0 ∧ (k.objs ptr).isNone then fault .freed else embed .fault (kfree ptr) : Prog Stop Kernel Unit) k = _
  rw [if_neg]
  rintro ⟨nonnull,empty⟩
  rcases live with null | live
  · exact nonnull null
  · rw [Option.isNone_iff_eq_none.mp empty] at live
    cases live

-- The parser only gives back the buffer that it has just taken.
theorem extractPart_live {k : Kernel} (valid : HeapValid k) (path : List UInt8) :
    extractNextPathPartWith liveCalls path k = embed Stop.fault (pathparserExtractNextPathPart path) k := by
  refine bind_follows rfl (fun ptr one allocated => ?_)
  obtain ⟨grown,result⟩ := kzalloc_fresh valid (by decide) allocated
  refine bind_follows (when_follows (fun _ => rfl)) (fun _ two stored => ite_follows (fun none => ?_) (fun _ => rfl))
  rw [Prog.when_false (fun some => some none)] at stored
  cases stored
  refine bind_follows (live_kfree ?_) (fun _ three _ => rfl)
  rcases result with ⟨null,_⟩ | ⟨_,_,held⟩
  · exact .inl null
  · exact .inr (by simp [held])

theorem parsePathPart_live {k : Kernel} (valid : HeapValid k) (lastPart : Nat) (path : List UInt8) :
    parsePathPartWith liveCalls lastPart path k = embed Stop.fault (pathparserParsePathPart lastPart path) k := by
  refine bind_follows (extractPart_live valid path) (fun str one _ => ite_follows (fun _ => rfl) (fun _ => ?_))
  refine bind_follows rfl (fun part two _ => bind_follows rfl (fun _ three _ => bind_follows rfl (fun _ four _ => ?_)))
  exact bind_follows (when_follows (fun _ => rfl)) (fun _ five _ => rfl)

theorem parseParts_live {base k : Kernel} (grown : Grown base k) (new : base.objs part = none)
    (held : k.objs part = some (.pathPart ⟨buf,0⟩)) (fuel : Nat) (path : List UInt8) :
    parsePartsWith liveCalls fuel part path k = embed Stop.fault (parseParts fuel part path) k := by
  induction fuel generalizing part path k buf with
  | zero => rfl
  | succ fuel ih =>
    refine bind_follows (parsePathPart_live grown.valid part path) (fun found one parsed => ite_follows (fun _ => rfl) (fun nonnull => ?_))
    obtain ⟨first,_,turn⟩ := parsePathPart_grown grown (fun _ => ⟨new,by simp [held]⟩) parsed
    cases turn with
    | ended _ null => exact absurd null nonnull
    | added _ _ fresh str heldOne => exact ih first (grown.fresh fresh) heldOne found.2

theorem parse_live {k : Kernel} (valid : HeapValid k) (path : List UInt8) :
    parseWith liveCalls path k = embed Stop.fault (pathparserParse path) k := by
  unfold parseWith pathparserParse
  generalize pathparserExtractDriveFromPath path = drive
  refine ite_follows (fun _ => rfl) (fun _ => ite_follows (fun _ => rfl) (fun _ => ?_))
  refine bind_follows rfl (fun root one made => ite_follows (fun _ => rfl) (fun _ => ?_))
  obtain ⟨first,nonnull,fresh,held⟩ := createRoot_grown valid made
  refine bind_follows (parsePathPart_live first.valid 0 _) (fun found two parsed => ite_follows (fun _ => rfl) (fun some => ?_))
  obtain ⟨second,_,turn⟩ := parsePathPart_grown first (fun absurd => (absurd rfl).elim) parsed
  have heldTwo := turn.kept nonnull (by simp [held])
  refine bind_follows rfl (fun value three loaded => bind_follows rfl (fun _ four stored => ?_))
  obtain ⟨rfl,before⟩ := load_held asPathRoot_eq loaded
  cases stored
  cases turn with
  | ended _ null => exact absurd null some
  | added _ _ freshPart str heldPart =>
    have apart : found.1 ≠ root := by
      intro same
      rw [same,held] at freshPart
      cases freshPart
    have placed := second.place fresh (by simp [before]) (.pathRoot {value with first := found.1})
    have heldThree : (two.place root (.pathRoot {value with first := found.1})).objs found.1 = Option.some (.pathPart ⟨str,0⟩) := by
      rw [Kernel.place_other apart]
      exact heldPart
    exact bind_follows (parseParts_live placed (first.fresh freshPart) heldThree _ _) (fun _ five _ => rfl)

-- The blocks of the list, in the order they are given back in.
inductive PathBlocks (k : Kernel) : Nat → List Nat → Prop where
  | nil : PathBlocks k 0 []
  | cons (nonnull : part ≠ 0) (held : k.objs part = some (.pathPart ⟨buf,next⟩)) (later : PathBlocks k next blocks) :
      PathBlocks k part (buf::part::blocks)

theorem PathBlocks.kept (list : PathBlocks k part blocks) (same : ∀ a ∈ blocks, after.objs a = k.objs a) : PathBlocks after part blocks := by
  induction list with
  | nil => exact .nil
  | cons nonnull held later ih =>
    refine .cons nonnull ?_ (ih (fun a member => same a (List.mem_cons_of_mem _ (List.mem_cons_of_mem _ member))))
    rw [same _ (by simp)]
    exact held

theorem extractPart_ledger (ledger : Ledger base owned k) (ran : pathparserExtractNextPathPart path k = .ok ((buf,rest),after)) :
    (buf = 0 → Ledger base owned after) ∧ (buf ≠ 0 → Ledger base (buf::owned) after) := by
  obtain ⟨ptr,one,allocated,ran⟩ := Prog.bind_ok.mp ran
  obtain ⟨⟨⟩,two,stored,ran⟩ := Prog.bind_ok.mp ran
  have refused (null : ptr = 0) : one = k := by
    obtain ⟨_,result⟩ := kzalloc_fresh ledger.grown.valid (by decide) allocated
    rcases result with ⟨_,same⟩ | ⟨nonnull,_⟩
    · exact same
    · exact absurd null nonnull
  by_cases none : path.takeWhile isPartChar = []
  · rw [Prog.when_false (fun some => some none)] at stored
    cases stored
    rw [if_pos none] at ran
    obtain ⟨⟨⟩,three,freed,ran⟩ := Prog.bind_ok.mp ran
    cases ran
    refine ⟨fun _ => ?_,fun some => absurd rfl some⟩
    by_cases null : ptr = 0
    · rw [refused null,null] at freed
      exact ledger.freeNull freed
    · obtain ⟨taken,_⟩ := ledger.alloc (by decide) allocated null
      have single : Ledger base ([]++ptr::owned) one := taken
      obtain ⟨after',freed',left,_⟩ := single.free
      rw [freed'] at freed
      cases freed
      exact left
  · rw [Prog.when_true none] at stored
    rw [if_neg none] at ran
    cases ran
    obtain ⟨bytes,held,_,rfl⟩ := storeChars_ok stored
    have some : buf ≠ 0 := by
      intro null
      rw [refused null,null,ledger.grown.valid.null] at held
      cases held
    obtain ⟨taken,_⟩ := ledger.alloc (by decide) allocated some
    exact ⟨fun null => absurd null some,fun _ => taken.place _ List.mem_cons_self _⟩

theorem parsePathPart_ledger (ledger : Ledger base owned k) (last : lastPart ≠ 0 → lastPart ∈ owned)
    (ran : pathparserParsePathPart lastPart path k = .ok ((part,rest),after)) :
    (part = 0 → Ledger base owned after) ∧ (part ≠ 0 → ∃ buf next, after.objs part = some (.pathPart ⟨buf,next⟩) ∧
      Ledger base (buf::part::owned) after) := by
  obtain ⟨⟨str,next⟩,one,extracted,ran⟩ := Prog.bind_ok.mp ran
  obtain ⟨empty,taken⟩ := extractPart_ledger ledger extracted
  dsimp only at ran
  by_cases null : str = 0
  · rw [if_pos null] at ran
    cases ran
    exact ⟨fun _ => empty null,fun some => absurd rfl some⟩
  · rw [if_neg null] at ran
    obtain ⟨ptr,two,allocated,ran⟩ := Prog.bind_ok.mp ran
    obtain ⟨value,three,loaded,ran⟩ := Prog.bind_ok.mp ran
    obtain ⟨⟨⟩,four,stored,ran⟩ := Prog.bind_ok.mp ran
    obtain ⟨⟨⟩,five,linked,ran⟩ := Prog.bind_ok.mp ran
    cases ran
    have first := taken null
    obtain ⟨_,rfl,some,new,_⟩ := kzalloc_loaded first.grown.valid (by decide) allocated loaded
    cases stored
    obtain ⟨second,_⟩ := first.alloc (by decide) allocated some
    have third := (second.place part List.mem_cons_self (.pathPart ⟨str,0⟩)).perm (List.Perm.swap str part owned)
    refine ⟨fun none => absurd none some,fun _ => ?_⟩
    by_cases alone : lastPart = 0
    · rw [Prog.when_false (by simp [alone])] at linked
      cases linked
      exact ⟨str,0,Kernel.place_same _ _ _,third⟩
    · rw [Prog.when_true alone] at linked
      obtain ⟨old,six,read,linked⟩ := Prog.bind_ok.mp linked
      obtain ⟨rfl,before⟩ := load_held asPathPart_eq read
      cases linked
      have apart : part ≠ lastPart := by
        intro same
        have owner := (first.live lastPart (List.mem_cons_of_mem _ (last alone))).2
        rw [← same,new] at owner
        cases owner
      refine ⟨str,0,?_,third.place lastPart (by simp [last alone]) _⟩
      rw [Kernel.place_other apart]
      exact Kernel.place_same _ _ _

-- The parts behind `part`; the induction is on the turns.
theorem parseParts_ledger (ledger : Ledger base owned k) (member : part ∈ owned) (held : k.objs part = some (.pathPart ⟨buf,0⟩))
    (ran : parseParts fuel part path k = .ok ((),after)) :
    ∃ next blocks, after.objs part = some (.pathPart ⟨buf,next⟩) ∧ PathBlocks after next blocks ∧ Ledger base (blocks++owned) after := by
  have new := (ledger.live part member).1
  have ⟨next,heldAfter⟩ : ∃ next, after.objs part = some (.pathPart ⟨buf,next⟩) := by
    obtain ⟨_,_,next,heldAfter,_⟩ := parseParts_grown ledger.grown new held ran
    exact ⟨next,heldAfter⟩
  refine ⟨next,?_⟩
  suffices rest : ∃ blocks, PathBlocks after next blocks ∧ Ledger base (blocks++owned) after by
    obtain ⟨blocks,list,left⟩ := rest
    exact ⟨blocks,heldAfter,list,left⟩
  induction fuel generalizing part path k buf owned next with
  | zero => cases ran
  | succ fuel ih =>
    obtain ⟨⟨found,rest⟩,one,parsed,ran⟩ := Prog.bind_ok.mp ran
    obtain ⟨first,rfl,turn⟩ := parsePathPart_grown ledger.grown (fun _ => ⟨new,by simp [held]⟩) parsed
    obtain ⟨ended,added⟩ := parsePathPart_ledger ledger (fun _ => member) parsed
    dsimp only at ran
    cases turn with
    | ended empty null kept =>
      rw [if_pos null] at ran
      cases ran
      rw [kept part (by simp [held]),held] at heldAfter
      cases heldAfter
      exact ⟨[],.nil,ended null⟩
    | added chars nonnull fresh str heldOne string kept linked =>
      rw [if_neg nonnull] at ran
      obtain ⟨str',_,same,taken⟩ := added nonnull
      rw [heldOne] at same
      cases same
      have apart : part ≠ found := by
        intro same
        rw [← same,held] at fresh
        cases fresh
      obtain ⟨_,keeps,later,heldFound,_⟩ := parseParts_grown first (ledger.grown.fresh fresh) heldOne ran
      rw [keeps part apart (by simp [linked _ held]),linked _ held] at heldAfter
      cases heldAfter
      have inside : next ∈ str::next::owned := by simp
      obtain ⟨blocks,list,left⟩ := ih taken inside heldOne ran (ledger.grown.fresh fresh) later heldFound
      refine ⟨str::next::blocks,.cons nonnull heldFound list,left.perm ?_⟩
      refine List.perm_append_comm.trans ?_
      exact (List.perm_append_comm.cons next).cons str

-- What a parse has taken: nothing for NULL, and otherwise the root behind the
-- blocks of its list.
inductive ParseTaken (k : Kernel) (root : Nat) (after : Kernel) : Prop where
  | refused (null : root = 0) (same : after = k)
  | taken (nonnull : root ≠ 0) (held : after.objs root = some (.pathRoot ⟨drive,first⟩)) (list : PathBlocks after first blocks)
      (ledger : Ledger k (blocks++[root]) after)

theorem pathparserParse_ledger {k : Kernel} (valid : HeapValid k) (ran : pathparserParse path k = .ok (root,after)) :
    ParseTaken k root after := by
  obtain ⟨_,result⟩ := pathparserParse_grown valid ran
  cases result with
  | refused _ null same => exact .refused null same
  | parsed short prefixed =>
    obtain ⟨drive,positive⟩ := extractDrive_valid prefixed
    unfold pathparserParse at ran
    rw [if_neg (Nat.not_lt.mpr short),drive] at ran
    dsimp only at ran
    rw [if_neg positive] at ran
    obtain ⟨ptr,one,made,ran⟩ := Prog.bind_ok.mp ran
    obtain ⟨_,nonnull,fresh,held⟩ := createRoot_grown valid made
    have first : Ledger k [ptr] one := by
      obtain ⟨ptr,two,allocated,made⟩ := Prog.bind_ok.mp made
      obtain ⟨value,three,loaded,made⟩ := Prog.bind_ok.mp made
      obtain ⟨_,rfl,some,_⟩ := kzalloc_loaded valid (by decide) allocated loaded
      cases made
      exact ((Ledger.start valid).alloc (by decide) allocated some).1.place _ List.mem_cons_self _
    rw [if_neg nonnull] at ran
    obtain ⟨⟨part,rest⟩,two,parsed,ran⟩ := Prog.bind_ok.mp ran
    obtain ⟨_,rfl,turn⟩ := parsePathPart_grown first.grown (fun absurd => (absurd rfl).elim) parsed
    obtain ⟨ended,added⟩ := parsePathPart_ledger first (fun absurd => (absurd rfl).elim) parsed
    have heldTwo := turn.kept nonnull (by simp [held])
    rw [held] at heldTwo
    dsimp only at ran
    cases turn with
    | ended _ null =>
      rw [if_pos null] at ran
      cases ran
      exact .taken nonnull heldTwo .nil (ended null)
    | added _ some freshPart str heldPart =>
      rw [if_neg some] at ran
      obtain ⟨value,three,loaded,ran⟩ := Prog.bind_ok.mp ran
      obtain ⟨rfl,before⟩ := load_held asPathRoot_eq loaded
      rw [heldTwo] at before
      cases before
      obtain ⟨⟨⟩,four,stored,ran⟩ := Prog.bind_ok.mp ran
      cases stored
      obtain ⟨⟨⟩,five,others,ran⟩ := Prog.bind_ok.mp ran
      cases ran
      obtain ⟨str',_,same,taken⟩ := added some
      rw [heldPart] at same
      cases same
      have apart : part ≠ root := by
        intro same
        rw [same,held] at freshPart
        cases freshPart
      have placed := taken.place root (by simp) (.pathRoot ⟨ctoi (charOf path),part⟩)
      have heldThree : (two.place root (.pathRoot ⟨ctoi (charOf path),part⟩)).objs part = Option.some (.pathPart ⟨str,0⟩) := by
        rw [Kernel.place_other apart]
        exact heldPart
      obtain ⟨_,keeps,_⟩ := parseParts_grown placed.grown (placed.live part (by simp)).1 heldThree others
      obtain ⟨next,blocks,heldLast,list,left⟩ := parseParts_ledger placed (by simp) heldThree others
      have heldRoot := keeps root apart.symm (by simp)
      rw [Kernel.place_same] at heldRoot
      refine .taken nonnull heldRoot (.cons some heldLast list) (left.perm ?_)
      refine List.perm_append_comm.trans ?_
      exact (List.perm_append_comm.cons part).cons str

theorem kfree_live (front : List Nat) (ledger : Ledger base (front++ptr::rest) k) :
    ∃ after, liveCalls.kfree ptr k = .ok ((),after) ∧ Ledger base (front++rest) after ∧ ∀ a, a ≠ ptr → after.objs a = k.objs a := by
  obtain ⟨after,freed,left,kept⟩ := ledger.free
  have live := (ledger.live ptr (List.mem_append_right _ List.mem_cons_self)).2
  exact ⟨after,by rw [live_kfree (.inr live),embed_run freed],left,kept⟩

theorem freeParts_ledger (fuel : Nat) (list : PathBlocks k part blocks) (ledger : Ledger base (blocks++rest) k)
    (enough : blocks.length < 2*fuel) :
    ∃ after, freePartsWith liveCalls fuel part k = .ok ((),after) ∧ Ledger base rest after ∧ ∀ a, a ∉ blocks → after.objs a = k.objs a := by
  induction fuel generalizing k part blocks with
  | zero => omega
  | succ fuel ih =>
    cases list with
    | nil =>
      refine ⟨k,?_,ledger,fun _ _ => rfl⟩
      unfold freePartsWith
      rw [if_pos rfl]
      rfl
    | @cons _ buf next blocks nonnull held later =>
      have single := ledger.single
      obtain ⟨one,freedOne,first,keptOne⟩ := kfree_live [] ledger
      obtain ⟨two,freedTwo,second,keptTwo⟩ := kfree_live [] first
      rw [List.cons_append,List.cons_append,List.nodup_cons,List.nodup_cons] at single
      have kept (a : Nat) (other : a ≠ buf ∧ a ≠ part) : two.objs a = k.objs a := (keptTwo a other.2).trans (keptOne a other.1)
      have list : PathBlocks two next blocks := later.kept (fun a member => kept a ⟨?_,?_⟩)
      · rw [List.length_cons,List.length_cons] at enough
        obtain ⟨after,ran,left,keeps⟩ := ih list second (by omega)
        refine ⟨after,?_,left,fun a other => ?_⟩
        · unfold freePartsWith
          rw [if_neg nonnull,live_run,bind_run (embed_run (loadAs_run asPathPart held rfl)),bind_run freedOne,bind_run freedTwo]
          exact ran
        · simp only [List.mem_cons,not_or] at other
          rw [keeps a other.2.2,kept a ⟨other.1,other.2.1⟩]
      · rintro rfl
        exact single.1 (by simp [member])
      · rintro rfl
        exact single.2.1 (by simp [member])

theorem ledger_bounded (ledger : Ledger base owned k) : owned.length ≤ 2147483648 := by
  have within : owned ⊆ List.range 2147483648 := by
    intro a member
    have low := (ledger.grown.valid.low (ledger.live a member).2).2.2
    rw [List.mem_range]
    omega
  have short := (List.subperm_of_subset ledger.single within).length_le
  rw [List.length_range] at short
  exact short

theorem live_watches (ptr : Nat) : Watches Stop.fault (liveCalls.kfree ptr) (kfree ptr) := by
  intro k
  show Matches _ ((if ptr ≠ 0 ∧ (k.objs ptr).isNone then fault .freed else embed .fault (kfree ptr) : Prog Stop Kernel Unit) k) _
  by_cases empty : ptr ≠ 0 ∧ (k.objs ptr).isNone
  · rw [if_pos empty]
    exact watches_stop (fun _ same => by cases same) _ k
  · rw [if_neg empty]
    exact watches_embed _ k

theorem freeParts_watches (fuel part : Nat) : Watches Stop.fault (freePartsWith liveCalls fuel part) (freeParts fuel part) := by
  induction fuel generalizing part with
  | zero => exact watches_embed (Prog.fault Fault.unbounded)
  | succ fuel ih =>
    refine watches_ite (watches_pure _) (watches_bind (watches_embed _) (fun found => ?_))
    exact watches_bind (live_watches _) (fun _ => watches_bind (live_watches _) (fun _ => ih _))

theorem pathFree_watches (root : Nat) : Watches Stop.fault (pathFreeWith liveCalls root) (pathparserFree root) :=
  watches_bind (watches_embed _) (fun _ => watches_bind (freeParts_watches _ _) (fun _ => live_watches _))

-- The parse, and the release of its root, give back blocks in use only, and the
-- table is what it was.
structure Released (k : Kernel) (path : List UInt8) (root : Nat) (after : Kernel) : Prop where
  live : parseWith liveCalls path k = .ok (root,after)
  refused : root = 0 → SameBlocks k after
  freed : root ≠ 0 → ∃ final, pathparserFree root after = .ok ((),final) ∧ pathFreeWith liveCalls root after = .ok ((),final) ∧
    SameBlocks k final

theorem ParseTaken.released {k : Kernel} (taken : ParseTaken k root after) (nonnull : root ≠ 0) :
    ∃ final, pathparserFree root after = .ok ((),final) ∧ pathFreeWith liveCalls root after = .ok ((),final) ∧ SameBlocks k final := by
  cases taken with
  | refused null => exact absurd null nonnull
  | @taken _ first blocks _ held list ledger =>
    have short := ledger_bounded ledger
    rw [List.length_append,List.length_singleton] at short
    obtain ⟨one,parts,left,_⟩ := freeParts_ledger 4294967296 list ledger (by omega)
    obtain ⟨final,freed,last,_⟩ := kfree_live [] left
    have ran : pathFreeWith liveCalls root after = .ok ((),final) := by
      unfold pathFreeWith
      rw [live_run,bind_run (embed_run (loadAs_run asPathRoot held rfl)),bind_run parts]
      exact freed
    exact ⟨final,(pathFree_watches root after).returned ran,ran,last.settled⟩

def parseBlocks (path : List UInt8) : Nat :=
  if strlen path ≤ nutsosMaxPath ∧ pathparserIsPathValid path = true then 2*(parts (path.drop 3)).length+2 else 0

theorem parse_free_restores {k : Kernel} (valid : HeapValid k) (path : List UInt8) :
    (Spare k.heap (parseBlocks path) → ∃ root after, pathparserParse path k = .ok (root,after)) ∧
      ∀ root after, pathparserParse path k = .ok (root,after) → Released k path root after := by
  constructor
  · intro spare
    by_cases accepted : strlen path ≤ nutsosMaxPath ∧ pathparserIsPathValid path = true
    · unfold parseBlocks at spare
      rw [if_pos accepted] at spare
      have stock : spareStock.has k.heap (2*(parts (path.drop 3)).length+2+0) := spare
      obtain ⟨root,after,ran,_⟩ := pathparserParse_returns spareStock valid accepted.1 accepted.2 stock
      exact ⟨root,after,ran⟩
    · refine ⟨0,k,pathparserParse_refused ?_ k⟩
      by_cases long : nutsosMaxPath < strlen path
      · exact .inl long
      · exact .inr (Bool.eq_false_iff.mpr (fun prefixed => accepted ⟨Nat.le_of_not_lt long,prefixed⟩))
  · intro root after ran
    have taken := pathparserParse_ledger valid ran
    refine ⟨?_,?_,taken.released⟩
    · rw [parse_live valid path,embed_run ran]
    · intro null
      cases taken with
      | refused _ same =>
        rw [same]
        exact (Ledger.start valid).settled
      | taken nonnull => exact absurd null nonnull

theorem doubled_path_released : ∃ root after final, pathparserParse doubledPath (bootKernel bootEntries noDisk) = .ok (root,after) ∧
    root ≠ 0 ∧ pathparserFree root after = .ok ((),final) ∧ SameBlocks (bootKernel bootEntries noDisk) final := by
  have valid := boot_valid bootEntries noDisk rfl
  obtain ⟨returns,released⟩ := parse_free_restores valid doubledPath
  obtain ⟨root,after,ran⟩ := returns ((boot_room bootEntries noDisk).less (by decide)).spare
  obtain ⟨_,result⟩ := pathparserParse_grown valid ran
  cases result with
  | refused bad => exact absurd bad (by decide)
  | parsed _ _ nonnull =>
    obtain ⟨final,freed,_,same⟩ := (released root after ran).freed nonnull
    exact ⟨root,after,final,ran,nonnull,freed,same⟩

end NutsOS.Files
