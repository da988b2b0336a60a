import NutsOS.File.Components
import NutsOS.Kernel.Growth

-- What a parse allocates, and the list it builds.
namespace NutsOS.Files
open Stdutil HeapAlloc

theorem asChars_eq (obj : Obj) (bytes : List UInt8) (typed : asChars obj = some bytes) : obj = .chars bytes := by
  cases obj <;> cases typed
  rfl

theorem asPathRoot_eq (obj : Obj) (root : PathRoot) (typed : asPathRoot obj = some root) : obj = .pathRoot root := by
  cases obj <;> cases typed
  rfl

theorem asPathPart_eq (obj : Obj) (part : PathPart) (typed : asPathPart obj = some part) : obj = .pathPart part := by
  cases obj <;> cases typed
  rfl

theorem kzalloc_loaded {k : Kernel} {view : Obj → Option α} (valid : HeapValid k) (positive : 1 ≤ size)
    (allocated : kzalloc size zero k = .ok (ptr,middle)) (loaded : loadAs view ptr middle = .ok (value,after)) :
    Grown k middle ∧ middle = after ∧ ptr ≠ 0 ∧ k.objs ptr = none ∧ middle.objs ptr = some zero := by
  obtain ⟨grown,result⟩ := kzalloc_fresh valid positive allocated
  obtain ⟨⟨obj,held,_⟩,same⟩ := loadAs_ok.mp loaded
  rcases result with ⟨rfl,rfl⟩ | ⟨nonnull,fresh,zeroed⟩
  · rw [valid.null] at held
    cases held
  · exact ⟨grown,same.symm,nonnull,fresh,zeroed⟩

theorem createRoot_grown {k : Kernel} (valid : HeapValid k) (ran : pathparserCreateRoot drive k = .ok (root,after)) :
    Grown k after ∧ root ≠ 0 ∧ k.objs root = none ∧ after.objs root = some (.pathRoot ⟨drive,0⟩) := by
  obtain ⟨ptr,one,allocated,ran⟩ := Prog.bind_ok.mp ran
  obtain ⟨value,two,loaded,ran⟩ := Prog.bind_ok.mp ran
  obtain ⟨grown,rfl,nonnull,fresh,held⟩ := kzalloc_loaded valid (by decide) allocated loaded
  cases ran
  exact ⟨grown.place fresh (by simp [held]) _,nonnull,fresh,Kernel.place_same _ _ _⟩

theorem storeChars_ok {k : Kernel} (ran : storeChars buf chars k = .ok ((),after)) :
    ∃ bytes, k.objs buf = some (.chars bytes) ∧ chars.length ≤ bytes.length ∧
      after = k.place buf (.chars (chars++bytes.drop chars.length)) := by
  obtain ⟨bytes,one,loaded,ran⟩ := Prog.bind_ok.mp ran
  obtain ⟨rfl,held⟩ := load_held asChars_eq loaded
  by_cases short : bytes.length < chars.length
  · rw [if_pos short] at ran
    cases ran
  · rw [if_neg short] at ran
    cases ran
    exact ⟨bytes,held,Nat.le_of_not_lt short,rfl⟩

def partString (name : List UInt8) : List UInt8 := name++(List.replicate nutsosMaxPath 0).drop name.length
def partBuffer (name : List UInt8) : Obj := .chars (partString name)

-- The linked list of the parts, each one in a buffer of its own.
def PathList (k : Kernel) : Nat → List (List UInt8) → Prop
  | ptr,[] => ptr = 0
  | ptr,name::rest => ∃ buf next, k.objs ptr = some (.pathPart ⟨buf,next⟩) ∧ k.objs buf = some (partBuffer name) ∧
      PathList k next rest

theorem PathList.grown (list : PathList k ptr names) (kept : ∀ a obj, k.objs a = some obj → after.objs a = some obj) :
    PathList after ptr names := by
  induction names generalizing ptr with
  | nil => exact list
  | cons name rest ih =>
    obtain ⟨buf,next,part,string,later⟩ := list
    exact ⟨buf,next,kept _ _ part,kept _ _ string,ih later⟩

theorem PathList.null_iff (valid : HeapValid k) (list : PathList k ptr names) : ptr = 0 ↔ names = [] := by
  cases names with
  | nil => exact ⟨fun _ => rfl,fun _ => list⟩
  | cons name rest =>
    obtain ⟨_,_,part,_⟩ := list
    refine ⟨fun none => ?_,fun absurd => by cases absurd⟩
    rw [none,valid.null] at part
    cases part

theorem PathList.length_eq (valid : HeapValid k) (one : PathList k ptr names) (two : PathList k ptr others) :
    names.length = others.length := by
  induction names generalizing ptr others with
  | nil =>
    rw [(two.null_iff valid).mp one]
  | cons name rest ih =>
    cases others with
    | nil => exact absurd ((one.null_iff valid).mp two) (by simp)
    | cons other later =>
      obtain ⟨buf,next,part,_,left⟩ := one
      obtain ⟨buf',next',part',_,left'⟩ := two
      rw [part] at part'
      cases part'
      rw [List.length_cons,List.length_cons,ih left left']

theorem PathList.distinct (valid : HeapValid k) (list : PathList k ptr names) :
    ∃ ptrs : List Nat, ptrs.length = names.length ∧ ptrs.Nodup ∧
      ∀ q ∈ ptrs, (k.objs q).isSome ∧ ∃ behind, PathList k q behind ∧ behind.length ≤ names.length := by
  induction names generalizing ptr with
  | nil => exact ⟨[],rfl,List.nodup_nil,by simp⟩
  | cons name rest ih =>
    obtain ⟨buf,next,part,string,later⟩ := id list
    obtain ⟨ptrs,length,nodup,inside⟩ := ih later
    refine ⟨ptr::ptrs,by simp [length],List.nodup_cons.mpr ⟨?_,nodup⟩,?_⟩
    · intro member
      obtain ⟨_,behind,again,short⟩ := inside ptr member
      have same := PathList.length_eq valid list again
      rw [List.length_cons] at same
      omega
    · intro q member
      rcases List.mem_cons.mp member with rfl | member
      · exact ⟨by simp [part],_,list,Nat.le_refl _⟩
      · obtain ⟨live,behind,again,short⟩ := inside q member
        exact ⟨live,behind,again,by rw [List.length_cons]; omega⟩

-- So a path has no more parts than there are addresses.
theorem PathList.bounded (list : PathList k ptr names) (valid : HeapValid k) : names.length < 4294967296 := by
  obtain ⟨ptrs,length,nodup,inside⟩ := list.distinct valid
  have within : ptrs ⊆ List.range 2147483648 := by
    intro q member
    have low := (valid.low (inside q member).1).2.2
    rw [List.mem_range]
    omega
  have short := (List.subperm_of_subset nodup within).length_le
  rw [List.length_range] at short
  omega

-- A part that the extraction returned: NULL, or a fresh buffer with the string.
inductive Extracted (k : Kernel) (path : List UInt8) (buf : Nat) (after : Kernel) : Prop where
  | none (empty : partOf path = []) (null : buf = 0)
  | some (chars : partOf path ≠ []) (nonnull : buf ≠ 0) (fresh : k.objs buf = Option.none)
      (held : after.objs buf = Option.some (partBuffer (partOf path)))

theorem extractPart_grown {k : Kernel} (valid : HeapValid k)
    (ran : pathparserExtractNextPathPart path k = .ok ((buf,rest),after)) :
    Grown k after ∧ rest = afterPart path ∧ Extracted k path buf after := by
  obtain ⟨ptr,one,allocated,ran⟩ := Prog.bind_ok.mp ran
  obtain ⟨⟨⟩,two,stored,ran⟩ := Prog.bind_ok.mp ran
  obtain ⟨grown,result⟩ := kzalloc_fresh valid (by decide) allocated
  have fresh : k.objs ptr = none := by
    rcases result with ⟨rfl,_⟩ | ⟨_,fresh,_⟩
    · exact valid.null
    · exact fresh
  by_cases none : path.takeWhile isPartChar = []
  · rw [Prog.when_false (fun some => some none)] at stored
    cases stored
    rw [if_pos none] at ran
    obtain ⟨⟨⟩,three,freed,ran⟩ := Prog.bind_ok.mp ran
    cases ran
    have freeable : Freeable one ptr := by
      rcases result with ⟨rfl,_⟩ | ⟨_,_,held⟩
      · exact .null
      · exact .object (by simp [held])
    exact ⟨(grown.frees fresh freeable freed).1,rfl,.none none rfl⟩
  · rw [Prog.when_true none] at stored
    rw [if_neg none] at ran
    cases ran
    obtain ⟨bytes,held,_,rfl⟩ := storeChars_ok stored
    rcases result with ⟨rfl,_⟩ | ⟨nonnull,_,zeroed⟩
    · rw [grown.valid.null] at held
      cases held
    · rw [held] at zeroed
      cases zeroed
      exact ⟨grown.place fresh (by simp [held]) _,rfl,.some none nonnull fresh (Kernel.place_same _ _ _)⟩

-- What one turn of the parser's loop leaves: no part, or a fresh one that the
-- last part now points to.
inductive Turn (k : Kernel) (lastPart : Nat) (path : List UInt8) (part : Nat) (after : Kernel) : Prop where
  | ended (empty : partOf path = []) (null : part = 0) (kept : ∀ a, (k.objs a).isSome → after.objs a = k.objs a)
  | added (chars : partOf path ≠ []) (nonnull : part ≠ 0) (fresh : k.objs part = none) (buf : Nat)
      (held : after.objs part = some (.pathPart ⟨buf,0⟩)) (string : after.objs buf = some (partBuffer (partOf path)))
      (kept : ∀ a, a ≠ lastPart → (k.objs a).isSome → after.objs a = k.objs a)
      (linked : ∀ last, k.objs lastPart = some (.pathPart last) → after.objs lastPart = some (.pathPart {last with next := part}))

theorem Turn.kept (turn : Turn k lastPart path part after) (other : a ≠ lastPart) (live : (k.objs a).isSome) :
    after.objs a = k.objs a := by
  cases turn with
  | ended _ _ kept => exact kept a live
  | added _ _ _ _ _ _ kept => exact kept a other live

theorem parsePathPart_grown {base k : Kernel} (grown : Grown base k)
    (last : lastPart ≠ 0 → base.objs lastPart = none ∧ (k.objs lastPart).isSome)
    (ran : pathparserParsePathPart lastPart path k = .ok ((part,rest),after)) :
    Grown base after ∧ rest = afterPart path ∧ Turn k lastPart path part after := by
  obtain ⟨⟨str,next⟩,one,extracted,ran⟩ := Prog.bind_ok.mp ran
  obtain ⟨first,rfl,result⟩ := extractPart_grown grown.valid extracted
  dsimp only at ran
  cases result with
  | none empty null =>
    rw [if_pos null] at ran
    cases ran
    exact ⟨grown.trans first,rfl,.ended empty rfl first.kept⟩
  | some chars nonnull fresh string =>
    rw [if_neg nonnull] at ran
    obtain ⟨ptr,two,allocated,ran⟩ := Prog.bind_ok.mp ran
    obtain ⟨value,three,loaded,ran⟩ := Prog.bind_ok.mp ran
    obtain ⟨⟨⟩,four,stored,ran⟩ := Prog.bind_ok.mp ran
    obtain ⟨⟨⟩,five,linked,ran⟩ := Prog.bind_ok.mp ran
    cases ran
    obtain ⟨second,rfl,some,new,held⟩ := kzalloc_loaded first.valid (by decide) allocated loaded
    cases stored
    have both := first.trans second
    have made := (grown.trans both).place ((grown.trans first).fresh new) (by simp [held]) (.pathPart ⟨str,0⟩)
    have apart {a : Nat} (live : (k.objs a).isSome) : a ≠ part := by
      intro same
      rw [same,first.fresh new] at live
      cases live
    have unlike : str ≠ part := by
      intro same
      rw [← same,string] at new
      cases new
    have keeps (a : Nat) (live : (k.objs a).isSome) : (two.place part (.pathPart ⟨str,0⟩)).objs a = k.objs a := by
      rw [Kernel.place_other (apart live)]
      exact both.kept a live
    have stringTwo : (two.place part (.pathPart ⟨str,0⟩)).objs str = Option.some (partBuffer (partOf path)) := by
      rw [Kernel.place_other unlike]
      exact second.held string
    by_cases alone : lastPart = 0
    · rw [Prog.when_false (by simp [alone])] at linked
      cases linked
      refine ⟨made,rfl,.added chars some (first.fresh new) str (Kernel.place_same _ _ _) stringTwo (fun a _ => keeps a) ?_⟩
      intro old before
      rw [alone,grown.valid.null] at before
      cases before
    · rw [Prog.when_true alone] at linked
      obtain ⟨old,six,read,linked⟩ := Prog.bind_ok.mp linked
      obtain ⟨rfl,before⟩ := load_held asPathPart_eq read
      cases linked
      obtain ⟨outside,live⟩ := last alone
      have behind : lastPart ≠ str := by
        intro same
        rw [same,fresh] at live
        cases live
      refine ⟨made.place outside (by simp [before]) _,rfl,.added chars some (first.fresh new) str ?_ ?_ ?_ ?_⟩
      · rw [Kernel.place_other (apart live).symm]
        exact Kernel.place_same _ _ _
      · rw [Kernel.place_other behind.symm]
        exact stringTwo
      · intro a other present
        rw [Kernel.place_other other]
        exact keeps a present
      · intro first held
        rw [keeps lastPart live,held] at before
        cases before
        exact Kernel.place_same _ _ _

-- The parts behind `part`; the induction is on the turns, and `base` is the
-- kernel in which none of the list was there.
theorem parseParts_grown {base k : Kernel} (grown : Grown base k) (new : base.objs part = none)
    (held : k.objs part = some (.pathPart ⟨buf,0⟩)) (ran : parseParts fuel part path k = .ok ((),after)) :
    Grown base after ∧ (∀ a, a ≠ part → (k.objs a).isSome → after.objs a = k.objs a) ∧
      ∃ next, after.objs part = some (.pathPart ⟨buf,next⟩) ∧ PathList after next (parts path) := by
  induction fuel generalizing part path k buf with
  | zero => cases ran
  | succ fuel ih =>
    obtain ⟨⟨next,rest⟩,one,parsed,ran⟩ := Prog.bind_ok.mp ran
    obtain ⟨first,rfl,turn⟩ := parsePathPart_grown grown (fun _ => ⟨new,by simp [held]⟩) parsed
    dsimp only at ran
    cases turn with
    | ended empty null kept =>
      rw [if_pos null] at ran
      cases ran
      refine ⟨first,fun a _ => kept a,0,?_,?_⟩
      · rw [kept part (by simp [held])]
        exact held
      · rw [parts_empty empty]
        rfl
    | added chars nonnull fresh str heldOne string kept linked =>
      rw [if_neg nonnull] at ran
      have apart {a : Nat} (live : (k.objs a).isSome) : a ≠ next := by
        intro same
        rw [same,fresh] at live
        cases live
      have unlike : str ≠ next := by
        intro same
        rw [same,heldOne] at string
        cases string
      obtain ⟨second,keeps,later,heldAfter,list⟩ := ih first (grown.fresh fresh) heldOne ran
      have link := linked _ held
      refine ⟨second,?_,next,?_,?_⟩
      · intro a other live
        have same := kept a other live
        rw [keeps a (apart live) (by rw [same]; exact live),same]
      · rw [keeps part (apart (by simp [held])) (by simp [link])]
        exact link
      · rw [parts_cons chars]
        refine ⟨str,later,heldAfter,?_,list⟩
        rw [keeps str unlike (by simp [string])]
        exact string

-- A path that the parser turns down before it allocates anything.
def PathRefused (path : List UInt8) : Prop := nutsosMaxPath < strlen path ∨ pathparserIsPathValid path = false

instance (path : List UInt8) : Decidable (PathRefused path) := inferInstanceAs (Decidable (_ ∨ _))

-- The result of a parse: NULL on such a path, and otherwise the drive with the parts.
inductive ParsedPath (k : Kernel) (path : List UInt8) (root : Nat) (after : Kernel) : Prop where
  | refused (bad : PathRefused path) (null : root = 0) (same : after = k)
  | parsed (short : strlen path ≤ nutsosMaxPath) (valid : pathparserIsPathValid path = true) (nonnull : root ≠ 0) (first : Nat)
      (held : after.objs root = some (.pathRoot ⟨ctoi (charOf path),first⟩)) (list : PathList after first (parts (path.drop 3)))

theorem pathparserParse_refused (bad : PathRefused path) (k : Kernel) :
    pathparserParse path k = .ok (0,k) := by
  unfold pathparserParse pathparserExtractDriveFromPath
  by_cases long : strlen path > nutsosMaxPath
  · rw [if_pos long]
    rfl
  · rw [if_neg long,bad.resolve_left long]
    rfl

theorem extractDrive_valid (valid : pathparserIsPathValid path = true) :
    pathparserExtractDriveFromPath path = (ctoi (charOf path),path.drop 3) ∧ ¬ ctoi (charOf path) < 0 := by
  obtain ⟨value,low⟩ := ctoi_digit (isPathValid_pathOf valid).1
  refine ⟨if_pos valid,?_⟩
  rw [value]
  omega

theorem pathparserParse_grown {k : Kernel} (valid : HeapValid k) (ran : pathparserParse path k = .ok (root,after)) :
    Grown k after ∧ ParsedPath k path root after := by
  have refused (bad : PathRefused path) : Grown k after ∧ ParsedPath k path root after := by
    rw [pathparserParse_refused bad] at ran
    cases ran
    exact ⟨.refl valid,.refused bad rfl rfl⟩
  by_cases long : strlen path > nutsosMaxPath
  · exact refused (.inl long)
  cases prefixed : pathparserIsPathValid path with
  | false => exact refused (.inr prefixed)
  | true =>
    obtain ⟨drive,positive⟩ := extractDrive_valid prefixed
    unfold pathparserParse at ran
    rw [if_neg long,drive] at ran
    dsimp only at ran
    rw [if_neg positive] at ran
    obtain ⟨ptr,one,made,ran⟩ := Prog.bind_ok.mp ran
    obtain ⟨first,nonnull,fresh,held⟩ := createRoot_grown valid made
    rw [if_neg nonnull] at ran
    obtain ⟨⟨part,rest⟩,two,parsed,ran⟩ := Prog.bind_ok.mp ran
    obtain ⟨second,rfl,turn⟩ := parsePathPart_grown first (fun absurd => (absurd rfl).elim) parsed
    have heldTwo : two.objs ptr = some (.pathRoot ⟨ctoi (charOf path),0⟩) := by
      rw [turn.kept nonnull (by simp [held])]
      exact held
    dsimp only at ran
    cases turn with
    | ended empty null kept =>
      rw [if_pos null] at ran
      cases ran
      exact ⟨second,.parsed (Nat.le_of_not_lt long) prefixed nonnull 0 heldTwo (by rw [parts_empty empty]; rfl)⟩
    | added chars nonnullPart freshPart str heldPart string kept linked =>
      rw [if_neg nonnullPart] at ran
      obtain ⟨value,three,loaded,ran⟩ := Prog.bind_ok.mp ran
      obtain ⟨rfl,before⟩ := load_held asPathRoot_eq loaded
      rw [heldTwo] at before
      cases before
      obtain ⟨⟨⟩,four,stored,ran⟩ := Prog.bind_ok.mp ran
      cases stored
      obtain ⟨⟨⟩,five,others,ran⟩ := Prog.bind_ok.mp ran
      cases ran
      have partRoot : part ≠ root := by
        intro same
        rw [same,held] at freshPart
        cases freshPart
      have strRoot : str ≠ root := by
        intro same
        rw [same,heldTwo] at string
        cases string
      have strPart : str ≠ part := by
        intro same
        rw [same,heldPart] at string
        cases string
      have placed := second.place fresh (by simp [heldTwo]) (.pathRoot ⟨ctoi (charOf path),part⟩)
      obtain ⟨third,keeps,next,heldLast,list⟩ := parseParts_grown placed (first.fresh freshPart)
        (by rw [Kernel.place_other partRoot]; exact heldPart) others
      refine ⟨third,.parsed (Nat.le_of_not_lt long) prefixed nonnull part ?_ ?_⟩
      · rw [keeps root partRoot.symm (by simp)]
        exact Kernel.place_same _ _ _
      · rw [parts_cons chars]
        refine ⟨str,next,heldLast,?_,list⟩
        rw [keeps str strPart (by rw [Kernel.place_other strRoot]; simp [string]),Kernel.place_other strRoot]
        exact string

theorem extractPart_returns {k : Kernel} (stock : Stock) (valid : HeapValid k) (fits : (partOf path).length ≤ nutsosMaxPath)
    (left : stock.has k.heap (1+rest)) :
    ∃ buf after, pathparserExtractNextPathPart path k = .ok ((buf,afterPart path),after) ∧ stock.has after.heap rest := by
  obtain ⟨buf,one,allocated,nonnull,grown,held,left⟩ := kzalloc_stocked nutsosMaxPath stock valid
    (.chars (List.replicate nutsosMaxPath 0)) (by decide) (by decide) left
  unfold pathparserExtractNextPathPart
  rw [Prog.bind_run allocated]
  by_cases none : path.takeWhile isPartChar = []
  · rw [Prog.when_false (fun some => some none),Prog.pure_bind,if_pos none]
    obtain ⟨after,freed,_⟩ := kfree_run grown.valid (.object (by simp [held]) : Freeable one buf)
    rw [Prog.bind_run freed]
    exact ⟨0,after,rfl,kfree_stocked stock left freed⟩
  · have stored : storeChars buf (path.takeWhile isPartChar) one = .ok ((),one.place buf (partBuffer (partOf path))) := by
      unfold storeChars
      rw [Prog.bind_run (loadAs_run asChars held rfl),
        if_neg (by rw [List.length_replicate]; exact Nat.not_lt.mpr fits)]
      rfl
    rw [Prog.when_true none,if_neg none,Prog.bind_run stored]
    exact ⟨buf,_,rfl,left⟩

def turnBlocks (path : List UInt8) : Nat := if partOf path = [] then 1 else 2

-- Two blocks for each part, and one for the turn that finds none.
theorem turns_need (path : List UInt8) (rest : Nat) : 2*(parts path).length+1+rest = turnBlocks path+
    (if partOf path = [] then rest else 2*(parts (afterPart path)).length+1+rest) := by
  unfold turnBlocks
  by_cases none : partOf path = []
  · rw [parts_empty none,if_pos none,if_pos none]
    rfl
  · rw [parts_cons none,if_neg none,if_neg none,List.length_cons]
    omega

theorem parsePathPart_returns {k : Kernel} (stock : Stock) (valid : HeapValid k)
    (last : lastPart ≠ 0 → ∃ part, k.objs lastPart = some (.pathPart part)) (fits : (partOf path).length ≤ nutsosMaxPath)
    (left : stock.has k.heap (turnBlocks path+rest)) :
    ∃ part after, pathparserParsePathPart lastPart path k = .ok ((part,afterPart path),after) ∧ stock.has after.heap rest := by
  unfold pathparserParsePathPart turnBlocks at *
  by_cases none : partOf path = []
  · rw [if_pos none] at left
    obtain ⟨buf,one,extracted,left⟩ := extractPart_returns stock valid fits left
    obtain ⟨_,_,result⟩ := extractPart_grown valid extracted
    rw [Prog.bind_run extracted]
    cases result with
    | none empty null =>
      dsimp only
      rw [if_pos null]
      exact ⟨0,one,rfl,left⟩
    | some chars => exact absurd none chars
  · rw [if_neg none,show 2+rest = 1+(1+rest) by omega] at left
    obtain ⟨buf,one,extracted,left⟩ := extractPart_returns stock valid fits left
    obtain ⟨first,_,result⟩ := extractPart_grown valid extracted
    rw [Prog.bind_run extracted]
    cases result with
    | none empty => exact absurd empty none
    | some chars nonnull =>
      dsimp only
      rw [if_neg nonnull]
      obtain ⟨part,two,allocated,_,second,held,left⟩ := kzalloc_stocked 8 stock first.valid (.pathPart ⟨0,0⟩) (by decide) (by decide) left
      let three := two.place part (.pathPart ⟨buf,0⟩)
      rw [Prog.bind_run allocated,Prog.bind_run (loadAs_run asPathPart held rfl),
        Prog.bind_run (show store part (.pathPart ⟨buf,0⟩) two = .ok ((),three) from rfl)]
      by_cases alone : lastPart = 0
      · rw [Prog.when_false (by simp [alone])]
        exact ⟨part,three,rfl,left⟩
      · obtain ⟨old,before⟩ := last alone
        have heldThree : ∃ old, three.objs lastPart = some (.pathPart old) := by
          by_cases same : lastPart = part
          · exact ⟨_,by rw [same]; exact Kernel.place_same _ _ _⟩
          · exact ⟨old,by rw [Kernel.place_other same]; exact (first.trans second).held before⟩
        obtain ⟨old,before⟩ := heldThree
        rw [Prog.when_true alone]
        have linked : (loadAs asPathPart lastPart >>= fun last => store lastPart (.pathPart {last with next := part})) three =
            .ok ((),three.place lastPart (.pathPart {old with next := part})) := by
          rw [Prog.bind_run (loadAs_run asPathPart before rfl)]
          rfl
        rw [Prog.bind_run linked]
        exact ⟨part,_,rfl,left⟩

theorem partOf_fits (path : List UInt8) : (partOf path).length ≤ strlen path :=
  Nat.le_trans (Nat.le_add_right _ _) (afterPart_strlen path)

theorem parseParts_returns (fuel : Nat) {base k : Kernel} (stock : Stock) (grown : Grown base k) (new : base.objs part = none)
    (held : k.objs part = some (.pathPart ⟨buf,0⟩)) (fits : strlen path ≤ nutsosMaxPath) (enough : path.length < fuel)
    (left : stock.has k.heap (2*(parts path).length+1+rest)) :
    ∃ after, parseParts fuel part path k = .ok ((),after) ∧ stock.has after.heap rest := by
  induction fuel generalizing part path k buf with
  | zero => cases enough
  | succ fuel ih =>
    rw [turns_need] at left
    obtain ⟨next,one,parsed,left⟩ := parsePathPart_returns stock grown.valid (fun _ => ⟨_,held⟩)
      (Nat.le_trans (partOf_fits path) fits) left
    obtain ⟨first,_,turn⟩ := parsePathPart_grown grown (fun _ => ⟨new,by simp [held]⟩) parsed
    rw [parseParts,Prog.bind_run parsed]
    dsimp only
    cases turn with
    | ended empty null =>
      rw [if_pos null]
      rw [if_pos empty] at left
      exact ⟨one,rfl,left⟩
    | added chars nonnull fresh str heldOne =>
      rw [if_neg nonnull]
      rw [if_neg chars] at left
      have shorter := afterPart_strlen path
      have fewer := afterPart_length chars
      exact ih first (grown.fresh fresh) heldOne (by omega) (by omega) left

theorem pathparserParse_returns {k : Kernel} (stock : Stock) (valid : HeapValid k) (short : strlen path ≤ nutsosMaxPath)
    (prefixed : pathparserIsPathValid path = true)
    (left : stock.has k.heap (2*(parts (path.drop 3)).length+2+rest)) :
    ∃ root after, pathparserParse path k = .ok (root,after) ∧ stock.has after.heap rest := by
  obtain ⟨drive,positive⟩ := extractDrive_valid prefixed
  rw [show 2*(parts (path.drop 3)).length+2+rest = 1+(2*(parts (path.drop 3)).length+1+rest) by omega] at left
  obtain ⟨root,one,allocated,nonnull,grown,held,left⟩ := kzalloc_stocked 8 stock valid (.pathRoot ⟨0,0⟩) (by decide) (by decide) left
  let two := one.place root (.pathRoot ⟨ctoi (charOf path),0⟩)
  have made : pathparserCreateRoot (ctoi (charOf path)) k = .ok (root,two) := by
    unfold pathparserCreateRoot
    rw [Prog.bind_run allocated,Prog.bind_run (loadAs_run asPathRoot held rfl)]
    rfl
  obtain ⟨first,_,fresh,heldTwo⟩ := createRoot_grown valid made
  have fits : strlen (path.drop 3) ≤ nutsosMaxPath := by
    obtain ⟨digit,whole⟩ := isPathValid_pathOf prefixed
    have length := strlen_pathOf digit (path.drop 3)
    rw [← whole] at length
    omega
  rw [turns_need] at left
  obtain ⟨part,three,parsed,left⟩ := parsePathPart_returns stock (k := two) first.valid (fun absurd => (absurd rfl).elim)
    (Nat.le_trans (partOf_fits _) fits) left
  obtain ⟨second,_,turn⟩ := parsePathPart_grown first (fun absurd => (absurd rfl).elim) parsed
  have heldThree : three.objs root = some (.pathRoot ⟨ctoi (charOf path),0⟩) := by
    rw [turn.kept nonnull (by simp [heldTwo])]
    exact heldTwo
  unfold pathparserParse
  rw [if_neg (Nat.not_lt.mpr short),drive]
  dsimp only
  rw [if_neg positive,Prog.bind_run made,if_neg nonnull,Prog.bind_run parsed]
  dsimp only
  cases turn with
  | ended empty null =>
    rw [if_pos null]
    rw [if_pos empty] at left
    exact ⟨root,three,rfl,left⟩
  | added chars nonnullPart freshPart str heldPart =>
    rw [if_neg nonnullPart]
    rw [if_neg chars] at left
    let four := three.place root (.pathRoot ⟨ctoi (charOf path),part⟩)
    have partRoot : part ≠ root := by
      intro same
      rw [same,heldTwo] at freshPart
      cases freshPart
    obtain ⟨five,others,left⟩ := parseParts_returns (path.length+1) stock
      (second.place fresh (by simp [heldThree]) (.pathRoot ⟨ctoi (charOf path),part⟩)) (first.fresh freshPart)
      (by rw [Kernel.place_other partRoot]; exact heldPart) (Nat.le_trans (by have := afterPart_strlen (path.drop 3); omega) fits) (by
        have shorter := afterPart_length chars
        rw [List.length_drop] at shorter
        omega) left
    rw [Prog.bind_run (loadAs_run asPathRoot heldThree rfl),
      Prog.bind_run (show store root (.pathRoot ⟨ctoi (charOf path),part⟩) three = .ok ((),four) from rfl),Prog.bind_run others]
    exact ⟨root,five,rfl,left⟩

theorem pathparserParse_list (path : List UInt8) (rest : Nat) {k : Kernel} (stock : Stock) (valid : HeapValid k)
    (short : strlen path ≤ nutsosMaxPath)
    (prefixed : pathparserIsPathValid path = true)
    (left : stock.has k.heap (2*(parts (path.drop 3)).length+2+rest)) :
    ∃ root first after, pathparserParse path k = .ok (root,after) ∧ Grown k after ∧ root ≠ 0 ∧
      after.objs root = some (.pathRoot ⟨ctoi (charOf path),first⟩) ∧ PathList after first (parts (path.drop 3)) ∧
      stock.has after.heap rest := by
  obtain ⟨root,after,ran,left⟩ := pathparserParse_returns stock valid short prefixed left
  obtain ⟨grown,result⟩ := pathparserParse_grown valid ran
  cases result with
  | refused bad =>
    rcases bad with long | other
    · exact absurd short (Nat.not_le.mpr long)
    · rw [prefixed] at other
      cases other
  | parsed _ _ nonnull first held list => exact ⟨root,first,after,ran,grown,nonnull,held,list,left⟩

structure Component (name : List UInt8) : Prop where
  nonempty : name ≠ []
  chars : ∀ c ∈ name, isPartChar c = true
  fits : name.length ≤ 253

theorem Component.parts (component : Component name) : parts name = [name] := by
  have taken : partOf name = name := List.takeWhile_eq_self_iff.mpr component.chars
  have dropped : name.dropWhile isPartChar = [] := List.dropWhile_eq_nil_iff.mpr component.chars
  have rest : afterPart name = [] := by
    unfold afterPart
    rw [dropped]
    rfl
  rw [parts_cons (by rw [taken]; exact component.nonempty),taken,rest]
  rfl

structure PartAt (k : Kernel) (part : Nat) (name : List UInt8) (next : Nat) : Prop where
  held : ∃ buf, k.objs part = some (.pathPart ⟨buf,next⟩) ∧ k.objs buf = some (partBuffer name)

theorem PartAt.nonnull {k : Kernel} (part : PartAt k ptr name next) (valid : HeapValid k) : ptr ≠ 0 := by
  obtain ⟨buf,held,_⟩ := part.held
  intro null
  rw [null,valid.null] at held
  cases held

theorem pathparserParse_run (drive : UInt8) {k : Kernel} (valid : HeapValid k) (digit : isdigit drive = true) (component : Component name)
    (room : Room k.heap (4+rest)) :
    ∃ root part after, pathparserParse (pathOf drive name) k = .ok (root,after) ∧ Grown k after ∧ root ≠ 0 ∧ part ≠ 0 ∧
      after.objs root = some (.pathRoot ⟨ctoi drive,part⟩) ∧ PartAt after part name 0 ∧ Room after.heap rest := by
  have short : strlen (pathOf drive name) ≤ nutsosMaxPath := by
    have fits := component.fits
    rw [strlen_pathOf digit,strlen_clean (fun c member => isPartChar_clean (component.chars c member))]
    unfold nutsosMaxPath
    omega
  have single : parts ((pathOf drive name).drop 3) = [name] := component.parts
  obtain ⟨root,first,after,ran,grown,nonnull,held,list,left⟩ := pathparserParse_list _ rest roomStock valid short
    (pathOf_valid digit name) (by rw [single]; exact room)
  rw [single] at list
  obtain ⟨buf,next,part,string,none⟩ := list
  obtain rfl : next = 0 := none
  refine ⟨root,first,after,ran,grown,nonnull,?_,held,⟨buf,part,string⟩,left⟩
  intro null
  rw [null,grown.valid.null] at part
  cases part

end NutsOS.Files
