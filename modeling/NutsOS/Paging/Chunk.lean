import NutsOS.Paging.Mapping

-- What paging_chunk_new builds.
namespace NutsOS.Paging
open Word32 HeapAlloc

theorem toUint32_toInt32 (x : Int) : toUint32 (toInt32 x) = toUint32 x := by
  unfold toUint32 toInt32
  split <;> omega

def identityEntry (offset : Int) (flags b : Nat) : Nat :=
  toUint32 (toInt32 (offset + toInt32 (b*pagingPageSize))) ||| flags

def filledWord (offset : Int) (flags : Nat) (words : Words) (b count : Nat) : Words :=
  {words with word := fun j => if b ≤ j ∧ j < b+count then identityEntry offset flags j else words.word j}

theorem filledWord_step (offset : Int) (flags : Nat) (words : Words) (b count : Nat) :
    filledWord offset flags (Words.set words b (identityEntry offset flags b)) (b+1) count =
      filledWord offset flags words b (count+1) := by
  unfold filledWord Words.set
  congr 1
  funext j
  dsimp only
  by_cases first : j = b
  · rw [if_neg (by omega),if_pos first,if_pos (by omega),first]
  · by_cases later : b+1 ≤ j ∧ j < b+1+count
    · rw [if_pos later,if_pos (by omega)]
    · rw [if_neg later,if_neg first,if_neg (by omega)]

theorem place_held {k : Kernel} (held : k.objs ptr = some obj) : k.place ptr obj = k := by
  have objs : (k.place ptr obj).objs = k.objs := by
    funext a
    by_cases equal : a = ptr <;> simp [Kernel.place,equal,held]
  exact congrArg (fun f => {k with objs := f}) objs

theorem fillTable_run (b count : Nat) {k : Kernel} (held : k.objs entry = some (.words words)) (inside : b+count ≤ words.count)
    (offset : Int) (flags : Nat) :
    fillTable entry offset flags count b k =
      .ok ((),k.place entry (.words (filledWord offset flags words b count))) := by
  induction count generalizing k words b with
  | zero =>
    have same : filledWord offset flags words b 0 = words := by
      unfold filledWord
      simp [show ∀ j, ¬ (b ≤ j ∧ j < b) by omega]
    rw [same,place_held held]
    rfl
  | succ count ih =>
    rw [fillTable,Prog.bind_run (setWord_run held (by omega)),ih (b+1) (Kernel.place_same _ _ _) (by simp only [Words.set]; omega),
      Kernel.place_place,← filledWord_step]
    rfl

-- The directory after its first i entries.
structure Filled (base k : Kernel) (directory i flags : Nat) (table : Nat → Nat) : Prop where
  grown : Extends base k
  held : ∃ words, k.objs directory = some (.words words) ∧ words.count = 1024 ∧
    ∀ j < i, words.word j = table j ||| (flags ||| pagingIsWriteable)
  tables : ∀ j < i, ∃ words, k.objs (table j) = some (.words words) ∧ words.count = 1024 ∧
    ∀ b < 1024, words.word b = (j*1024+b)*4096 ||| flags
  framed : ∀ j < i, table j % 4096 = 0 ∧ table j < 4294967296
  distinct : ∀ j < i, ∀ l < i, table j = table l → j = l
  apart : ∀ j < i, table j ≠ directory
  fresh : base.objs directory = none ∧ ∀ j < i, base.objs (table j) = none

theorem setWord_null {k : Kernel} (empty : k.objs 0 = none) (i value : Nat) : setWord 0 i value k = .error .nullDeref :=
  Prog.bind_fault (loadAs_null empty asWords)

theorem fillTable_null {k : Kernel} (empty : k.objs 0 = none) (offset : Int) (flags count : Nat) :
    fillTable 0 offset flags (count+1) 0 k = .error .nullDeref :=
  Prog.bind_fault (setWord_null empty 0 _)

theorem identityEntry_eq (start : toUint32 offset = i*4194304) (inside : i < 1024) (small : b < 1024) :
    identityEntry offset flags b = (i*1024+b)*4096 ||| flags := by
  have column : toInt32 (((b*4096 : Nat)) : Int) = ((b*4096 : Nat) : Int) := toInt32_natCast (by omega)
  unfold identityEntry pagingPageSize
  rw [toUint32_toInt32,← Int.natCast_mul,column]
  unfold toUint32 at *
  have word : ((offset+((b*4096 : Nat) : Int))%4294967296).toNat = (i*1024+b)*4096 := by omega
  rw [word]

theorem Filled.next (filled : Filled base k directory i flags table) (words : Words) (empty : k.objs ptr = none)
    (low : ptr ≠ 0 ∧ ptr%4096 = 0 ∧ ptr+4096 ≤ 2147483648) (count : words.count = 1024)
    (identity : ∀ b < 1024, words.word b = (i*1024+b)*4096 ||| flags) (heap : HeapAlloc.Heap)
    (held : k.objs directory = some (.words entries)) :
    Filled base (((k.withHeap heap).place ptr (.words words)).place directory
      (.words (Words.set entries i (ptr ||| (flags ||| pagingIsWriteable))))) directory (i+1) flags
      (fun j => if j = i then ptr else table j) := by
  have other : directory ≠ ptr := by
    intro same
    rw [same,empty] at held
    cases held
  have old : ∀ j < i, table j ≠ ptr := by
    intro j before same
    obtain ⟨_,occupied,_⟩ := filled.tables j before
    rw [same,empty] at occupied
    cases occupied
  have fresh : base.objs ptr = none := by
    cases present : base.objs ptr with
    | none => rfl
    | some obj =>
      rw [filled.grown.held present] at empty
      cases empty
  obtain ⟨entries',held',dirCount,dirWords⟩ := filled.held
  obtain rfl : entries = entries' := by rw [held] at held'; cases held'; rfl
  have grown : Extends base (k.withHeap heap) := ⟨by rw [filled.grown.rest]; rfl,filled.grown.objs⟩
  refine ⟨(grown.place fresh _).place filled.fresh.1 _,⟨_,Kernel.place_same _ _ _,dirCount,?_⟩,?_,?_,?_,?_,
    filled.fresh.1,?_⟩
  · intro j small
    by_cases last : j = i
    · simp [Words.set,last]
    · simp only [Words.set,last,if_false]
      exact dirWords j (by omega)
  · intro j small
    by_cases last : j = i
    · simp only [last,if_true]
      rw [Kernel.place_other (Ne.symm other),Kernel.place_same]
      exact ⟨words,rfl,count,identity⟩
    · simp only [last,if_false]
      rw [Kernel.place_other (filled.apart j (by omega)),Kernel.place_other (old j (by omega))]
      exact filled.tables j (by omega)
  · intro j small
    by_cases last : j = i
    · simp only [last,if_true]
      omega
    · simp only [last,if_false]
      exact filled.framed j (by omega)
  · intro j small l small'
    by_cases last : j = i <;> by_cases last' : l = i <;> simp only [last,last',if_true,if_false]
    · exact fun _ => trivial
    · exact fun same => absurd same.symm (old l (by omega))
    · exact fun same => absurd same (old j (by omega))
    · exact filled.distinct j (by omega) l (by omega)
  · intro j small
    by_cases last : j = i
    · simp only [last,if_true]
      exact Ne.symm other
    · simp only [last,if_false]
      exact filled.apart j (by omega)
  · intro j small
    by_cases last : j = i
    · simp only [last,if_true]
      exact fresh
    · simp only [last,if_false]
      exact filled.fresh.2 j (by omega)

theorem fillDirectory_run (count : Nat) (offset : Int) (valid : HeapValid k) (filled : Filled base k directory i flags table)
    (start : toUint32 offset = i*4194304 % 4294967296) (left : i+count = 1024) :
    (∃ after table, fillDirectory directory 1024 flags count i offset k = .ok ((),after) ∧
      Filled base after directory 1024 flags table ∧ HeapValid after ∧
      ∀ rest, Room k.heap (count+rest) → Room after.heap rest) ∨
    (fillDirectory directory 1024 flags count i offset k = .error .nullDeref ∧ ∀ rest, ¬ Room k.heap (count+rest)) := by
  induction count generalizing k i table offset with
  | zero =>
    obtain rfl : i = 1024 := left
    exact .inl ⟨k,table,rfl,filled,valid,fun rest room => by rwa [Nat.zero_add] at room⟩
  | succ count ih =>
    obtain ⟨ptr,middle,allocated,result,serves⟩ := kzalloc_run 4096 valid (zeroWords 1024) (by decide) (by decide)
    have more : ∀ rest, Room k.heap (count+1+rest) → ptr ≠ 0 ∧ Room middle.heap (count+rest) := by
      intro rest room
      rw [show count+1+rest = blocksFor 4096+(count+rest) by rw [Nat.add_comm count,Nat.add_assoc]; rfl] at room
      obtain ⟨some,_,left⟩ := serves _ room
      exact ⟨some,left⟩
    rw [fillDirectory,Prog.bind_run (show kzalloc (toUint32 (4*1024)) (zeroWords 1024) k = _ from allocated)]
    cases result with
    | null =>
      have failed := fillTable_null valid.null offset flags 1023
      exact .inr ⟨Prog.bind_fault (show fillTable 0 offset flags (1024 : Int).toNat 0 k = _ from failed),
        fun rest room => (more rest room).1 rfl⟩
    | fresh _ heap empty low kept =>
      obtain ⟨entries,held,dirCount,_⟩ := filled.held
      have other : directory ≠ ptr := by
        intro same
        rw [same,empty] at held
        cases held
      have table := fillTable_run (k := (k.withHeap heap).place ptr (zeroWords 1024)) 0 1024 (Kernel.place_same _ _ _)
        (Nat.le_refl _) offset flags
      rw [Kernel.place_place] at table
      have stillHeld : ∀ obj, ((k.withHeap heap).place ptr obj).objs directory = some (.words entries) := by
        intro obj
        rw [Kernel.place_other other]
        exact held
      rw [Prog.bind_run (show fillTable ptr offset flags (1024 : Int).toNat 0 _ = _ from table),
        Prog.bind_run (setWord_run (stillHeld _) (by omega))]
      have next := filled.next (filledWord offset flags ⟨1024,fun _ => 0⟩ 0 1024) empty low rfl (by
        intro b small
        simp only [filledWord,show 0 ≤ b ∧ b < 0+1024 by omega]
        exact identityEntry_eq (by omega) (by omega) small) heap held
      have heaped : HeapValid (((k.withHeap heap).place ptr (.words (filledWord offset flags ⟨1024,fun _ => 0⟩ 0 1024))).place
          directory (.words (Words.set entries i (ptr ||| (flags ||| pagingIsWriteable))))) := by
        apply HeapValid.place (kept.replace _)
        rw [stillHeld]
        rfl
      have moved : toUint32 (toInt32 (offset + toInt32 (1024*pagingPageSize))) = (i+1)*4194304 % 4294967296 := by
        unfold toUint32 toInt32 pagingPageSize at *
        split <;> split <;> omega
      rcases ih _ heaped next moved (by omega) with ⟨after,table,ran,full,valid,room⟩ | ⟨failed,noRoom⟩
      · exact .inl ⟨after,table,ran,full,valid,fun rest given => room rest (more rest given).2⟩
      · exact .inr ⟨failed,fun rest given => noRoom rest (more rest given).2⟩

theorem fillDirectory_null (valid : HeapValid k) (offset : Int) (flags count i : Nat) :
    fillDirectory 0 1024 flags (count+1) i offset k = .error .nullDeref := by
  obtain ⟨ptr,middle,allocated,result,_⟩ := kzalloc_run 4096 valid (zeroWords 1024) (by decide) (by decide)
  rw [fillDirectory,Prog.bind_run (show kzalloc (toUint32 (4*1024)) (zeroWords 1024) k = _ from allocated)]
  cases result with
  | null => exact Prog.bind_fault (fillTable_null valid.null offset flags 1023)
  | fresh _ heap empty low =>
    have table := fillTable_run (k := (k.withHeap heap).place ptr (zeroWords 1024)) 0 1024 (Kernel.place_same _ _ _) (Nat.le_refl _) offset flags
    rw [Kernel.place_place] at table
    rw [Prog.bind_run (show fillTable ptr offset flags (1024 : Int).toNat 0 _ = _ from table)]
    apply Prog.bind_fault
    apply setWord_null
    rw [Kernel.place_other (Ne.symm low.1)]
    exact valid.null

def identityMap (flags page : Nat) : Nat × Nat := (page*4096,flags)

theorem Filled.maps (filled : Filled base k directory 1024 flags table) (small : flags < 256) :
    Maps k directory (flags ||| pagingIsWriteable) table (identityMap flags) := by
  have flagged : flags ||| pagingIsWriteable < 4096 :=
    Nat.or_lt_two_pow (n := 12) (by omega) (by decide)
  refine ⟨⟨filled.held,?_,filled.framed,flagged,filled.distinct,filled.apart⟩,?_,?_⟩
  · intro i inside
    obtain ⟨words,held,count,_⟩ := filled.tables i inside
    exact ⟨words,held,count⟩
  · intro page inside
    obtain ⟨words,held,_,entry⟩ := filled.tables (page/1024) (by omega)
    have whole : (page/1024*1024+page%1024)*4096 = page*4096 := by omega
    unfold entryOf
    rw [tableWord_held held,entry _ (Nat.mod_lt _ (by decide)),whole]
    rfl
  · intro page inside
    simp only [identityMap]
    omega

-- What paging_chunk_new leaves: a chunk with a directory of identity tables, in
-- blocks that no object was in before.
structure Built (k after : Kernel) (chunk directory flags : Nat) (table : Nat → Nat) : Prop where
  held : after.objs chunk = some (.pagingChunk ⟨directory,1024,1024⟩)
  maps : Maps after directory (flags ||| pagingIsWriteable) table (identityMap flags)
  valid : HeapValid after
  grown : Extends k after
  fresh : k.objs chunk = none ∧ k.objs directory = none ∧ ∀ i < 1024, k.objs (table i) = none

theorem Filled.built (filled : Filled k two directory 1024 flags table) (small : flags < 256)
    (empty : two.objs chunk = none)
    (valid : HeapValid ((two.withHeap heap).place chunk (.pagingChunk ⟨directory,1024,1024⟩))) :
    Built k ((two.withHeap heap).place chunk (.pagingChunk ⟨directory,1024,1024⟩)) chunk directory flags table := by
  have fresh : k.objs chunk = none := by
    cases present : k.objs chunk with
    | none => rfl
    | some obj =>
      rw [filled.grown.held present] at empty
      cases empty
  have free : ∀ ptr, (two.objs ptr).isSome → ptr ≠ chunk := by
    intro ptr present same
    rw [same,empty] at present
    cases present
  have last : Extends two (two.withHeap heap) := ⟨rfl,fun _ _ => rfl⟩
  have mapped := filled.maps small
  refine ⟨Kernel.place_same _ _ _,mapped.congr ?_ ?_,valid,(filled.grown.trans last).place fresh _,fresh,filled.fresh⟩
  · apply Kernel.place_other
    obtain ⟨_,held,_⟩ := filled.held
    exact free _ (by simp [held])
  · intro i inside
    apply Kernel.place_other
    obtain ⟨_,held,_⟩ := filled.tables i inside
    exact free _ (by simp [held])

theorem pagingChunkNew_run (flags : Nat) (valid : HeapValid k) (small : flags < 256) :
    (∃ chunk after directory table, pagingChunkNew 1024 1024 flags k = .ok (chunk,after) ∧
      Built k after chunk directory flags table ∧ ∀ rest, Room k.heap (1026+rest) → Room after.heap rest) ∨
    (pagingChunkNew 1024 1024 flags k = .error .nullDeref ∧ ∀ rest, ¬ Room k.heap (1026+rest)) := by
  obtain ⟨directory,one,allocated,result,serves⟩ := kzalloc_run 4096 valid (zeroWords 1024) (by decide) (by decide)
  have first : ∀ rest, Room k.heap (1026+rest) → directory ≠ 0 ∧ Room one.heap (1024+(1+rest)) := by
    intro rest room
    rw [show 1026+rest = blocksFor 4096+(1024+(1+rest)) by rw [show blocksFor 4096 = 1 from rfl]; omega] at room
    obtain ⟨some,_,left⟩ := serves _ room
    exact ⟨some,left⟩
  unfold pagingChunkNew
  rw [Prog.bind_run (show kzalloc (toUint32 (4*1024)) (zeroWords 1024) k = _ from allocated)]
  cases result with
  | null => exact .inr ⟨Prog.bind_fault (fillDirectory_null valid 0 flags 1023 0),fun rest room => (first rest room).1 rfl⟩
  | fresh _ heap empty low kept =>
    have grown : Extends k (k.withHeap heap) := ⟨rfl,fun _ _ => rfl⟩
    have start : Filled k ((k.withHeap heap).place directory (zeroWords 1024)) directory 0 flags (fun _ => 0) := by
      refine ⟨grown.place empty _,⟨_,Kernel.place_same _ _ _,rfl,?_⟩,?_,?_,?_,?_,empty,?_⟩
      all_goals
        intro j absurd
        exact False.elim (Nat.not_lt_zero j absurd)
    rcases fillDirectory_run 1024 0 kept start rfl rfl with
      ⟨two,table,filling,filled,heaped,room⟩ | ⟨failed,noRoom⟩
    · rw [Prog.bind_run (show fillDirectory directory 1024 flags (1024 : Int).toNat 0 0 _ = _ from filling)]
      obtain ⟨chunk,three,allocated,result,serves⟩ := kzalloc_run 12 heaped (.pagingChunk ⟨0,0,0⟩) (by decide) (by decide)
      rw [Prog.bind_run allocated]
      have second : ∀ rest, Room k.heap (1026+rest) → chunk ≠ 0 ∧ Room three.heap rest := by
        intro rest given
        obtain ⟨some,_,left⟩ := serves rest (room _ (first rest given).2)
        exact ⟨some,left⟩
      cases result with
      | null => exact .inr ⟨Prog.bind_fault (loadAs_null heaped.null asPagingChunk),fun rest given => (second rest given).1 rfl⟩
      | fresh _ heap' empty' low' kept' =>
        refine .inl ⟨chunk,_,directory,table,?_,filled.built small empty' (kept'.replace _),
          fun rest given => (second rest given).2⟩
        rw [Prog.bind_run (loadAs_run asPagingChunk (Kernel.place_same _ _ _) rfl)]
        show (.ok (chunk,((two.withHeap heap').place chunk _).place chunk _) : Except Fault (Nat × Kernel)) = _
        rw [Kernel.place_place]
    · exact .inr ⟨Prog.bind_fault failed,fun rest given => noRoom _ (first rest given).2⟩

structure Blocks where
  chunk : Nat
  directory : Nat
  table : Nat → Nat

def Blocks.Has (blocks : Blocks) (ptr : Nat) : Prop :=
  ptr = blocks.chunk ∨ ptr = blocks.directory ∨ IsTable blocks.table ptr

structure ChunkAt (k : Kernel) (blocks : Blocks) : Prop where
  held : k.objs blocks.chunk = some (.pagingChunk ⟨blocks.directory,1024,1024⟩)
  directory : ∃ dirFlags, DirectoryAt k blocks.directory dirFlags blocks.table

theorem ChunkAt.congr (valid : ChunkAt k blocks) (same : ∀ ptr, blocks.Has ptr → l.objs ptr = k.objs ptr) :
    ChunkAt l blocks := by
  obtain ⟨dirFlags,directory⟩ := valid.directory
  refine ⟨?_,dirFlags,directory.congr (same _ (.inr (.inl rfl))) (fun i inside => same _ (.inr (.inr ⟨i,inside,rfl⟩)))⟩
  rw [same _ (.inl rfl)]
  exact valid.held

theorem ChunkAt.kind (valid : ChunkAt k blocks) (has : blocks.Has ptr) :
    (∃ chunk, k.objs ptr = some (.pagingChunk chunk)) ∨ ∃ words, k.objs ptr = some (.words words) := by
  obtain ⟨dirFlags,directory⟩ := valid.directory
  rcases has with rfl | rfl | ⟨i,inside,rfl⟩
  · exact .inl ⟨_,valid.held⟩
  · obtain ⟨words,held,_⟩ := directory.held
    exact .inr ⟨words,held⟩
  · obtain ⟨words,held,_⟩ := directory.tables i inside
    exact .inr ⟨words,held⟩

theorem freeTables_run {table : Nat → Nat} (valid : HeapValid k) (held : k.objs directory = some (.words words)) (size : words.count = 1024)
    (entry : ∀ j < 1024, pagingEntryGetPointer (words.word j) = table j)
    (distinct : ∀ i < 1024, ∀ j < 1024, table i = table j → i = j) (apart : ∀ j < 1024, table j ≠ directory)
    (live : ∀ j, i ≤ j → j < 1024 → (k.objs (table j)).isSome) (left : i+count = 1024) :
    ∃ after, freeTables directory count i k = .ok ((),after) ∧ HeapValid after ∧
      Frees k after (fun ptr => ∃ j, i ≤ j ∧ j < 1024 ∧ ptr = table j) := by
  induction count generalizing k i with
  | zero =>
    refine ⟨k,rfl,valid,rfl,?_,fun _ _ => rfl⟩
    intro ptr ⟨j,low,high,_⟩
    omega
  | succ count ih =>
    have inside : i < 1024 := by omega
    obtain ⟨middle,freed,kept,one⟩ := kfree_run valid (.object (live i (Nat.le_refl _) inside))
    have other : ∀ j, j < 1024 → j ≠ i → middle.objs (table j) = k.objs (table j) := fun j small different =>
      one.kept _ (fun same => different (distinct j small i inside same))
    have still : middle.objs directory = some (.words words) := by
      rw [one.kept _ (Ne.symm (apart i inside))]
      exact held
    have liveLater : ∀ j, i+1 ≤ j → j < 1024 → (middle.objs (table j)).isSome := by
      intro j low high
      rw [other j high (by omega)]
      exact live j (by omega) high
    obtain ⟨after,rest,valid,two⟩ := ih kept still liveLater (by omega)
    refine ⟨after,?_,valid,(one.trans two).congr ?_⟩
    · rw [freeTables,Prog.bind_run (getWord_run held (by omega)),entry i inside,Prog.bind_run freed]
      exact rest
    · intro ptr
      constructor
      · rintro (here | ⟨j,low,high,same⟩)
        · exact ⟨i,Nat.le_refl _,inside,here⟩
        · exact ⟨j,by omega,high,same⟩
      · intro ⟨j,low,high,same⟩
        by_cases first : j = i
        · exact .inl (first ▸ same)
        · exact .inr ⟨j,by omega,high,same⟩

theorem pagingChunkFree_run (valid : HeapValid k) (at' : ChunkAt k blocks) :
    ∃ after, pagingChunkFree blocks.chunk k = .ok ((),after) ∧ HeapValid after ∧ Frees k after blocks.Has := by
  obtain ⟨dirFlags,directory⟩ := at'.directory
  obtain ⟨words,held,size,entry⟩ := directory.held
  have pointers : ∀ j < 1024, pagingEntryGetPointer (words.word j) = blocks.table j := by
    intro j small
    rw [entry j small]
    exact directory.pointer small
  have live : ∀ j, 0 ≤ j → j < 1024 → (k.objs (blocks.table j)).isSome := by
    intro j _ small
    obtain ⟨_,present,_⟩ := directory.tables j small
    simp [present]
  obtain ⟨one,ranOne,validOne,freesOne⟩ := freeTables_run valid held size pointers directory.distinct directory.apart
    live (Nat.zero_add 1024)
  have dirHeld : (one.objs blocks.directory).isSome := by
    rw [freesOne.kept _ (fun ⟨j,_,small,same⟩ => directory.apart j small same.symm)]
    simp [held]
  obtain ⟨two,ranTwo,validTwo,freesTwo⟩ := kfree_run validOne (.object dirHeld)
  have chunkHeld : (two.objs blocks.chunk).isSome := by
    have notDirectory : blocks.chunk ≠ blocks.directory := by
      intro same
      have both := at'.held
      rw [same,held] at both
      cases both
    have notTable : ¬ ∃ j, 0 ≤ j ∧ j < 1024 ∧ blocks.chunk = blocks.table j := by
      intro ⟨j,_,small,same⟩
      obtain ⟨_,present,_⟩ := directory.tables j small
      rw [← same,at'.held] at present
      cases present
    rw [freesTwo.kept _ notDirectory,freesOne.kept _ notTable]
    simp [at'.held]
  obtain ⟨after,ran,valid,frees⟩ := kfree_run validTwo (.object chunkHeld)
  refine ⟨after,?_,valid,((freesOne.trans freesTwo).trans frees).congr ?_⟩
  · unfold pagingChunkFree
    rw [Prog.bind_run (loadAs_run asPagingChunk at'.held rfl),
      Prog.bind_run (show freeTables blocks.directory pagingTotalDirEntries 0 k = _ from ranOne),Prog.bind_run ranTwo]
    exact ran
  · intro ptr
    constructor
    · rintro ((⟨j,_,small,same⟩ | here) | here)
      · exact .inr (.inr ⟨j,small,same⟩)
      · exact .inr (.inl here)
      · exact .inl here
    · rintro (here | here | ⟨j,small,same⟩)
      · exact .inr here
      · exact .inl (.inr here)
      · exact .inl (.inl ⟨j,Nat.zero_le _,small,same⟩)

theorem Built.chunkAt (built : Built k after chunk directory flags table) : ChunkAt after ⟨chunk,directory,table⟩ :=
  ⟨built.held,_,built.maps.toDirectoryAt⟩

theorem Built.new (built : Built k after chunk directory flags table) (has : Blocks.Has ⟨chunk,directory,table⟩ ptr) :
    k.objs ptr = none := by
  obtain ⟨one,two,three⟩ := built.fresh
  rcases has with rfl | rfl | ⟨i,inside,rfl⟩
  · exact one
  · exact two
  · exact three i inside

end NutsOS.Paging
