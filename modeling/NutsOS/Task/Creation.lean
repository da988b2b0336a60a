import NutsOS.Task.List

-- What task_init and the allocation before it leave in memory.
namespace NutsOS.Tasks
open Word32 Paging HeapAlloc Prog

def initialRegisters : Registers :=
  {zeroRegisters with
    ip := nutsosProgramVirtualAddress
    ss := gdtUserDataOffset ||| gdtPrivilegeRing3
    cs := gdtUserCodeOffset ||| gdtPrivilegeRing3
    esp := nutsosProgramVirtualStackAddressStart}

def initialTask (chunk process : Nat) : NutsOS.Task := ⟨chunk,initialRegisters,process,0,0⟩

def taskFlags : Nat := pagingIsPresent ||| pagingAccessFromAll

theorem loadTask_run {k : Kernel} (held : k.objs ptr = some (.task task)) : loadAs asTask ptr k = .ok (task,k) :=
  loadAs_run _ held rfl

theorem updateTask_run {k : Kernel} (held : k.objs ptr = some (.task task)) (f : NutsOS.Task → NutsOS.Task) :
    updateTask ptr f k = .ok ((),k.place ptr (.task (f task))) := by
  unfold updateTask
  rw [Prog.bind_run (loadTask_run held)]
  rfl

theorem updateTask_null {k : Kernel} (empty : k.objs 0 = none) (f : NutsOS.Task → NutsOS.Task) :
    updateTask 0 f k = .error .nullDeref := Prog.bind_fault (loadAs_null empty asTask)

-- A new task in a block of its own, with a directory of its own.
structure Created (before after : Kernel) (ptr process : Nat) (blocks : Blocks) : Prop where
  held : after.objs ptr = some (.task (initialTask blocks.chunk process))
  chunk : ChunkAt after blocks
  maps : Maps after blocks.directory (taskFlags ||| pagingIsWriteable) blocks.table (identityMap taskFlags)
  valid : HeapValid after
  grown : Extends before after
  fresh : before.objs ptr = none ∧ ∀ a, blocks.Has a → before.objs a = none

theorem taskInit_run (valid : HeapValid k) (held : k.objs ptr = some (.task zeroTask)) (process : Nat) :
    (∃ after blocks, taskInit ptr process k = .ok (0,after) ∧
      after.objs ptr = some (.task (initialTask blocks.chunk process)) ∧ ChunkAt after blocks ∧
      Maps after blocks.directory (taskFlags ||| pagingIsWriteable) blocks.table (identityMap taskFlags) ∧
      HeapValid after ∧ (∀ a, blocks.Has a → k.objs a = none) ∧
      after = {k with heap := after.heap, objs := after.objs} ∧
      (∀ a, a ≠ ptr → (k.objs a).isSome → after.objs a = k.objs a) ∧
      ∀ rest, Room k.heap (1026+rest) → Room after.heap rest) ∨
    (taskInit ptr process k = .error .nullDeref ∧ ∀ rest, ¬ Room k.heap (1026+rest)) := by
  have start := updateTask_run held (fun _ => zeroTask)
  rw [place_held held] at start
  unfold taskInit
  rw [Prog.bind_run start]
  rcases pagingChunkNew_run taskFlags valid (by decide) with
    ⟨chunk,middle,directory,table,built,new,room⟩ | ⟨failed,noRoom⟩
  · have still : middle.objs ptr = some (.task zeroTask) := new.grown.held held
    have some : chunk ≠ 0 := (new.valid.low (by simp [new.held])).1
    rw [Prog.bind_run (show pagingChunkNew pagingTotalDirEntries pagingTotalEntriesPerTable
        (pagingIsPresent ||| pagingAccessFromAll) k = _ from built),
      Prog.bind_run (updateTask_run still _),if_neg some,
      Prog.bind_run (updateTask_run (Kernel.place_same _ _ _) _),Kernel.place_place]
    have other : ∀ a, Blocks.Has ⟨chunk,directory,table⟩ a → a ≠ ptr := by
      intro a has same
      have empty := new.new has
      rw [same,held] at empty
      cases empty
    have same : ∀ task a, Blocks.Has ⟨chunk,directory,table⟩ a → (middle.place ptr (.task task)).objs a = middle.objs a :=
      fun task a has => Kernel.place_other (other a has)
    refine .inl ⟨_,⟨chunk,directory,table⟩,rfl,Kernel.place_same _ _ _,new.chunkAt.congr (same _),
      new.maps.congr (same _ _ (.inr (.inl rfl))) (fun i inside => same _ _ (.inr (.inr ⟨i,inside,rfl⟩))),
      new.valid.place (by simp [still]) _,fun a has => new.new has,?_,?_,room⟩
    · rw [new.grown.rest]
      rfl
    · intro a different live
      rw [Kernel.place_other different]
      exact new.grown.objs a live
  · exact .inr ⟨Prog.bind_fault (show pagingChunkNew pagingTotalDirEntries pagingTotalEntriesPerTable
      (pagingIsPresent ||| pagingAccessFromAll) k = _ from failed),noRoom⟩

theorem taskCreate_run (valid : HeapValid k) (process : Nat) :
    (∃ ptr middle after blocks, kzalloc 64 (.task zeroTask) k = .ok (ptr,middle) ∧ ptr ≠ 0 ∧
      taskInit ptr process middle = .ok (0,after) ∧ Created k after ptr process blocks ∧
      ∀ rest, Room k.heap (1027+rest) → Room after.heap rest) ∨
    (taskNew process k = .error .nullDeref ∧ ∀ rest, ¬ Room k.heap (1027+rest)) := by
  obtain ⟨ptr,middle,allocated,result,serves⟩ := kzalloc_run 64 valid (.task zeroTask) (by decide) (by decide)
  have first : ∀ rest, Room k.heap (1027+rest) → ptr ≠ 0 ∧ Room middle.heap (1026+rest) := by
    intro rest room
    rw [show 1027+rest = blocksFor 64+(1026+rest) by rw [show blocksFor 64 = 1 from rfl]; omega] at room
    obtain ⟨some,_,left⟩ := serves _ room
    exact ⟨some,left⟩
  cases result with
  | null =>
    refine .inr ⟨?_,fun rest room => (first rest room).1 rfl⟩
    unfold taskNew
    rw [Prog.bind_run allocated,if_pos rfl]
    exact Prog.bind_fault (Prog.bind_fault (loadAs_null valid.null asTask))
  | fresh _ heap empty low kept =>
    have grown : Extends k (k.withHeap heap) := ⟨rfl,fun _ _ => rfl⟩
    rcases taskInit_run kept (Kernel.place_same _ _ _) process with
      ⟨after,blocks,ran,held,chunk,maps,valid',new,rest,others,room⟩ | ⟨failed,noRoom⟩
    · refine .inl ⟨ptr,_,after,blocks,allocated,low.1,ran,⟨held,chunk,maps,valid',⟨?_,?_⟩,empty,?_⟩,
        fun rest given => room rest (first rest given).2⟩
      · rw [rest]
        rfl
      · intro a live
        have different : a ≠ ptr := by
          intro same
          rw [same,empty] at live
          cases live
        have before : ((k.withHeap heap).place ptr (.task zeroTask)).objs a = k.objs a := Kernel.place_other different
        rw [others a different (by rw [before]; exact live),before]
      · intro a has
        have none := new a has
        by_cases same : a = ptr
        · rw [same,Kernel.place_same] at none
          cases none
        · rw [Kernel.place_other same] at none
          exact none
    · refine .inr ⟨?_,fun rest given => noRoom rest (first rest given).2⟩
      unfold taskNew
      rw [Prog.bind_run allocated,if_neg low.1]
      exact Prog.bind_fault failed

theorem asTask_eq (obj : Obj) (task : NutsOS.Task) (typed : asTask obj = some task) : obj = .task task := by
  cases obj <;> cases typed
  rfl

-- Linking a task changes tasks only, and no task's directory.
structure Relinked (before after : Kernel) : Prop where
  heap : after.heap = before.heap
  tasks : ∀ ptr task, before.objs ptr = some (.task task) →
    ∃ linked, after.objs ptr = some (.task linked) ∧ linked.pageDirectory = task.pageDirectory
  others : ∀ ptr, (∀ task, before.objs ptr ≠ some (.task task)) → after.objs ptr = before.objs ptr

theorem Relinked.of_objs {before after : Kernel} (heap : after.heap = before.heap) (objs : after.objs = before.objs) : Relinked before after := by
  refine ⟨heap,fun ptr task held => ⟨task,?_,rfl⟩,fun ptr _ => by rw [objs]⟩
  rw [objs]
  exact held

theorem Relinked.trans (one : Relinked before middle) (two : Relinked middle after) : Relinked before after := by
  refine ⟨two.heap.trans one.heap,?_,?_⟩
  · intro ptr task held
    obtain ⟨first,heldFirst,sameFirst⟩ := one.tasks ptr task held
    obtain ⟨second,heldSecond,sameSecond⟩ := two.tasks ptr first heldFirst
    exact ⟨second,heldSecond,sameSecond.trans sameFirst⟩
  · intro ptr other
    have kept := one.others ptr other
    rw [two.others ptr (fun task => by rw [kept]; exact other task),kept]

theorem updateTask_relinked {k : Kernel} {f : NutsOS.Task → NutsOS.Task} (links : ∀ task, (f task).pageDirectory = task.pageDirectory)
    (ran : updateTask ptr f k = .ok ((),after)) : Relinked k after := by
  obtain ⟨task,one,loaded,ran⟩ := bind_ok.mp ran
  obtain ⟨rfl,held⟩ := load_held asTask_eq loaded
  cases ran
  refine ⟨rfl,fun a found present => ?_,fun a other => ?_⟩
  · by_cases same : a = ptr
    · subst same
      cases held.symm.trans present
      exact ⟨_,Kernel.place_same _ _ _,links _⟩
    · exact ⟨found,by rw [Kernel.place_other same]; exact present,rfl⟩
  · exact Kernel.place_other (fun same => other task (same ▸ held))

theorem taskNew_ok {k : Kernel} (valid : HeapValid k) (ran : taskNew process k = .ok (ptr,after)) :
    ∃ created blocks, Created k created ptr process blocks ∧ Relinked created after := by
  rcases taskCreate_run valid process with ⟨made,middle,created,blocks,allocated,nonnull,init,new,_⟩ | ⟨failed,_⟩
  · unfold taskNew at ran
    rw [bind_run allocated,if_neg nonnull,bind_run init,if_neg (by decide),get_bind] at ran
    by_cases first : created.taskHead = 0
    · rw [if_pos first] at ran
      cases ran
      exact ⟨created,blocks,new,.of_objs rfl rfl⟩
    · rw [if_neg first,get_bind] at ran
      obtain ⟨⟨⟩,one,tail,ran⟩ := bind_ok.mp ran
      obtain ⟨⟨⟩,two,own,ran⟩ := bind_ok.mp ran
      cases ran
      have linked := (updateTask_relinked (by exact fun _ => rfl) tail).trans (updateTask_relinked (by exact fun _ => rfl) own)
      exact ⟨created,blocks,new,linked.trans (.of_objs rfl rfl)⟩
  · cases failed.symm.trans ran

-- A task can be linked where the list is empty or has its last task.
def TailHeld (k : Kernel) : Prop := k.taskHead = 0 ∨ ∃ task, k.objs k.taskTail = some (.task task)

structure Appended (k created after : Kernel) (ptr : Nat) : Prop where
  relinked : Relinked created after
  rest : after = {created with objs := after.objs, taskHead := if k.taskHead = 0 then ptr else k.taskHead, taskTail := ptr}
  held : ∃ task, after.objs ptr = some (.task task)
  first : k.taskHead = 0 → after.objs = created.objs

theorem taskNew_run {k : Kernel} (valid : HeapValid k) (tail : TailHeld k) (room : Room k.heap (1027+rest)) (process : Nat) :
    ∃ ptr created blocks after, taskNew process k = .ok (ptr,after) ∧ Created k created ptr process blocks ∧ Appended k created after ptr ∧
      Room after.heap rest := by
  rcases taskCreate_run valid process with ⟨ptr,middle,created,blocks,allocated,nonnull,init,new,left⟩ | ⟨_,none⟩
  · have head : created.taskHead = k.taskHead := by rw [new.grown.rest]
    have last : created.taskTail = k.taskTail := by rw [new.grown.rest]
    by_cases empty : k.taskHead = 0
    · refine ⟨ptr,created,blocks,{created with taskHead := ptr, taskTail := ptr},?_,new,
        ⟨.of_objs rfl rfl,by rw [if_pos empty],⟨_,new.held⟩,fun _ => rfl⟩,left rest room⟩
      unfold taskNew
      rw [bind_run allocated,if_neg nonnull,bind_run init,if_neg (by decide),get_bind,head,if_pos empty]
      rfl
    · obtain ⟨task,held⟩ := tail.resolve_left empty
      have heldTail := new.grown.held held
      have apart : ptr ≠ k.taskTail := by
        intro same
        rw [← same,new.fresh.1] at held
        cases held
      have first := updateTask_run heldTail (fun t => {t with next := ptr})
      have own : (created.place k.taskTail (.task {task with next := ptr})).objs ptr = _ := (Kernel.place_other apart).trans new.held
      have second := updateTask_run own (fun t => {t with prev := k.taskTail})
      have linked := (updateTask_relinked (by exact fun _ => rfl) first).trans (updateTask_relinked (by exact fun _ => rfl) second)
      refine ⟨ptr,created,blocks,{((created.place k.taskTail _).place ptr _) with taskTail := ptr},?_,new,
        ⟨linked.trans (.of_objs rfl rfl),by rw [if_neg empty,← head]; rfl,⟨_,Kernel.place_same _ _ _⟩,fun none => absurd none empty⟩,left rest room⟩
      unfold taskNew
      rw [bind_run allocated,if_neg nonnull,bind_run init,if_neg (by decide),get_bind,head,if_neg empty,get_bind,last,bind_run first,
        bind_run second]
      rfl
  · exact absurd room (none rest)

end NutsOS.Tasks
