import NutsOS.Kernel.Boot
import NutsOS.Lib.Links
import NutsOS.Lib.Runs
import NutsOS.Task.Creation

-- Runs of task_new, task_switch and task_free.
namespace NutsOS.Tasks
open Word32 Paging HeapAlloc Links Runs

structure TaskRun where
  kernel : Kernel
  live : List Nat
  fault : Option Fault

inductive TaskAction where
  | new (process : Nat)
  | switch (task : Nat)
  | free (task : Nat)

def TaskRun.start (k : Kernel) : TaskRun := ⟨k,[],none⟩

def TaskRun.next (s : TaskRun) (live : List Nat) : Except Fault (α × Kernel) → TaskRun
  | .ok (_,after) => ⟨after,live,none⟩
  | .error e => ⟨s.kernel,live,some e⟩

-- task_new succeeds with a pointer that carries no error; a run that has
-- faulted takes no further step.
inductive TaskStep : TaskRun → TaskAction → TaskRun → Prop where
  | new (alive : s.fault = none) (ran : taskNew process s.kernel = .ok (task,after)) (success : 0 < toInt32 task) :
      TaskStep s (.new process) ⟨after,s.live++[task],none⟩
  | switch (alive : s.fault = none) (member : task ∈ s.live) :
      TaskStep s (.switch task) (s.next s.live (taskSwitch task s.kernel))
  | free (alive : s.fault = none) (member : task ∈ s.live) :
      TaskStep s (.free task) (s.next (s.live.erase task) (taskFree task s.kernel))

def nextOf (k : Kernel) (ptr : Nat) : Nat :=
  match k.objs ptr with
  | some (.task task) => task.next
  | _ => 0

def prevOf (k : Kernel) (ptr : Nat) : Nat :=
  match k.objs ptr with
  | some (.task task) => task.prev
  | _ => 0

-- The list is linked both ways through exactly the live tasks.
structure TaskList (k : Kernel) (live : List Nat) : Prop where
  linked : Linked (nextOf k) (prevOf k) 0 k.taskHead k.taskTail live
  tasks : ∀ t ∈ live, ∃ task, k.objs t = some (.task task)
  current : k.currentTask = 0 ∨ k.currentTask ∈ live

def Safe (s : TaskRun) : Prop := s.fault = none ∧ TaskList s.kernel s.live

-- What task_free gets right: the only task, or one with neighbours on both sides.
def StepFits (s : TaskRun) : TaskAction → Prop
  | .free task => s.live = [task] ∨ ∃ before w y after, s.live = before++[w]++task::y::after
  | _ => True

theorem nextOf_held {k : Kernel} (held : k.objs ptr = some (.task task)) : nextOf k ptr = task.next := by
  unfold nextOf
  rw [held]

theorem prevOf_held {k : Kernel} (held : k.objs ptr = some (.task task)) : prevOf k ptr = task.prev := by
  unfold prevOf
  rw [held]

theorem links_same {k l : Kernel} (same : l.objs ptr = k.objs ptr) :
    nextOf l ptr = nextOf k ptr ∧ prevOf l ptr = prevOf k ptr := by
  unfold nextOf prevOf
  rw [same]
  exact ⟨rfl,rfl⟩

structure TaskAt (k : Kernel) (ptr : Nat) (blocks : Blocks) : Prop where
  held : ∃ task, k.objs ptr = some (.task task) ∧ task.pageDirectory = blocks.chunk
  chunk : ChunkAt k blocks

def Separate (blocks : Nat → Blocks) (live : List Nat) : Prop :=
  ∀ t ∈ live, ∀ u ∈ live, t ≠ u → ∀ a, (blocks t).Has a → ¬ (blocks u).Has a

-- Every live task has a page directory of its own.
structure TaskState (k : Kernel) (live : List Nat) (blocks : Nat → Blocks) : Prop where
  heap : HeapValid k
  list : TaskList k live
  at_task : ∀ t ∈ live, TaskAt k t (blocks t)
  separate : Separate blocks live

def Invariant (s : TaskRun) : Prop := s.fault = none ∧ ∃ blocks, TaskState s.kernel s.live blocks

theorem TaskAt.no_task (valid : TaskAt k ptr blocks) (held : k.objs a = some (.task task)) : ¬ blocks.Has a := by
  intro has
  rcases valid.chunk.kind has with ⟨_,other⟩ | ⟨_,other⟩
  · cases held.symm.trans other
  · cases held.symm.trans other

-- Writing links changes tasks only, and no task's page directory.
def Retasks (k l : Kernel) : Prop :=
  ∀ a, l.objs a = k.objs a ∨ ∃ old new, k.objs a = some (.task old) ∧ l.objs a = some (.task new) ∧
    new.pageDirectory = old.pageDirectory

theorem Retasks.refl (k : Kernel) : Retasks k k := fun _ => .inl rfl

theorem Retasks.place {new : NutsOS.Task} (re : Retasks k l) (held : l.objs ptr = some (.task old))
    (same : new.pageDirectory = old.pageDirectory) : Retasks k (l.place ptr (.task new)) := by
  intro a
  by_cases here : a = ptr
  · subst here
    rw [Kernel.place_same]
    rcases re a with kept | ⟨first,second,before,after,equal⟩
    · exact .inr ⟨old,new,by rw [← kept,held],rfl,same⟩
    · rw [held] at after
      cases after
      exact .inr ⟨first,new,before,rfl,same.trans equal⟩
  · rw [Kernel.place_other here]
    exact re a

theorem Retasks.some (re : Retasks k l) (live : (l.objs a).isSome) : (k.objs a).isSome := by
  rcases re a with kept | ⟨old,_,before,_,_⟩
  · rw [kept] at live
    exact live
  · simp [before]

theorem TaskAt.retask (valid : TaskAt k ptr blocks) (re : Retasks k l) : TaskAt l ptr blocks := by
  obtain ⟨task,held,directory⟩ := valid.held
  refine ⟨?_,valid.chunk.congr ?_⟩
  · rcases re ptr with kept | ⟨old,new,before,after,equal⟩
    · exact ⟨task,by rw [kept,held],directory⟩
    · rw [held] at before
      cases before
      exact ⟨new,after,equal.trans directory⟩
  · intro a has
    rcases re a with kept | ⟨old,_,before,_,_⟩
    · exact kept
    · exact absurd has (valid.no_task before)

theorem TaskState.live_some (state : TaskState k live blocks) (member : t ∈ live) : (k.objs t).isSome := by
  obtain ⟨task,held⟩ := state.list.tasks t member
  simp [held]

theorem TaskState.extend {after : Kernel} (state : TaskState k live blocks) (created : Created k middle ptr process new)
    (re : Retasks middle after) (heap : after.heap = middle.heap) (list : TaskList after (live++[ptr])) :
    TaskState after (live++[ptr]) (fun t => if t = ptr then new else blocks t) := by
  have old : ∀ t ∈ live, t ≠ ptr := by
    intro t member same
    have held := state.live_some member
    rw [same,created.fresh.1] at held
    cases held
  have still : ∀ t ∈ live, TaskAt middle t (blocks t) := by
    intro t member
    have before := state.at_task t member
    obtain ⟨task,held,directory⟩ := before.held
    refine ⟨⟨task,created.grown.held held,directory⟩,before.chunk.congr (fun a has => ?_)⟩
    apply created.grown.objs
    rcases before.chunk.kind has with ⟨_,present⟩ | ⟨_,present⟩ <;> simp [present]
  refine ⟨created.valid.congr heap (fun a => re.some),list,?_,?_⟩
  · intro t member
    rcases List.mem_append.mp member with earlier | last
    · simp only [old t earlier,if_false]
      exact (still t earlier).retask re
    · obtain rfl := List.mem_singleton.mp last
      simp only [if_true]
      exact TaskAt.retask ⟨⟨_,created.held,rfl⟩,created.chunk⟩ re
  · have apart : ∀ t ∈ live, ∀ a, (blocks t).Has a → ¬ new.Has a := by
      intro t member a has fresh
      have none := created.fresh.2 a fresh
      rcases (state.at_task t member).chunk.kind has with ⟨_,present⟩ | ⟨_,present⟩
      · cases none.symm.trans present
      · cases none.symm.trans present
    intro t memberT u memberU different a hasT hasU
    rcases List.mem_append.mp memberT with earlierT | lastT <;> rcases List.mem_append.mp memberU with earlierU | lastU
    · simp only [old t earlierT,old u earlierU,if_false] at hasT hasU
      exact state.separate t earlierT u earlierU different a hasT hasU
    · obtain rfl := List.mem_singleton.mp lastU
      simp only [old t earlierT,if_false,if_true] at hasT hasU
      exact apart t earlierT a hasT hasU
    · obtain rfl := List.mem_singleton.mp lastT
      simp only [old u earlierU,if_false,if_true] at hasT hasU
      exact apart u earlierU a hasU hasT
    · exact different ((List.mem_singleton.mp lastT).trans (List.mem_singleton.mp lastU).symm)

theorem live_cases (list : TaskList k live) :
    (live = [] ∧ k.taskHead = 0) ∨ ∃ before y, live = before++[y] ∧ k.taskHead ≠ 0 ∧ k.taskTail = y := by
  have headed := list.linked.head_eq
  have tailed := list.linked.tail_eq
  have nonnull := list.linked.nonnull
  cases List.eq_nil_or_concat live with
  | inl empty =>
    subst empty
    exact .inl ⟨rfl,headed⟩
  | inr split =>
    obtain ⟨before,y,equal⟩ := split
    rw [List.concat_eq_append] at equal
    refine .inr ⟨before,y,equal,?_,by rw [tailed,equal]; simp⟩
    intro zero
    apply nonnull
    rw [← zero,headed,equal]
    cases before <;> simp

theorem TaskList.first {k last : Kernel} (list : TaskList k []) (held : last.objs ptr = some (.task task)) (next : task.next = 0)
    (prev : task.prev = 0) (nonnull : ptr ≠ 0) (head : last.taskHead = ptr) (tail : last.taskTail = ptr)
    (current : last.currentTask = k.currentTask) : TaskList last [ptr] := by
  refine ⟨?_,?_,?_⟩
  · rw [head,tail]
    exact linked_singleton ((prevOf_held held).trans prev) ((nextOf_held held).trans next) nonnull
  · intro t member
    obtain rfl := List.mem_singleton.mp member
    exact ⟨task,held⟩
  · rcases list.current with none | absurd
    · exact .inl (current.trans none)
    · cases absurd

theorem TaskList.push {k last : Kernel} (list : TaskList k (before++[y])) (fresh : ptr ∉ before++[y]) (nonnull : ptr ≠ 0)
    (heldY : k.objs y = some (.task old)) (objsY : last.objs y = some (.task {old with next := ptr}))
    (held : last.objs ptr = some (.task task)) (next : task.next = 0) (prev : task.prev = y)
    (others : ∀ a ∈ before, last.objs a = k.objs a) (head : last.taskHead = k.taskHead) (tail : last.taskTail = ptr)
    (current : last.currentTask = k.currentTask) : TaskList last (before++[y]++[ptr]) := by
  have tailed : k.taskTail = y := by
    rw [list.linked.tail_eq]
    simp
  have linked := list.linked
  rw [tailed] at linked
  refine ⟨?_,?_,?_⟩
  · rw [head,tail]
    refine linked.push fresh nonnull ?_ ?_ (nextOf_held objsY) ((prevOf_held held).trans prev) ((nextOf_held held).trans next)
    · exact fun a member => (links_same (others a member)).1
    · intro a member
      rcases List.mem_append.mp member with earlier | here
      · exact (links_same (others a earlier)).2
      · obtain rfl := List.mem_singleton.mp here
        rw [prevOf_held objsY,prevOf_held heldY]
  · intro t member
    rcases List.mem_append.mp member with earlier | here
    · rcases List.mem_append.mp earlier with front | back
      · rw [others t front]
        exact list.tasks t earlier
      · obtain rfl := List.mem_singleton.mp back
        exact ⟨_,objsY⟩
    · obtain rfl := List.mem_singleton.mp here
      exact ⟨task,held⟩
  · rw [current]
    rcases list.current with none | member
    · exact .inl none
    · exact .inr (List.mem_append_left _ member)

theorem taskNew_keeps (state : TaskState k live blocks) (process : Nat) :
    (∃ ptr after blocks', taskNew process k = .ok (ptr,after) ∧ TaskState after (live++[ptr]) blocks' ∧
      ∀ rest, Room k.heap (1027+rest) → Room after.heap rest) ∨
    (taskNew process k = .error .nullDeref ∧ ∀ rest, ¬ Room k.heap (1027+rest)) := by
  rcases taskCreate_run state.heap process with ⟨ptr,middle,after,new,allocated,nonnull,ran,created,room⟩ | failed
  · left
    have same := created.grown.rest
    have heads : after.taskHead = k.taskHead ∧ after.taskTail = k.taskTail ∧ after.currentTask = k.currentTask := by
      rw [same]
      exact ⟨rfl,rfl,rfl⟩
    have fresh : ptr ∉ live := by
      intro member
      have held := state.live_some member
      rw [created.fresh.1] at held
      cases held
    rcases live_cases state.list with ⟨rfl,zero⟩ | ⟨before,y,rfl,nonzero,tail⟩
    · let last : Kernel := {after with taskHead := ptr, taskTail := ptr}
      have list : TaskList last ([]++[ptr]) := state.list.first created.held rfl rfl nonnull rfl rfl heads.2.2
      refine ⟨ptr,last,_,?_,state.extend created (.refl _) rfl list,room⟩
      unfold taskNew
      rw [Prog.bind_run allocated,if_neg nonnull,Prog.bind_run ran,if_neg (by decide),Prog.get_bind,
        if_pos (heads.1.trans zero)]
      rfl
    · obtain ⟨ty,heldY⟩ := state.list.tasks y (by simp)
      have heldAfter := created.grown.held heldY
      have different : ptr ≠ y := fun same => fresh (by simp [same])
      let one := after.place y (.task {ty with next := ptr})
      let two := one.place ptr (.task {initialTask new.chunk process with prev := y})
      let last : Kernel := {two with taskTail := ptr}
      have heldPtr : one.objs ptr = some (.task (initialTask new.chunk process)) := by
        rw [Kernel.place_other different]
        exact created.held
      have first : Retasks after one := (Retasks.refl after).place heldAfter rfl
      have re : Retasks after two := first.place heldPtr rfl
      have objsY : last.objs y = some (.task {ty with next := ptr}) := by
        show two.objs y = _
        rw [Kernel.place_other different.symm,Kernel.place_same]
      have objsPtr : last.objs ptr = some (.task {initialTask new.chunk process with prev := y}) := Kernel.place_same _ _ _
      have objsOther : ∀ a ∈ before, last.objs a = k.objs a := by
        intro a member
        have listed : a ∈ before++[y] := List.mem_append_left _ member
        have notY : a ≠ y := by
          intro equal
          exact (List.nodup_append'.mp state.list.linked.distinct).2.2 member (by simp [equal])
        have notPtr : a ≠ ptr := fun equal => fresh (equal ▸ listed)
        show two.objs a = _
        rw [Kernel.place_other notPtr,Kernel.place_other notY]
        exact created.grown.objs a (state.live_some listed)
      have list : TaskList last (before++[y]++[ptr]) :=
        state.list.push fresh nonnull heldY objsY objsPtr rfl rfl objsOther heads.1 rfl heads.2.2
      refine ⟨ptr,last,_,?_,state.extend created re rfl list,room⟩
      unfold taskNew
      rw [Prog.bind_run allocated,if_neg nonnull,Prog.bind_run ran,if_neg (by decide),Prog.get_bind,
        if_neg (fun zero => nonzero (heads.1.symm.trans zero)),Prog.get_bind,heads.2.1,tail,
        Prog.bind_run (updateTask_run heldAfter _),Prog.bind_run (updateTask_run heldPtr _)]
      rfl
  · exact .inr failed

theorem taskSwitch_keeps (state : TaskState k live blocks) (member : t ∈ live) :
    ∃ after, taskSwitch t k = .ok (0,after) ∧ TaskState after live blocks := by
  obtain ⟨⟨task,held,directory⟩,chunk⟩ := state.at_task t member
  let current : Kernel := {k with currentTask := t}
  let after : Kernel := {current with currentDirectory := (blocks t).directory}
  have chunkHeld : current.objs task.pageDirectory = some (.pagingChunk ⟨(blocks t).directory,1024,1024⟩) := by
    rw [directory]
    exact chunk.held
  refine ⟨after,?_,state.heap.congr rfl (fun _ live => live),⟨state.list.linked,state.list.tasks,.inr member⟩,
    fun u live => ?_,state.separate⟩
  · unfold taskSwitch
    rw [Prog.bind_run (show setCurrentTask t k = .ok ((),current) from rfl),
      Prog.bind_run (loadTask_run (k := current) held),
      Prog.bind_run (loadAs_run asPagingChunk chunkHeld rfl)]
    rfl
  · have before := state.at_task u live
    exact ⟨before.held,before.chunk.congr (fun _ _ => rfl)⟩

-- The variables after task_list_remove of a task with the links of `task`.
def retarget (k : Kernel) (ptr : Nat) (task : NutsOS.Task) : Kernel :=
  let head := if ptr = k.taskHead then task.next else k.taskHead
  {k with
    taskHead := head
    taskTail := if ptr = k.taskTail then task.prev else k.taskTail
    currentTask := if ptr = k.currentTask then if task.next = 0 then head else task.next else k.currentTask}

theorem taskGetNext_run {k : Kernel} (current : k.currentTask = ptr) (held : k.objs ptr = some (.task task)) :
    taskGetNext k = .ok (if task.next = 0 then k.taskHead else task.next,k) := by
  unfold taskGetNext
  rw [Prog.get_bind,current,Prog.bind_run (loadTask_run held)]
  by_cases last : task.next = 0
  · rw [if_pos last,if_pos last]
    rfl
  · rw [if_neg last,if_neg last]
    rfl

theorem taskListRetarget_run {k : Kernel} (held : k.objs ptr = some (.task task)) :
    taskListRetarget ptr k = .ok ((),retarget k ptr task) := by
  let one : Kernel := {k with taskHead := if ptr = k.taskHead then task.next else k.taskHead}
  let two : Kernel := {one with taskTail := if ptr = k.taskTail then task.prev else k.taskTail}
  have head : Prog.when (ptr = k.taskHead) (do setTaskHead (← loadAs asTask ptr).next) k = .ok ((),one) := by
    by_cases here : ptr = k.taskHead
    · rw [Prog.when_true here,Prog.bind_run (loadTask_run held)]
      simp only [one,if_pos here]
      rfl
    · rw [Prog.when_false here]
      simp only [one,if_neg here]
      rfl
  have tail : Prog.when (ptr = one.taskTail) (do setTaskTail (← loadAs asTask ptr).prev) one = .ok ((),two) := by
    by_cases here : ptr = k.taskTail
    · rw [Prog.when_true here,Prog.bind_run (loadTask_run (k := one) held)]
      simp only [two,if_pos here]
      rfl
    · rw [Prog.when_false here]
      simp only [two,if_neg here]
      rfl
  unfold taskListRetarget
  rw [Prog.get_bind,Prog.bind_run head,Prog.get_bind,Prog.bind_run tail,Prog.get_bind]
  by_cases here : ptr = k.currentTask
  · have next := taskGetNext_run (k := two) here.symm held
    have moved : retarget k ptr task =
        {two with currentTask := if task.next = 0 then two.taskHead else task.next} := by
      simp only [retarget,if_pos here]
      rfl
    rw [Prog.when_true here,Prog.bind_run next,moved]
    rfl
  · have kept : retarget k ptr task = two := by
      simp only [retarget,if_neg here]
      rfl
    rw [Prog.when_false here,kept]
    rfl

theorem taskFree_start (state : TaskState k live blocks) (member : t ∈ live) :
    ∃ task middle, k.objs t = some (.task task) ∧ pagingChunkFree task.pageDirectory k = .ok ((),middle) ∧
      HeapValid middle ∧ Frees k middle (blocks t).Has ∧
      ∀ a task, k.objs a = some (.task task) → middle.objs a = some (.task task) := by
  obtain ⟨⟨task,held,directory⟩,chunk⟩ := state.at_task t member
  obtain ⟨middle,ran,valid,frees⟩ := pagingChunkFree_run state.heap chunk
  refine ⟨task,middle,held,by rw [directory]; exact ran,valid,frees,?_⟩
  intro a other present
  rw [frees.kept a ((state.at_task t member).no_task present)]
  exact present

theorem TaskState.remove {after : Kernel} (state : TaskState k live blocks) (member : t ∈ live)
    (frees : Frees k middle (blocks t).Has) (re : Retasks middle relinked) (gone : Frees relinked after (· = t))
    (valid : HeapValid after) (fewer : ∀ u ∈ left, u ∈ live ∧ u ≠ t) (list : TaskList after left) :
    TaskState after left blocks := by
  refine ⟨valid,list,?_,?_⟩
  · intro u remains
    obtain ⟨old,different⟩ := fewer u remains
    have before := state.at_task u old
    obtain ⟨task,held,directory⟩ := before.held
    have one : TaskAt middle u (blocks u) := by
      refine ⟨⟨task,?_,directory⟩,before.chunk.congr (fun a has => ?_)⟩
      · rw [frees.kept u ((state.at_task t member).no_task held)]
        exact held
      · exact frees.kept a (fun other => state.separate t member u old different.symm a other has)
    have two := one.retask re
    obtain ⟨task',held',directory'⟩ := two.held
    obtain ⟨taskT,heldT⟩ := state.list.tasks t member
    have heldMiddle : middle.objs t = some (.task taskT) := by
      rw [frees.kept t ((state.at_task t member).no_task heldT)]
      exact heldT
    refine ⟨⟨task',?_,directory'⟩,two.chunk.congr (fun a has => ?_)⟩
    · rw [gone.kept u different]
      exact held'
    · apply gone.kept
      intro same
      rw [same] at has
      rcases re t with kept | ⟨_,new,_,present,_⟩
      · exact two.no_task (kept.trans heldMiddle) has
      · exact two.no_task present has
  · exact fun u one v two different => state.separate u (fewer u one).1 v (fewer v two).1 different

theorem taskFree_run {k middle unlinked : Kernel} (held : k.objs t = some (.task task))
    (freed : pagingChunkFree task.pageDirectory k = .ok ((),middle)) (unlink : taskListUnlink t middle = .ok ((),unlinked))
    (still : unlinked.objs t = some (.task task)) (gave : kfree t (retarget unlinked t task) = .ok ((),after)) :
    taskFree t k = .ok ((),after) := by
  have removed : taskListRemove t middle = .ok ((),retarget unlinked t task) := by
    unfold taskListRemove
    rw [Prog.bind_run unlink]
    exact taskListRetarget_run still
  unfold taskFree
  rw [Prog.bind_run (loadTask_run held),Prog.bind_run freed,Prog.bind_run removed]
  exact gave

theorem taskFree_first (state : TaskState k (t::rest) blocks) :
    ∃ task middle after, k.objs t = some (.task task) ∧ task.prev = 0 ∧ task.next = rest.headD 0 ∧
      taskFree t k = .ok ((),after) ∧ HeapValid after ∧ Frees k middle (blocks t).Has ∧
      Frees (retarget middle t task) after (· = t) ∧
      ∀ a task, k.objs a = some (.task task) → middle.objs a = some (.task task) := by
  obtain ⟨task,middle,held,freed,valid,frees,others⟩ := taskFree_start state List.mem_cons_self
  have links := state.list.linked.at_node [] _
  rw [prevOf_held held,nextOf_held held] at links
  have prev : task.prev = 0 := links.1
  have heldMiddle := others t task held
  have unlinked : taskListUnlink t middle = .ok ((),middle) := by
    unfold taskListUnlink
    rw [Prog.bind_run (loadTask_run heldMiddle),Prog.when_false (by simp [prev])]
    rfl
  have heldLast : (retarget middle t task).objs t = some (.task task) := heldMiddle
  obtain ⟨after,ran,valid',gone⟩ := kfree_run (k := retarget middle t task) (valid.congr rfl (fun _ live => live))
    (.object (by rw [heldLast]; rfl))
  exact ⟨task,middle,after,held,prev,links.2,taskFree_run held freed unlinked heldMiddle ran,valid',frees,gone,others⟩

theorem taskFree_only (state : TaskState k [t] blocks) :
    ∃ after, taskFree t k = .ok ((),after) ∧ TaskState after [] blocks := by
  obtain ⟨task,middle,after,held,prev,next,ran,valid,frees,gone,_⟩ := taskFree_first state
  have same := frees.rest
  have head : middle.taskHead = t := by
    rw [same]
    exact state.list.linked.head_eq
  have tail : middle.taskTail = t := by
    rw [same]
    exact state.list.linked.tail_eq
  have current : middle.currentTask = 0 ∨ middle.currentTask = t := by
    rw [same]
    rcases state.list.current with none | here
    · exact .inl none
    · exact .inr (List.mem_singleton.mp here)
  have re : Retasks middle (retarget middle t task) := fun _ => .inl rfl
  refine ⟨after,ran,state.remove (List.mem_singleton.mpr rfl) frees re gone valid (by simp) ⟨?_,by simp,.inl ?_⟩⟩
  · have ends : after.taskHead = 0 ∧ after.taskTail = 0 := by
      rw [gone.rest]
      simp [retarget,head,tail,next,prev]
    rw [ends.1,ends.2]
    exact linked_nil _ _ _
  · rw [gone.rest]
    rcases current with none | here
    · by_cases zero : t = 0
      · simp [retarget,none,zero,head,next]
      · simp [retarget,none,zero]
    · simp [retarget,here,head,next]

theorem taskFree_head (state : TaskState k (t::y::rest) blocks) :
    ∃ after, taskFree t k = .ok ((),after) ∧ prevOf after y = t := by
  obtain ⟨task,middle,after,_,_,_,ran,_,_,gone,others⟩ := taskFree_first state
  have different : y ≠ t := by
    intro same
    exact (List.nodup_cons.mp state.list.linked.distinct).1 (by simp [same])
  obtain ⟨ty,held⟩ := state.list.tasks y (by simp)
  have still : after.objs y = some (.task ty) := by
    rw [gone.kept y different]
    exact others y ty held
  have link := (state.list.linked.at_node [t] _).1
  rw [prevOf_held held] at link
  exact ⟨after,ran,(prevOf_held still).trans link⟩

-- Freeing the tail behind another task writes through its next link, NULL.
theorem taskFree_tail (before : List Nat) (state : TaskState k (before++[w]++[t]) blocks) : taskFree t k = .error .nullDeref := by
  obtain ⟨task,middle,held,freed,valid,frees,others⟩ := taskFree_start state (t := t) (by simp)
  have links := state.list.linked.at_node _ []
  rw [prevOf_held held,nextOf_held held] at links
  have prev : task.prev = w := by simpa using links.1
  have next : task.next = 0 := links.2
  obtain ⟨tw,heldW⟩ := state.list.tasks w (by simp)
  have wSome : w ≠ 0 := fun zero => state.list.linked.nonnull (by simp [zero])
  have wt : t ≠ w := by
    intro same
    have inFront : t ∈ before++[w] := by simp [same]
    exact (List.nodup_append'.mp state.list.linked.distinct).2.2 inFront (List.mem_singleton.mpr rfl)
  let one := middle.place w (.task {tw with next := 0})
  have heldOne : one.objs t = some (.task task) := by
    rw [Kernel.place_other wt]
    exact others t task held
  have empty : one.objs 0 = none := by
    rw [Kernel.place_other wSome.symm]
    exact valid.null
  have unlinked : taskListUnlink t middle = .error .nullDeref := by
    unfold taskListUnlink
    rw [Prog.bind_run (loadTask_run (others t task held)),Prog.when_true (by rw [prev]; exact wSome),prev,next,
      Prog.bind_run (updateTask_run (others w tw heldW) _),Prog.bind_run (loadTask_run heldOne),next]
    exact updateTask_null empty _
  unfold taskFree taskListRemove
  rw [Prog.bind_run (loadTask_run held),Prog.bind_run freed]
  exact Prog.bind_fault (Prog.bind_fault unlinked)

-- A task between two others, and the tasks around them.
structure Surrounded (before rest : List Nat) (w t y : Nat) : Prop where
  front : ∀ a ∈ before++[w], a ≠ t ∧ a ≠ y ∧ a ∉ rest
  back : y ≠ t ∧ t ∉ rest ∧ y ∉ rest
  other : w ∉ before

theorem surrounded (distinct : (before++[w]++t::y::rest).Nodup) : Surrounded before rest w t y := by
  obtain ⟨distinctFront,distinctRest,apart⟩ := List.nodup_append'.mp distinct
  refine ⟨fun a inFront => ?_,?_,fun also => (List.nodup_append'.mp distinctFront).2.2 also (by simp)⟩
  · exact ⟨fun same => apart inFront (by simp [same]),fun same => apart inFront (by simp [same]),
      fun also => apart inFront (by simp [also])⟩
  · simp only [List.nodup_cons,List.mem_cons,not_or] at distinctRest
    exact ⟨fun same => distinctRest.1.1 same.symm,distinctRest.1.2,distinctRest.2.1⟩

theorem Surrounded.outer (around : Surrounded before rest w t y) (listed : a ∈ before++rest) : a ≠ t ∧ a ≠ w ∧ a ≠ y := by
  rcases List.mem_append.mp listed with early | late
  · obtain ⟨at',ay,_⟩ := around.front a (List.mem_append_left _ early)
    exact ⟨at',fun same => around.other (same ▸ early),ay⟩
  · obtain ⟨_,_,wrest⟩ := around.front w (by simp)
    exact ⟨fun same => around.back.2.1 (same ▸ late),fun same => wrest (same ▸ late),fun same => around.back.2.2 (same ▸ late)⟩

-- The neighbours are linked to each other, and the tasks further out are as before.
structure Bridged (k after : Kernel) (before rest : List Nat) (w y : Nat) : Prop where
  front : ∃ task, k.objs w = some (.task task) ∧ after.objs w = some (.task {task with next := y})
  back : ∃ task, k.objs y = some (.task task) ∧ after.objs y = some (.task {task with prev := w})
  others : ∀ a ∈ before++rest, after.objs a = k.objs a

theorem Bridged.linked {k after : Kernel} (bridged : Bridged k after before rest w y)
    (linked : Linked (nextOf k) (prevOf k) 0 head tail (before++[w]++t::y::rest)) :
    Linked (nextOf after) (prevOf after) 0 head tail (before++[w]++y::rest) := by
  obtain ⟨⟨tw,heldW,objsW⟩,⟨ty,heldY,objsY⟩,others⟩ := bridged
  refine linked.unlink ?_ ?_ (nextOf_held objsW) (prevOf_held objsY)
  · intro a listed
    rcases List.mem_append.mp listed with early | late
    · exact (links_same (others a (List.mem_append_left _ early))).1
    · rcases List.mem_cons.mp late with rfl | more
      · rw [nextOf_held objsY,nextOf_held heldY]
      · exact (links_same (others a (List.mem_append_right _ more))).1
  · intro a listed
    rcases List.mem_append.mp listed with early | late
    · rcases List.mem_append.mp early with earlier | here
      · exact (links_same (others a (List.mem_append_left _ earlier))).2
      · obtain rfl := List.mem_singleton.mp here
        rw [prevOf_held objsW,prevOf_held heldW]
    · exact (links_same (others a (List.mem_append_right _ late))).2

theorem Bridged.tasks {k after : Kernel} (bridged : Bridged k after before rest w y)
    (tasks : ∀ u ∈ before++rest, ∃ task, k.objs u = some (.task task)) :
    ∀ u ∈ before++[w]++y::rest, ∃ task, after.objs u = some (.task task) := by
  obtain ⟨⟨_,_,objsW⟩,⟨_,_,objsY⟩,others⟩ := bridged
  intro u remains
  rcases List.mem_append.mp remains with early | late
  · rcases List.mem_append.mp early with earlier | here
    · have listed := List.mem_append_left rest earlier
      rw [others u listed]
      exact tasks u listed
    · obtain rfl := List.mem_singleton.mp here
      exact ⟨_,objsW⟩
  · rcases List.mem_cons.mp late with rfl | more
    · exact ⟨_,objsY⟩
    · have listed := List.mem_append_right before more
      rw [others u listed]
      exact tasks u listed

theorem taskListUnlink_between {k : Kernel} (held : k.objs t = some (.task task)) (prev : task.prev = w) (next : task.next = y)
    (nonnull : w ≠ 0) (apart : t ≠ w) (heldW : k.objs w = some (.task tw))
    (heldY : (k.place w (.task {tw with next := y})).objs y = some (.task ty)) :
    taskListUnlink t k = .ok ((),(k.place w (.task {tw with next := y})).place y (.task {ty with prev := w})) := by
  have heldOne : (k.place w (.task {tw with next := y})).objs t = some (.task task) := by
    rw [Kernel.place_other apart]
    exact held
  unfold taskListUnlink
  rw [Prog.bind_run (loadTask_run held),Prog.when_true (by rw [prev]; exact nonnull),prev,
    Prog.bind_run (updateTask_run heldW _),next,Prog.bind_run (loadTask_run heldOne),next,updateTask_run heldY,prev]

theorem taskFree_middle (state : TaskState k (before++[w]++t::y::rest) blocks) :
    ∃ after, taskFree t k = .ok ((),after) ∧ TaskState after (before++[w]++y::rest) blocks := by
  have member : t ∈ before++[w]++t::y::rest := by simp
  obtain ⟨task,middle,held,freed,valid,frees,others⟩ := taskFree_start state member
  have links := state.list.linked.at_node _ _
  rw [prevOf_held held,nextOf_held held] at links
  have prev : task.prev = w := by simpa using links.1
  have next : task.next = y := links.2
  obtain ⟨tw,heldW⟩ := state.list.tasks w (by simp)
  obtain ⟨ty,heldY⟩ := state.list.tasks y (by simp)
  have around := surrounded state.list.linked.distinct
  have front := around.front
  have back := around.back
  obtain ⟨wt,wy,_⟩ := front w (by simp)
  have nonnull := state.list.linked.nonnull
  have wSome : w ≠ 0 := fun zero => nonnull (by simp [zero])
  have ySome : y ≠ 0 := fun zero => nonnull (by simp [zero])
  let one := middle.place w (.task {tw with next := y})
  let two := one.place y (.task {ty with prev := w})
  have heldY' : one.objs y = some (.task ty) := by
    rw [Kernel.place_other wy.symm]
    exact others y ty heldY
  have heldTwo : two.objs t = some (.task task) := by
    rw [Kernel.place_other back.1.symm,Kernel.place_other wt.symm]
    exact others t task held
  have unlinked : taskListUnlink t middle = .ok ((),two) :=
    taskListUnlink_between (others t task held) prev next wSome wt.symm (others w tw heldW) heldY'
  have first : Retasks middle one := (Retasks.refl middle).place (others w tw heldW) rfl
  have second : Retasks middle two := first.place heldY' rfl
  have re : Retasks middle (retarget two t task) := second
  have heap : HeapValid (retarget two t task) := valid.congr rfl (fun a live => re.some live)
  have heldLast : (retarget two t task).objs t = some (.task task) := heldTwo
  obtain ⟨after,ran,valid',gone⟩ := kfree_run heap (.object (by rw [heldLast]; rfl))
  obtain ⟨notHead,notTail⟩ := state.list.linked.inner
  have statics : two.taskHead = k.taskHead ∧ two.taskTail = k.taskTail ∧ two.currentTask = k.currentTask := by
    show middle.taskHead = _ ∧ middle.taskTail = _ ∧ middle.currentTask = _
    rw [frees.rest]
    exact ⟨rfl,rfl,rfl⟩
  have heads : after.taskHead = k.taskHead ∧ after.taskTail = k.taskTail ∧
      after.currentTask = if t = k.currentTask then y else k.currentTask := by
    rw [gone.rest]
    simp only [retarget,statics.1,statics.2.1,statics.2.2,if_neg notHead,if_neg notTail,next,if_neg ySome]
    trivial
  have outer : ∀ a ∈ before++rest, ∃ task, k.objs a = some (.task task) := by
    intro a listed
    refine state.list.tasks a ?_
    rcases List.mem_append.mp listed with early | late
    · simp [early]
    · simp [late]
  have bridged : Bridged k after before rest w y := by
    refine ⟨⟨tw,heldW,?_⟩,⟨ty,heldY,?_⟩,fun a listed => ?_⟩
    · rw [gone.kept w wt]
      show two.objs w = _
      rw [Kernel.place_other wy,Kernel.place_same]
    · rw [gone.kept y back.1]
      exact Kernel.place_same _ _ _
    · obtain ⟨notT,notW,notY⟩ := around.outer listed
      obtain ⟨ta,heldA⟩ := outer a listed
      rw [gone.kept a notT]
      show two.objs a = _
      rw [Kernel.place_other notY,Kernel.place_other notW,others a ta heldA,heldA]
  refine ⟨after,taskFree_run held freed unlinked heldTwo ran,state.remove member frees re gone valid' ?_ ⟨?_,?_,?_⟩⟩
  · intro u remains
    rcases List.mem_append.mp remains with early | late
    · exact ⟨List.mem_append_left _ early,(front u early).1⟩
    · refine ⟨List.mem_append_right _ (List.mem_cons_of_mem _ late),?_⟩
      rintro rfl
      rcases List.mem_cons.mp late with same | more
      · exact back.1 same.symm
      · exact back.2.1 more
  · rw [heads.1,heads.2.1]
    exact bridged.linked state.list.linked
  · exact bridged.tasks outer
  · rw [heads.2.2]
    by_cases current : t = k.currentTask
    · rw [if_pos current]
      exact .inr (by simp)
    · rw [if_neg current]
      rcases state.list.current with none | listed
      · exact .inl none
      · right
        simp only [List.mem_append,List.mem_cons] at listed ⊢
        rcases listed with early | same | late
        · exact .inl early
        · exact absurd same.symm current
        · exact .inr late

theorem member_cases {t : Nat} (member : t ∈ live) :
    live = [t] ∨ (∃ y rest, live = t::y::rest) ∨ (∃ before w, live = before++[w]++[t]) ∨
      ∃ before w y rest, live = before++[w]++t::y::rest := by
  obtain ⟨front,back,rfl⟩ := List.append_of_mem member
  cases List.eq_nil_or_concat front with
  | inl first =>
    subst first
    cases back with
    | nil => exact .inl rfl
    | cons y rest => exact .inr (.inl ⟨y,rest,rfl⟩)
  | inr split =>
    obtain ⟨before,w,equal⟩ := split
    rw [equal,List.concat_eq_append]
    cases back with
    | nil => exact .inr (.inr (.inl ⟨before,w,rfl⟩))
    | cons y rest => exact .inr (.inr (.inr ⟨before,w,y,rest,rfl⟩))

theorem erase_middle {xs ys : List Nat} (distinct : (xs++t::ys).Nodup) : (xs++t::ys).erase t = xs++ys := by
  have absent : t ∉ xs := fun also => (List.nodup_append'.mp distinct).2.2 also List.mem_cons_self
  rw [List.erase_append_right _ absent,List.erase_cons_head]

theorem step_keeps (s : TaskRun) (action : TaskAction) (u : TaskRun) (valid : Invariant s)
    (fits : StepFits s action) (step : TaskStep s action u) : Invariant u := by
  obtain ⟨alive,blocks,state⟩ := valid
  cases step with
  | @new process task after _ _ ran success =>
    rcases taskNew_keeps state process with ⟨ptr,last,blocks',made,kept,_⟩ | ⟨failed,_⟩
    · rw [made] at ran
      cases ran
      exact ⟨rfl,blocks',kept⟩
    · rw [failed] at ran
      cases ran
  | @switch _ _ _ member =>
    obtain ⟨after,ran,kept⟩ := taskSwitch_keeps state member
    rw [ran]
    exact ⟨rfl,blocks,kept⟩
  | @free task _ _ member =>
    have distinct := state.list.linked.distinct
    rcases fits with only | ⟨before,w,y,rest,split⟩
    · rw [only] at state ⊢
      obtain ⟨after,ran,kept⟩ := taskFree_only state
      rw [ran,List.erase_cons_head]
      exact ⟨rfl,blocks,kept⟩
    · rw [split] at state distinct ⊢
      obtain ⟨after,ran,kept⟩ := taskFree_middle state
      rw [ran,erase_middle distinct]
      exact ⟨rfl,blocks,kept⟩

theorem step_breaks (s : TaskRun) (action : TaskAction) (u : TaskRun) (valid : Invariant s)
    (unfit : ¬ StepFits s action) (step : TaskStep s action u) : ¬ Safe u := by
  obtain ⟨alive,blocks,state⟩ := valid
  cases step with
  | new => exact absurd trivial unfit
  | switch => exact absurd trivial unfit
  | @free task _ _ member =>
    intro safe
    rcases member_cases member with only | ⟨y,rest,split⟩ | ⟨before,w,split⟩ | between
    · exact unfit (.inl only)
    · rw [split] at state safe
      obtain ⟨after,ran,stale⟩ := taskFree_head state
      rw [ran,List.erase_cons_head] at safe
      have link := safe.2.linked.segment.1
      rw [show (TaskRun.next s (y::rest) (.ok ((),after))).kernel = after from rfl,stale] at link
      exact state.list.linked.nonnull (by simp [link])
    · rw [split] at state
      rw [taskFree_tail _ state] at safe
      cases safe.1
    · exact unfit (.inr between)

theorem start_invariant (heap : HeapValid k) (head : k.taskHead = 0) (tail : k.taskTail = 0) (current : k.currentTask = 0) :
    Invariant (.start k) := by
  refine ⟨rfl,fun _ => ⟨0,0,fun _ => 0⟩,heap,⟨?_,by simp [TaskRun.start],.inl current⟩,by simp [TaskRun.start],?_⟩
  · show Linked _ _ 0 k.taskHead k.taskTail []
    rw [head,tail]
    exact linked_nil _ _ _
  · intro t member
    cases member

theorem task_runs_safe (heap : HeapValid k) (head : k.taskHead = 0) (tail : k.taskTail = 0) (current : k.currentTask = 0)
    (ran : IsRun TaskStep (.start k) trace) : Always Safe (.start k) trace ↔ Guarded StepFits (.start k) trace :=
  always_iff_guarded step_keeps (fun _ ⟨alive,_,state⟩ => ⟨alive,state.list⟩) step_breaks
    (start_invariant heap head tail current) ran

theorem new_step (state : TaskState k live blocks) (room : Room k.heap (1027+rest)) (process : Nat) :
    ∃ ptr after blocks', TaskStep ⟨k,live,none⟩ (.new process) ⟨after,live++[ptr],none⟩ ∧
      TaskState after (live++[ptr]) blocks' ∧ Room after.heap rest := by
  rcases taskNew_keeps state process with ⟨ptr,after,blocks',ran,kept,left⟩ | ⟨_,noRoom⟩
  · have low := kept.heap.low (kept.live_some (t := ptr) (by simp))
    have success : 0 < toInt32 ptr := by
      rw [toInt32_natCast (by have high := low.2.2; omega)]
      have positive := low.1
      omega
    exact ⟨ptr,after,blocks',.new rfl ran success,kept,left rest room⟩
  · exact absurd room (noRoom rest)

def emptyKernel : Kernel := bootKernel bootEntries noDisk

theorem middle_task_freed :
    ∃ a b c s t u v, IsRun TaskStep (.start emptyKernel)
        [(TaskAction.new 0,s),(.new 0,t),(.new 0,u),(.free b,v)] ∧ u.live = [a,b,c] ∧
      Always Safe (.start emptyKernel) [(TaskAction.new 0,s),(.new 0,t),(.new 0,u),(.free b,v)] := by
  have valid := boot_valid bootEntries noDisk rfl
  obtain ⟨_,_,start⟩ := start_invariant valid rfl rfl rfl
  have room : Room emptyKernel.heap (1027+(1027+(1027+127991))) := boot_room _ noDisk
  obtain ⟨a,ka,_,newA,stateA,roomA⟩ := new_step start room 0
  obtain ⟨b,kb,_,newB,stateB,roomB⟩ := new_step stateA roomA 0
  obtain ⟨c,kc,_,newC,stateC,_⟩ := new_step stateB roomB 0
  let freed := TaskRun.next ⟨kc,[a,b,c],none⟩ ([a,b,c].erase b) (taskFree b kc)
  have free : TaskStep ⟨kc,[a,b,c],none⟩ (.free b) freed := .free rfl (by simp)
  have ran : IsRun TaskStep (.start emptyKernel) [(.new 0,_),(.new 0,_),(.new 0,_),(.free b,freed)] :=
    ⟨newA,newB,newC,free,trivial⟩
  refine ⟨a,b,c,_,_,_,freed,ran,rfl,(task_runs_safe valid rfl rfl rfl ran).mpr ⟨trivial,trivial,trivial,?_,trivial⟩⟩
  exact .inr ⟨[],a,c,[],rfl⟩

theorem tail_task_faults :
    ∃ a b s t u, IsRun TaskStep (.start emptyKernel) [(TaskAction.new 0,s),(.new 0,t),(.free b,u)] ∧
      t.live = [a,b] ∧ u.fault = some .nullDeref ∧
      ¬ Always Safe (.start emptyKernel) [(TaskAction.new 0,s),(.new 0,t),(.free b,u)] := by
  have valid := boot_valid bootEntries noDisk rfl
  obtain ⟨_,_,start⟩ := start_invariant valid rfl rfl rfl
  have room : Room emptyKernel.heap (1027+(1027+129018)) := boot_room _ noDisk
  obtain ⟨a,ka,_,newA,stateA,roomA⟩ := new_step start room 0
  obtain ⟨b,kb,_,newB,stateB,_⟩ := new_step stateA roomA 0
  let freed := TaskRun.next ⟨kb,[a,b],none⟩ ([a,b].erase b) (taskFree b kb)
  have fault : freed.fault = some .nullDeref := by
    simp only [freed,taskFree_tail [] stateB]
    rfl
  refine ⟨a,b,_,_,freed,⟨newA,newB,.free rfl (by simp),trivial⟩,rfl,fault,?_⟩
  intro always
  have safe := (always.2 _ (List.mem_cons_of_mem _ (List.mem_cons_of_mem _ (List.mem_singleton.mpr rfl)))).1
  exact absurd (safe.symm.trans fault) (by simp)

end NutsOS.Tasks
