import Mathlib.Data.List.GetD
import Mathlib.Data.List.Rotate
import NutsOS.Task.Runs

-- The tasks in turn: task_switch(task_get_next()) over and over.
namespace NutsOS.Tasks
open Word32 HeapAlloc Links Runs

def taskAdvance : KernelProg Nat := do
  let task ← taskGetNext
  let _ ← taskSwitch task
  return task

def taskAdvances : Nat → KernelProg (List Nat)
  | 0 => pure []
  | count+1 => do
    let task ← taskAdvance
    let later ← taskAdvances count
    return task::later

-- A run that creates tasks and switches between them.
def BuildStep (s : TaskRun) (action : TaskAction) (t : TaskRun) : Prop := TaskStep s action t ∧ ∀ task, action ≠ .free task

def isNew : TaskAction → Bool
  | .new _ => true
  | _ => false

-- The task at a place of the endless round.
def turnAt (live : List Nat) (place : Nat) : Nat := live.getD (place%live.length) 0

theorem turnAt_mod (live : List Nat) (place : Nat) : turnAt live (place%live.length) = turnAt live place := by
  unfold turnAt
  rw [Nat.mod_mod]

theorem turnAt_inside {live : List Nat} (inside : i < live.length) : turnAt live i = live[i] := by
  unfold turnAt
  rw [Nat.mod_eq_of_lt inside,List.getD_eq_getElem _ _ inside]

theorem turnAt_member {live : List Nat} (some : live ≠ []) (place : Nat) : turnAt live place ∈ live := by
  have inside := Nat.mod_lt place (List.length_pos_iff.mpr some)
  rw [← turnAt_mod,turnAt_inside inside]
  exact List.getElem_mem inside

theorem taskSwitch_current {k : Kernel} (ran : taskSwitch t k = .ok (res,after)) : after.currentTask = t := by
  unfold taskSwitch at ran
  rw [Prog.bind_run (show setCurrentTask t k = .ok ((),{k with currentTask := t}) from rfl)] at ran
  obtain ⟨task,one,loaded,ran⟩ := Prog.bind_ok.mp ran
  obtain ⟨chunk,two,paged,ran⟩ := Prog.bind_ok.mp ran
  obtain ⟨_,rfl⟩ := loadAs_ok.mp loaded
  obtain ⟨_,rfl⟩ := loadAs_ok.mp paged
  cases ran
  rfl

theorem taskAdvance_run {k : Kernel} (state : TaskState k live blocks) (some : live ≠ []) (current : k.currentTask = turnAt live place) :
    ∃ after, taskAdvance k = .ok (turnAt live (place+1),after) ∧ TaskState after live blocks ∧
      after.currentTask = turnAt live (place+1) := by
  have inside := Nat.mod_lt place (List.length_pos_iff.mpr some)
  obtain ⟨task,held⟩ := state.list.tasks _ (turnAt_member some place)
  have cycle := state.list.linked.cyclic inside
  rw [← turnAt_inside inside,turnAt_mod,nextOf_held held] at cycle
  have next : taskGetNext k = .ok (turnAt live (place+1),k) := by
    rw [taskGetNext_run current held,cycle]
    unfold turnAt
    rw [Nat.mod_add_mod]
  obtain ⟨after,switched,kept⟩ := taskSwitch_keeps state (turnAt_member some (place+1))
  refine ⟨after,?_,kept,?_⟩
  · unfold taskAdvance
    rw [Prog.bind_run next,Prog.bind_run switched]
    rfl
  · exact taskSwitch_current switched

theorem taskAdvances_run (count : Nat) {k : Kernel} (state : TaskState k live blocks) (some : live ≠ [])
    (current : k.currentTask = turnAt live place) :
    ∃ after, taskAdvances count k = .ok ((List.range count).map (fun j => turnAt live (place+1+j)),after) ∧
      after.currentTask = turnAt live (place+count) := by
  induction count generalizing k place with
  | zero => exact ⟨k,rfl,current⟩
  | succ count ih =>
    obtain ⟨one,first,kept,now⟩ := taskAdvance_run state some current
    obtain ⟨after,later,last⟩ := ih kept now
    refine ⟨after,?_,?_⟩
    · unfold taskAdvances
      rw [Prog.bind_run first,Prog.bind_run later,List.range_succ_eq_map,List.map_cons,List.map_map]
      have shift : (fun j => turnAt live (place+1+1+j)) = (fun j => turnAt live (place+1+j))∘Nat.succ := by
        funext j
        exact congrArg (turnAt live) (by omega)
      rw [shift]
      rfl
    · rw [last]
      exact congrArg (turnAt live) (by omega)

theorem round_rotates (live : List Nat) (place : Nat) : (List.range live.length).map (fun j => turnAt live (place+j)) = live.rotate place := by
  refine List.ext_getElem (by simp) (fun j left right => ?_)
  rw [List.getElem_map,List.getElem_range,List.getElem_rotate,← turnAt_mod]
  rw [List.length_rotate] at right
  rw [turnAt_inside (Nat.mod_lt _ (by omega))]
  congr 2
  omega

theorem turnAt_apart {live : List Nat} (distinct : live.Nodup) (inside : i < live.length) (positive : 0 < count) (fewer : count < live.length) :
    turnAt live (i+count) ≠ turnAt live i := by
  have place := Nat.mod_lt (i+count) (by omega : 0 < live.length)
  rw [← turnAt_mod live (i+count),turnAt_inside place,turnAt_inside inside]
  intro same
  have equal := distinct.getElem_inj_iff.mp same
  by_cases wraps : i+count < live.length
  · rw [Nat.mod_eq_of_lt wraps] at equal
    omega
  · rw [Nat.mod_eq_sub_mod (by omega),Nat.mod_eq_of_lt (by omega)] at equal
    omega

-- The turns from the task at place i: the order of creation, around and around;
-- a round has every task once and ends where it began.
structure TakesTurns (live : List Nat) (i : Nat) (k : Kernel) : Prop where
  order : ∀ count, ∃ after, taskAdvances count k = .ok ((List.range count).map (fun j => turnAt live (i+1+j)),after) ∧
    after.currentTask = turnAt live (i+count)
  round : ∃ after, taskAdvances live.length k = .ok (live.rotate (i+1),after) ∧ after.currentTask = k.currentTask
  once : (live.rotate (i+1)).Nodup ∧ ∀ task, task ∈ live.rotate (i+1) ↔ task ∈ live
  earlier : ∀ count, 0 < count → count < live.length → turnAt live (i+count) ≠ k.currentTask

theorem TaskState.turns (state : TaskState k live blocks) (inside : i < live.length) : TakesTurns live i {k with currentTask := turnAt live i} := by
  have some : live ≠ [] := List.length_pos_iff.mp (by omega)
  have chosen : TaskState {k with currentTask := turnAt live i} live blocks :=
    ⟨state.heap.congr rfl (fun _ held => held),⟨state.list.linked,state.list.tasks,.inr (turnAt_member some i)⟩,
      fun t member => ⟨(state.at_task t member).held,(state.at_task t member).chunk.congr (fun _ _ => rfl)⟩,state.separate⟩
  have distinct := state.list.linked.distinct
  refine ⟨fun count => taskAdvances_run count chosen some rfl,?_,⟨List.nodup_rotate.mpr distinct,fun task => List.mem_rotate⟩,
    fun count positive fewer => turnAt_apart distinct inside positive fewer⟩
  obtain ⟨after,ran,last⟩ := taskAdvances_run live.length chosen some rfl
  rw [round_rotates live (i+1)] at ran
  refine ⟨after,ran,?_⟩
  rw [last,← turnAt_mod,Nat.add_mod_right,turnAt_mod]

theorem build_keeps (s : TaskRun) (action : TaskAction) (t : TaskRun) (valid : Invariant s) (step : BuildStep s action t) : Invariant t := by
  refine step_keeps s action t valid ?_ step.1
  cases action with
  | new => trivial
  | switch => trivial
  | free task => exact absurd rfl (step.2 task)

theorem build_length (ran : IsRun BuildStep s trace) :
    (final s trace).live.length = s.live.length+trace.countP (fun entry => isNew entry.1) := by
  induction trace generalizing s with
  | nil => rfl
  | cons entry rest ih =>
    obtain ⟨action,t⟩ := entry
    have later := ih ran.2
    obtain ⟨step,kept⟩ := ran.1
    rw [List.countP_cons]
    show (final t rest).live.length = _
    cases step with
    | new =>
      rw [later,List.length_append,List.length_singleton,if_pos (show isNew (.new _) = true from rfl)]
      omega
    | @switch task =>
      rw [later]
      have same : (s.next s.live (taskSwitch task s.kernel)).live = s.live := by
        cases taskSwitch task s.kernel <;> rfl
      rw [same]
      rfl
    | free _ _ => exact absurd rfl (kept _)

theorem tasks_take_turns (heap : HeapValid k) (head : k.taskHead = 0) (tail : k.taskTail = 0) (current : k.currentTask = 0)
    (ran : IsRun BuildStep (.start k) trace) :
    (final (.start k) trace).live.length = trace.countP (fun entry => isNew entry.1) ∧
      ∀ i < (final (.start k) trace).live.length, TakesTurns (final (.start k) trace).live i
        {(final (.start k) trace).kernel with currentTask := turnAt (final (.start k) trace).live i} := by
  constructor
  · have length := build_length ran
    rw [length]
    exact Nat.zero_add _
  · intro i inside
    obtain ⟨_,blocks,state⟩ := kept_final build_keeps (start_invariant heap head tail current) ran
    exact state.turns inside

theorem two_tasks_take_turns : ∃ a b s t, IsRun BuildStep (.start emptyKernel) [(TaskAction.new 0,s),(.new 0,t)] ∧ t.live = [a,b] ∧
    TakesTurns [a,b] 0 {t.kernel with currentTask := a} := by
  have valid := boot_valid bootEntries noDisk rfl
  obtain ⟨_,_,start⟩ := start_invariant valid rfl rfl rfl
  have room : Room emptyKernel.heap (1027+(1027+129018)) := boot_room _ noDisk
  obtain ⟨a,ka,_,newA,stateA,roomA⟩ := new_step start room 0
  obtain ⟨b,kb,_,newB,stateB,_⟩ := new_step stateA roomA 0
  have ran : IsRun BuildStep (.start emptyKernel) [(.new 0,_),(.new 0,_)] :=
    ⟨⟨newA,fun _ same => by cases same⟩,⟨newB,fun _ same => by cases same⟩,trivial⟩
  exact ⟨a,b,_,_,ran,rfl,(tasks_take_turns valid rfl rfl rfl ran).2 0 (Nat.zero_lt_succ _)⟩

end NutsOS.Tasks
