import NutsOS.Process.Window

-- The process table over any sequence of loads: every process in it is loaded as
-- if it were the only one, and no two share a buffer.
namespace NutsOS.Processes
open Word32 HeapAlloc Files DiskStreams Paging Tasks Prog WriteLog

def ProcessAt (k : Kernel) (slot : Nat) (process : NutsOS.Process) : Prop := k.objs (k.processes slot) = some (.process process)

def IsBuffer (process : NutsOS.Process) (ptr : Nat) : Prop := ptr = process.ptr ∨ ptr = process.stack

structure Populated (k : Kernel) : Prop where
  valid : HeapValid k
  backed : Backed k
  loaded : ∀ slot, k.processes slot ≠ 0 →
    ∃ process directory table, Loaded k (k.processes slot) process directory table
  apart : ∀ i j p q ptr, ProcessAt k i p → ProcessAt k j q → IsBuffer p ptr → IsBuffer q ptr → i = j

theorem populated_empty (valid : HeapValid k) (backed : Backed k) (empty : ∀ slot, k.processes slot = 0) : Populated k := by
  refine ⟨valid,backed,fun slot taken => absurd (empty slot) taken,fun i j p q ptr one => ?_⟩
  unfold ProcessAt at one
  rw [empty,valid.null] at one
  cases one

theorem Loaded.retained (loaded : Loaded k ptr process directory table) (retained : Retained k after) :
    Loaded after ptr process directory table := by
  obtain ⟨task,heldTask,chunk⟩ := loaded.ready.task
  obtain ⟨linked,there,links⟩ := retained.tasks _ _ heldTask
  obtain ⟨image,heldImage,imageLength⟩ := loaded.image
  obtain ⟨stack,heldStack,stackLength⟩ := loaded.stack
  have words {a : Nat} (is : ∃ array, k.objs a = some (.words array)) : after.objs a = k.objs a := by
    obtain ⟨array,held⟩ := is
    rw [held]
    exact retained.objs a _ held (by simp)
  obtain ⟨array,dirHeld,_⟩ := loaded.ready.maps.held
  refine ⟨⟨retained.objs _ _ loaded.ready.held (by simp),⟨linked,there,?_⟩,?_⟩,⟨image,retained.objs _ _ heldImage (by simp),imageLength⟩,
    ⟨stack,retained.objs _ _ heldStack (by simp),stackLength⟩,loaded.imageLow,loaded.stackLow,loaded.imageWindow,loaded.stackWindow,
    loaded.positive,loaded.whole,loaded.ordered⟩
  · rw [links]
    exact retained.objs _ _ chunk (by simp)
  · refine loaded.ready.maps.congr (words ⟨array,dirHeld⟩) (fun i inside => words ?_)
    obtain ⟨entries,held,_⟩ := loaded.ready.maps.tables i inside
    exact ⟨entries,held⟩

theorem processLoadForSlot_slots {k : Kernel} (ran : processLoadForSlot dev filename slot k = .ok ((res,some ptr),after)) :
    after.processes = fun i => if i = slot then ptr else k.processes i := by
  have rules := static_discipline Kernel.processes (fun _ _ _ _ _ _ _ => rfl)
  have failed {process : Nat} {code : Int} {l : Kernel} : loadFailed process code l ≠ .ok ((res,some ptr),after) := by
    intro ran
    obtain ⟨_,_,_,ran⟩ := bind_ok.mp ran
    obtain ⟨_,_,_,ran⟩ := bind_ok.mp ran
    cases ran
  unfold processLoadForSlot at ran
  rw [get_bind] at ran
  by_cases taken : processGet k slot ≠ 0
  · rw [if_pos taken] at ran
    cases ran
  rw [if_neg taken] at ran
  obtain ⟨process,one,allocated,ran⟩ := bind_ok.mp ran
  by_cases none : process = 0
  · rw [if_pos none] at ran
    cases ran
  rw [if_neg none] at ran
  obtain ⟨⟨⟩,two,cleared,ran⟩ := bind_ok.mp ran
  obtain ⟨first,three,loaded,ran⟩ := bind_ok.mp ran
  by_cases bad : first < 0
  · rw [if_pos bad] at ran
    exact absurd ran failed
  rw [if_neg bad] at ran
  obtain ⟨stack,four,given,ran⟩ := bind_ok.mp ran
  by_cases missing : stack = 0
  · rw [if_pos missing] at ran
    exact absurd ran failed
  rw [if_neg missing] at ran
  obtain ⟨⟨⟩,five,named,ran⟩ := bind_ok.mp ran
  obtain ⟨task,six,started,ran⟩ := bind_ok.mp ran
  obtain ⟨⟨⟩,seven,linked,ran⟩ := bind_ok.mp ran
  obtain ⟨last,eight,mapped,ran⟩ := bind_ok.mp ran
  by_cases refused : last < 0
  · rw [if_pos refused] at ran
    exact absurd ran failed
  rw [if_neg refused] at ran
  have same : eight.processes = k.processes := by
    rw [rules.processMapMemory _ _ _ _ mapped,rules.updateProcess _ _ _ _ _ linked,rules.taskNew _ _ _ _ started,
      rules.updateProcess _ _ _ _ _ named,rules.kzalloc _ _ (by simp) _ _ _ given,
      rules.processLoadBinary (fun _ _ _ => rfl) _ _ _ _ _ _ loaded,rules.updateProcess _ _ _ _ _ cleared,
      rules.kzalloc _ _ (by decide) _ _ _ allocated]
  cases ran
  rw [← same]

theorem processLoad_slots {k : Kernel} (ran : processLoad dev filename k = .ok ((res,some ptr),after)) :
    ∃ slot, k.processes slot = 0 ∧ after.processes = fun i => if i = slot then ptr else k.processes i := by
  by_cases full : NoSlot k
  · rw [processLoad_full full] at ran
    cases ran
  · obtain ⟨slot,_,free,called⟩ := processLoad_slot full dev filename
    exact ⟨slot,free,processLoadForSlot_slots (called.symm.trans ran)⟩

theorem Populated.load (populated : Populated k) (ran : processLoad dev filename k = .ok ((res,out),after)) (fine : ¬ res < 0) : Populated after := by
  obtain ⟨ptr,process,directory,table,rfl,loaded,adds,_⟩ := processLoad_loads populated.valid ran fine
  obtain ⟨slot,free,slots⟩ := processLoad_slots ran
  have backed : Backed after := backed_discipline.processLoad (fun _ _ _ backed => backed.congr rfl rfl) (fun _ _ backed => backed.congr rfl rfl) _ _ _ _ _ ran
    populated.backed
  have here {p : NutsOS.Process} {i : Nat} (at' : ProcessAt after i p) (same : i = slot) : p = process := by
    unfold ProcessAt at at'
    rw [slots,same] at at'
    dsimp only at at'
    rw [if_pos rfl,loaded.ready.held] at at'
    cases at'
    rfl
  have other {p : NutsOS.Process} {i : Nat} (at' : ProcessAt after i p) (different : i ≠ slot) : ProcessAt k i p ∧
      ∀ a, IsBuffer p a → (k.objs a).isSome := by
    unfold ProcessAt at at'
    rw [slots] at at'
    dsimp only at at'
    rw [if_neg different] at at'
    have taken : k.processes i ≠ 0 := by
      intro null
      rw [null,adds.valid.null] at at'
      cases at'
    obtain ⟨old,_,_,was⟩ := populated.loaded i taken
    cases (adds.retained.objs _ _ was.ready.held (by simp)).symm.trans at'
    obtain ⟨_,heldImage,_⟩ := was.image
    obtain ⟨_,heldStack,_⟩ := was.stack
    refine ⟨was.ready.held,fun a buffer => ?_⟩
    rcases buffer with rfl | rfl
    · simp [heldImage]
    · simp [heldStack]
  -- the buffers of the new process were no object before
  have new {a : Nat} (buffer : IsBuffer process a) : k.objs a = none := by
    rcases buffer with rfl | rfl
    · exact adds.fresh.2.1
    · exact adds.fresh.2.2
  refine ⟨adds.valid,backed,fun i taken => ?_,fun i j p q a one two inOne inTwo => ?_⟩
  · rw [slots] at taken ⊢
    dsimp only at taken ⊢
    by_cases same : i = slot
    · rw [if_pos same]
      exact ⟨process,directory,table,loaded⟩
    · rw [if_neg same] at taken ⊢
      obtain ⟨old,dir,tables,was⟩ := populated.loaded i taken
      exact ⟨old,dir,tables,was.retained adds.retained⟩
  · by_cases first : i = slot
    · by_cases second : j = slot
      · rw [first,second]
      · have live := (other two second).2 a inTwo
        rw [new (here one first ▸ inOne)] at live
        cases live
    · by_cases second : j = slot
      · have live := (other one first).2 a inOne
        rw [new (here two second ▸ inTwo)] at live
        cases live
      · exact populated.apart i j p q a (other one first).1 (other two second).1 inOne inTwo

-- Files loaded one after the other, as long as none fails.
def loadAll : List (BlockDevice × List UInt8) → KernelProg Int
  | [] => return eok
  | (dev,filename)::rest => do
    let (res,_) ← processLoad dev filename
    if res < 0 then return res
    loadAll rest

theorem Populated.loadAll (populated : Populated k) (ran : Processes.loadAll programs k = .ok (res,after)) (fine : ¬ res < 0) : Populated after := by
  induction programs generalizing k with
  | nil =>
    cases ran
    exact populated
  | cons program rest ih =>
    obtain ⟨dev,filename⟩ := program
    obtain ⟨⟨first,out⟩,middle,loaded,ran⟩ := bind_ok.mp ran
    dsimp only at ran
    by_cases failed : first < 0
    · rw [if_pos failed] at ran
      cases ran
      exact absurd failed fine
    · rw [if_neg failed] at ran
      exact ih (populated.load loaded failed) ran

end NutsOS.Processes
