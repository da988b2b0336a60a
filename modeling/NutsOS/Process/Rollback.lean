import NutsOS.File.Leak
import NutsOS.Process.Steps

-- What a failed process_load leaves behind.
namespace NutsOS.Processes
open Word32 HeapAlloc Files Fat16 DiskStreams Paging Tasks Stdutil Prog

-- The process table, the task list, the descriptor table and the allocated
-- blocks are as before.
structure Undone (before after : Kernel) : Prop where
  processes : after.processes = before.processes
  head : after.taskHead = before.taskHead
  tail : after.taskTail = before.taskTail
  tasks : ∀ ptr task, after.objs ptr = some (.task task) ↔ before.objs ptr = some (.task task)
  table : after.fileDescriptors = before.fileDescriptors
  blocks : allocated after = allocated before

theorem Undone.refl (k : Kernel) : Undone k k := ⟨rfl,rfl,rfl,fun _ _ => Iff.rfl,rfl,rfl⟩

-- A dereference of NULL or of a pointer that carries an error code.
def BadDeref (fault : Fault) : Prop := ∃ ptr, (ptr = 0 ∨ IsError ptr) ∧ fault = .deref ptr

-- The call returns an error code, or goes through such a pointer on its way.
inductive Failing : Except Fault ((Int × Option Nat) × Kernel) → Prop where
  | returned (negative : res < 0) : Failing (.ok ((res,out),after))
  | stopped {e : Fault} (bad : BadDeref e) : Failing (.error e)

def LoadFails (dev : BlockDevice) (filename : List UInt8) (k : Kernel) : Prop := Failing (processLoad dev filename k)

structure FailureUndone (dev : BlockDevice) (filename : List UInt8) (k : Kernel) : Prop where
  sound : ∀ e, processLoad dev filename k = .error e → ¬ BadDeref e
  undone : ∀ res out after, processLoad dev filename k = .ok ((res,out),after) → res < 0 → Undone k after

def NoSlot (k : Kernel) : Prop := ∀ i, i < nutsosMaxProcesses → k.processes i ≠ 0

-- A struct process takes two blocks.
def NoProcess (k : Kernel) : Prop := Exhausted k.heap 2

theorem freeSlotFrom_cases (k : Kernel) (count i : Nat) :
    (freeSlotFrom k count i = -1 ∧ ∀ j, i ≤ j → j < i+count → k.processes j ≠ 0) ∨
      ∃ j : Nat, freeSlotFrom k count i = j ∧ i ≤ j ∧ j < i+count ∧ k.processes j = 0 := by
  induction count generalizing i with
  | zero => exact .inl ⟨rfl,fun j low high => by omega⟩
  | succ count ih =>
    rw [freeSlotFrom]
    by_cases here : k.processes i = 0
    · rw [if_pos here]
      exact .inr ⟨i,rfl,Nat.le_refl i,by omega,here⟩
    · rw [if_neg here]
      rcases ih (i+1) with ⟨none,taken⟩ | ⟨j,found,low,high,free⟩
      · refine .inl ⟨none,fun j low high => ?_⟩
        by_cases same : j = i
        · rw [same]
          exact here
        · exact taken j (by omega) (by omega)
      · exact .inr ⟨j,found,by omega,by omega,free⟩

theorem processLoad_full {k : Kernel} (full : NoSlot k) (dev : BlockDevice) (filename : List UInt8) :
    processLoad dev filename k = .ok ((-enomem,none),k) := by
  rcases freeSlotFrom_cases k nutsosMaxProcesses 0 with ⟨none,_⟩ | ⟨j,_,_,high,free⟩
  · unfold processLoad
    rw [get_bind,if_pos (by rw [none]; decide)]
    rfl
  · exact absurd free (full j (by omega))

theorem processLoad_slot {k : Kernel} (free : ¬ NoSlot k) (dev : BlockDevice) (filename : List UInt8) :
    ∃ slot, slot < nutsosMaxProcesses ∧ k.processes slot = 0 ∧
      processLoad dev filename k = processLoadForSlot dev filename slot k := by
  rcases freeSlotFrom_cases k nutsosMaxProcesses 0 with ⟨_,taken⟩ | ⟨j,found,_,high,empty⟩
  · exact absurd (fun i inside => taken i (Nat.zero_le i) (by omega)) free
  · refine ⟨j,by omega,empty,?_⟩
    unfold processLoad
    rw [get_bind,if_neg (by rw [found]; omega),found]
    rfl

-- fopen takes a slot of the table, and nothing gives it back.
theorem processLoadBinary_table {k : Kernel} (valid : HeapValid k) (ran : processLoadBinary dev filename process k = .ok (res,after)) :
    after.fileDescriptors ≠ k.fileDescriptors := by
  obtain ⟨fd,one,opened,ran⟩ := bind_ok.mp ran
  obtain ⟨grown,opening⟩ := fopen_grown valid opened
  by_cases null : fd = 0
  · rw [if_pos null,null] at ran
    obtain ⟨found,two,loaded,_⟩ := bind_ok.mp ran
    rw [loadAs_null grown.valid.null asFileDescriptor] at loaded
    cases loaded
  rw [if_neg null] at ran
  have rest : Files.SameTable one after := table_discipline.binaryOpened _ _ _ _ _ _ ran
  cases opening with
  | refused none => exact absurd none null
  | @granted i _ _ nonnull lowest _ table =>
    intro same
    have slot := congrFun (rest.symm.trans same) i
    rw [table] at slot
    dsimp only at slot
    rw [if_pos rfl,lowest.free] at slot
    exact null slot

theorem kzalloc_process {k : Kernel} (valid : HeapValid k) (zero : Obj) :
    (NoProcess k ∧ kzalloc 4384 zero k = .ok (0,k)) ∨
      (¬ NoProcess k ∧ ∃ ptr after, kzalloc 4384 zero k = .ok (ptr,after) ∧ ptr ≠ 0 ∧ Grown k after ∧ k.objs ptr = none ∧
        after.objs ptr = some zero) := by
  by_cases spent : Exhausted k.heap (blocksFor 4384)
  · exact .inl ⟨spent,kzalloc_exhausted (by decide) spent zero⟩
  · exact .inr ⟨spent,kzalloc_unexhausted valid (by decide) (by decide) spent zero⟩

theorem updateProcess_run {k : Kernel} (held : k.objs ptr = some (.process process)) (f : NutsOS.Process → NutsOS.Process) :
    updateProcess ptr f k = .ok ((),k.place ptr (.process (f process))) := by
  unfold updateProcess
  rw [bind_run (loadAs_run asProcess held rfl)]
  rfl

theorem processGet_free {k : Kernel} (free : k.processes slot = 0) (inside : slot < nutsosMaxProcesses) :
    processGet k (slot : Nat) = 0 := by
  unfold processGet
  rw [if_neg (by omega)]
  exact free

theorem processLoadForSlot_table {k : Kernel} (valid : HeapValid k) (free : k.processes slot = 0) (inside : slot < nutsosMaxProcesses)
    (served : ¬ NoProcess k) (ran : processLoadForSlot dev filename slot k = .ok (result,after)) :
    after.fileDescriptors ≠ k.fileDescriptors := by
  unfold processLoadForSlot at ran
  rw [get_bind,if_neg (by rw [processGet_free free inside]; simp)] at ran
  rcases kzalloc_process valid (.process zeroProcess) with ⟨none,_⟩ | ⟨_,process,one,allocated,nonnull,grown,_,held⟩
  · exact absurd none served
  rw [bind_run allocated,if_neg nonnull,bind_run (updateProcess_run held _)] at ran
  obtain ⟨res,two,loaded,ran⟩ := bind_ok.mp ran
  have changed := processLoadBinary_table (grown.valid.place (by simp [held]) _) loaded
  have before : one.fileDescriptors = k.fileDescriptors := by rw [grown.rest]
  have rest : after.fileDescriptors = two.fileDescriptors := by
    refine (?_ : Within Files.SameTable _) _ _ _ ran
    exact within_ite (table_discipline.loadFailed _ _) (table_discipline.slotLoaded (fun _ _ => rfl) _ _ _)
  rw [rest,← before]
  exact changed

theorem processLoadForSlot_refused {k : Kernel} (valid : HeapValid k) (free : k.processes slot = 0) (inside : slot < nutsosMaxProcesses)
    (refused : NoProcess k) (dev : BlockDevice) (filename : List UInt8) :
    processLoadForSlot dev filename slot k = .ok ((-enomem,none),k) := by
  rcases kzalloc_process valid (.process zeroProcess) with ⟨_,none⟩ | ⟨served,_⟩
  · unfold processLoadForSlot
    rw [get_bind,if_neg (by rw [processGet_free free inside]; simp),bind_run none,if_pos rfl]
    rfl
  · exact absurd refused served

theorem load_undone_iff {k : Kernel} (valid : HeapValid k) (fails : LoadFails dev filename k) :
    FailureUndone dev filename k ↔ NoSlot k ∨ NoProcess k := by
  have early (ran : processLoad dev filename k = .ok ((-enomem,none),k)) : FailureUndone dev filename k := by
    refine ⟨fun e failed => ?_,fun res out after ran' _ => ?_⟩
    · rw [ran] at failed
      cases failed
    · rw [ran] at ran'
      cases ran'
      exact .refl k
  by_cases full : NoSlot k
  · exact iff_of_true (early (processLoad_full full dev filename)) (.inl full)
  obtain ⟨slot,inside,free,called⟩ := processLoad_slot full dev filename
  by_cases refused : NoProcess k
  · exact iff_of_true (early (called.trans (processLoadForSlot_refused valid free inside refused dev filename))) (.inr refused)
  refine iff_of_false (fun undone => ?_) (fun cases => cases.elim full refused)
  unfold LoadFails at fails
  generalize ran : processLoad dev filename k = result at fails
  cases fails with
  | returned negative =>
    exact processLoadForSlot_table valid free inside refused (called.symm.trans ran) (undone.undone _ _ _ ran negative).table
  | stopped bad => exact undone.sound _ ran bad

def fullKernel : Kernel := {bootKernel bootEntries fatDisk with processes := fun _ => 0x01000000}
def blankPath : List UInt8 := [48,58,47,66,76,65,78,75,46,66,73,78]

theorem full_load_undone : FailureUndone (fun _ => some (fun _ => 0)) blankPath fullKernel := by
  have full : NoSlot fullKernel := fun i _ => show (0x01000000 : Nat) ≠ 0 by decide
  have valid : HeapValid fullKernel := (boot_valid bootEntries fatDisk rfl).congr rfl (fun _ live => live)
  refine (load_undone_iff valid ?_).mpr (.inl full)
  unfold LoadFails
  rw [processLoad_full full]
  exact .returned (by decide)

-- On a path that does not parse, fopen returns NULL, and fclose(fd->index) reads
-- through it.
theorem refused_path_dereferenced {k : Kernel} (valid : HeapValid k) (slots : ¬ NoSlot k) (memory : ¬ NoProcess k)
    (refused : PathRefused filename) (dev : BlockDevice) : processLoad dev filename k = .error .nullDeref := by
  obtain ⟨slot,inside,free,called⟩ := processLoad_slot slots dev filename
  rcases kzalloc_process valid (.process zeroProcess) with ⟨none,_⟩ | ⟨_,process,one,allocated,nonnull,grown,_,held⟩
  · exact absurd none memory
  have null : HeapValid (one.place process (.process zeroProcess)) := grown.valid.place (by simp [held]) _
  have closed {l : Kernel} (empty : l.objs 0 = none) : closeFile 0 (-eio) l = .error .nullDeref :=
    bind_fault (loadAs_null empty asFileDescriptor)
  rw [called]
  unfold processLoadForSlot
  rw [get_bind,if_neg (by rw [processGet_free free inside]; simp),bind_run allocated,if_neg nonnull,
    bind_run (updateProcess_run held _)]
  apply bind_fault
  unfold processLoadData processLoadBinary
  rw [bind_run (fopen_path_refused refused dev [charR] _),if_pos rfl]
  exact closed null.null

theorem bad_path_dereferenced : ¬ FailureUndone (fun _ => none) [] (bootKernel bootEntries fatDisk) := by
  intro undone
  have valid := boot_valid bootEntries fatDisk rfl
  have memory : ¬ NoProcess (bootKernel bootEntries fatDisk) := ((boot_room bootEntries fatDisk).less (by decide)).unexhausted 2
  have slots : ¬ NoSlot (bootKernel bootEntries fatDisk) := fun taken => taken 0 (by decide) rfl
  have ran := refused_path_dereferenced valid slots memory (.inr (by decide) : PathRefused []) (fun _ => none)
  exact undone.sound _ ran ⟨0,.inl rfl,rfl⟩

end NutsOS.Processes
