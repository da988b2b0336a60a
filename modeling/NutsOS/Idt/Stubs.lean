import NutsOS.Idt.Table

-- idt.asm's stubs and idt_zero: what becomes of the program that an interrupt
-- stops.
namespace NutsOS.Idt
open Ram X86

-- The processor enters ring 0 through the gate. For some exceptions it puts an
-- error code on top.
def deliver (user : Cpu) (gate : Gate) (errorCode : Option Word) : Cpu :=
  let c := user.trap gate.offset gate.selector kernelData kernelStack
  match errorCode with
  | none => c
  | some code => c.push code

-- int21h and no_interrupt, around the call of their C function.
def interruptStub (handler : Cpu → Cpu) (c : Cpu) : Cpu := (handler c.pushad).popad.iretd

-- idt_zero is in its gate without a stub: the processor comes straight to the C
-- function, which ends with ret.
def Routine.run (handler : Cpu → Cpu) : Routine → Cpu → Cpu
  | .noInterrupt,c => interruptStub handler c
  | .int21h,c => interruptStub handler c
  | .idtZero,c => (handler c).ret
  | .isr80hWrapper,c => Idt.isr80hWrapper handler c

-- A C function without arguments, as compiled: it leaves the stack as it found it.
structure Tidy (c after : Cpu) : Prop where
  esp : after.esp = c.esp
  stack : ∀ x, c.esp.toNat ≤ x.toNat → x.toNat < kernelStack.toNat → after.mem x = c.mem x
  code : after.cs = c.cs
  segments : after.dataSegments = c.dataSegments

section
variable {handler : Cpu → Cpu}

def Resumed (user after : Cpu) : Prop := ∃ mem, after = {user with mem := mem}

theorem Tidy.stacked (tidy : Tidy c after) (stacked : Stacked c words) (inside : c.esp.toNat+4*words.length ≤ kernelStack.toNat) :
    Stacked after words := by
  unfold Stacked
  rw [tidy.esp]
  apply stacked.congr
  intro i small
  have bound : kernelStack.toNat = 0x600000 := rfl
  have offset := offset_toNat (n := i) (by omega)
  rw [bound] at inside
  apply tidy.stack
  · bv_omega
  · rw [bound]
    bv_omega

theorem stub_popped {c : Cpu} (stacked : Stacked c words) (depth : c.esp = kernelStack-BitVec.ofNat 32 (4*words.length)) (short : words.length ≤ 6)
    (tidy : Tidy c.pushad (handler c.pushad)) :
    (handler c.pushad).popad = {handler c.pushad with
      edi := c.edi, esi := c.esi, ebp := c.ebp, ebx := c.ebx, edx := c.edx, ecx := c.ecx, eax := c.eax,
      esp := (handler c.pushad).esp+32#32} ∧ Stacked (handler c.pushad).popad words := by
  have deep := stacked.pushad (by omega)
  have offset := offset_toNat (n := 4*words.length) (by omega)
  have saved : Stacked (handler c.pushad) (general c++words) := by
    refine tidy.stacked deep ?_
    rw [pushad_esp,depth,List.length_append]
    have registers : (general c).length = 8 := rfl
    rw [registers]
    unfold kernelStack
    bv_omega
  exact ⟨popad_stacked saved,popad_rest saved⟩

theorem iretd_eflags (c : Cpu) : c.iretd.eflags = read c.mem (c.esp+8#32) := by
  unfold Cpu.iretd
  dsimp only
  split <;> rfl

theorem trap_stacked (user : Cpu) (gate : Gate) : Stacked (deliver user gate none) (trapped user) :=
  Stacked.trap user gate.offset gate.selector kernelData kernelStack

theorem trap_depth (user : Cpu) (gate : Gate) : (deliver user gate none).esp = kernelStack-20#32 :=
  trap_esp user gate.offset gate.selector kernelData kernelStack

theorem trap_cs (user : Cpu) (gate : Gate) : (deliver user gate none).cs = gate.selector := rfl

theorem stub_resumes (user : Cpu) (gate : Gate) (ring : user.cs.setWidth 2 = 3#2) (tidy : ∀ c, Tidy c (handler c)) :
    Resumed user (interruptStub handler (deliver user gate none)) := by
  have depth := trap_depth user gate
  obtain ⟨popped,rest⟩ := stub_popped (trap_stacked user gate) depth (by simp [trapped]) (tidy _)
  have outer : (user.cs.setWidth 32 : Word).setWidth 2 = 3#2 := by
    rw [BitVec.setWidth_setWidth_of_le _ (by decide)]
    exact ring
  have segments := (tidy (deliver user gate none).pushad).segments
  have inner : (deliver user gate none).pushad.dataSegments = user.dataSegments :=
    (pushad_dataSegments _).trans (trap_dataSegments user gate.offset gate.selector kernelData kernelStack)
  rw [← (tidy (deliver user gate none).pushad).segments] at inner
  have registers : general (deliver user gate none) = _ := trap_general user gate.offset gate.selector kernelData kernelStack
  unfold general at registers
  simp only [List.cons.injEq,and_true] at registers
  obtain ⟨edi,esi,ebp,_,ebx,edx,ecx,eax⟩ := registers
  unfold interruptStub
  rw [popped] at rest ⊢
  rw [iretd_outer rest outer]
  generalize handler (deliver user gate none).pushad = after at *
  simp only [Cpu.dataSegments,List.cons.injEq,and_true] at inner
  obtain ⟨ds,es,fs,gs⟩ := inner
  refine ⟨after.mem,?_⟩
  simp only [edi,esi,ebp,ebx,edx,ecx,eax,ds,es,fs,gs]
  simp

-- With one, iretd takes the words from a place too low.
theorem stub_shifted (user : Cpu) (gate : Gate) (errorCode : Word) (tidy : ∀ c, Tidy c (handler c)) :
    (interruptStub handler (deliver user gate (some errorCode))).eflags = user.cs.setWidth 32 := by
  have stacked : Stacked (deliver user gate (some errorCode)) (errorCode::trapped user) :=
    (trap_stacked user gate).push (by simp [trapped]) errorCode
  have depth : (deliver user gate (some errorCode)).esp = kernelStack-24#32 := by
    show (deliver user gate none).esp-4#32 = _
    rw [trap_depth]
    bv_omega
  obtain ⟨popped,rest⟩ := stub_popped stacked depth (by simp [trapped]) (tidy _)
  have third := rest.2.2.1
  rw [BitVec.add_assoc] at third
  unfold interruptStub
  rw [iretd_eflags]
  exact third

theorem idtZero_returns (user : Cpu) (gate : Gate) (tidy : ∀ c, Tidy c (handler c)) :
    (Routine.run handler .idtZero (deliver user gate none)).eip = user.eip ∧
      (Routine.run handler .idtZero (deliver user gate none)).cs = gate.selector ∧
      (Routine.run handler .idtZero (deliver user gate none)).esp = kernelStack-16#32 := by
  have own := tidy (deliver user gate none)
  have depth := trap_depth user gate
  have stacked : Stacked (handler (deliver user gate none)) (trapped user) := by
    refine own.stacked (trap_stacked user gate) ?_
    have words : (trapped user).length = 5 := rfl
    rw [depth,words]
    decide
  refine ⟨stacked.1,own.code.trans (trap_cs user gate),?_⟩
  show (handler (deliver user gate none)).esp+4#32 = _
  rw [own.esp,depth]
  decide

theorem idtZero_ring (user : Cpu) (gate : Gate) (errorCode : Option Word) (tidy : ∀ c, Tidy c (handler c)) :
    (Routine.run handler .idtZero (deliver user gate errorCode)).cs = gate.selector := by
  have own := (tidy (deliver user gate errorCode)).code
  cases errorCode with
  | none => exact own
  | some code => exact own

theorem initialRoutine_stub (zero : vector ≠ 0) (other : vector ≠ 0x80) (c : Cpu) :
    (initialRoutine vector).run handler c = interruptStub handler c := by
  unfold initialRoutine
  rw [if_neg other,if_neg zero]
  by_cases keyboard : vector = 0x21
  · rw [if_pos keyboard]
    rfl
  · rw [if_neg keyboard]
    rfl

end

theorem interrupt_resumes_iff (linked : Linked) (table : Word) (s : Interrupts) {user : Cpu} {handler : Cpu → Cpu}
    (ran : idtInit linked table s = .ok ((),t)) (placed : Placed user.mem t table) (inside : vector < 256) (other : vector ≠ 0x80)
    (program : user.cs = 27#16) (enabled : user.eflags.getLsbD 9 = true) (errorCode : Option Word) (tidy : ∀ c, Tidy c (handler c)) :
    fetchGate user.mem t.idtr vector = some (interruptGate (linked (initialRoutine vector))) ∧
    (Resumed user ((initialRoutine vector).run handler (deliver user (interruptGate (linked (initialRoutine vector))) errorCode)) ↔
      vector ≠ 0 ∧ errorCode = none) ∧
    (vector = 0 → errorCode = none →
      ((initialRoutine vector).run handler (deliver user (interruptGate (linked (initialRoutine vector))) errorCode)).eip = user.eip ∧
      ((initialRoutine vector).run handler (deliver user (interruptGate (linked (initialRoutine vector))) errorCode)).cs = kernelCode ∧
      ((initialRoutine vector).run handler (deliver user (interruptGate (linked (initialRoutine vector))) errorCode)).esp =
        kernelStack-16#32) := by
  have gates := (gates_exact linked table [] s).2 t user.mem (by rw [Prog.bind_run ran]; rfl) placed vector
    (by unfold nutsosTotalInterrupts; omega)
  refine ⟨gates,?_,?_⟩
  · constructor
    · rintro ⟨mem,resumed⟩
      have zero : vector ≠ 0 := by
        rintro rfl
        have code := (congrArg Cpu.cs resumed).symm.trans (idtZero_ring user _ errorCode tidy)
        exact absurd (program.symm.trans code) (by decide : ¬ (27#16 : Selector) = kernelCode)
      refine ⟨zero,?_⟩
      rw [initialRoutine_stub zero other] at resumed
      cases errorCode with
      | none => rfl
      | some code =>
        have flags := (congrArg Cpu.eflags resumed).symm.trans (stub_shifted user _ code tidy)
        rw [show Cpu.eflags {user with mem := mem} = user.eflags from rfl,program] at flags
        rw [flags] at enabled
        exact absurd enabled (by decide)
    · rintro ⟨zero,rfl⟩
      rw [initialRoutine_stub zero other]
      exact stub_resumes user _ (by rw [program]; decide) tidy
  · rintro rfl rfl
    exact idtZero_returns user _ tidy

-- A page fault, whose error code is 4, in a program with the flags 0x202.
def faultingUser (s : Interrupts) : Cpu := {sampleUser 0x202#32 with mem := tableImage s 0x00110000#32}

theorem page_fault_lost : ∃ t, idtInit (fun _ => 0x00100000#32) 0x00110000#32 ⟨fun _ => zeroDesc,⟨0#16,0#32⟩,⟨0#16,0#32⟩⟩ = .ok ((),t) ∧
    fetchGate (faultingUser t).mem t.idtr 14 = some (interruptGate 0x00100000#32) ∧
    ¬ Resumed (faultingUser t) ((initialRoutine 14).run id (deliver (faultingUser t) (interruptGate 0x00100000#32) (some 4#32))) := by
  obtain ⟨t,ran⟩ : ∃ t, idtInit (fun _ => 0x00100000#32) 0x00110000#32 ⟨fun _ => zeroDesc,⟨0#16,0#32⟩,⟨0#16,0#32⟩⟩ = .ok ((),t) :=
    ⟨_,idtInit_run _ _ _⟩
  have placed : Placed (faultingUser t).mem t 0x00110000#32 := tableImage_placed t _
  have vector : 14 < 256 ∧ 14 ≠ 0x80 := by decide
  have enabled : (faultingUser t).eflags.getLsbD 9 = true := (by decide : (0x202#32 : Word).getLsbD 9 = true)
  obtain ⟨gate,resumes,_⟩ := interrupt_resumes_iff (fun _ => 0x00100000#32) 0x00110000#32 _ ran placed vector.1 vector.2 rfl
    enabled (some 4#32) (fun c => (⟨rfl,fun _ _ _ => rfl,rfl,rfl⟩ : Tidy c (id c)))
  refine ⟨t,ran,gate,fun resumed => ?_⟩
  cases (resumes.mp resumed).2

end NutsOS.Idt
