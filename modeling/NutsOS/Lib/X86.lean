import NutsOS.Lib.Ram

-- The registers of a 32-bit x86 processor in protected mode, and the
-- instructions that move words between them and the stack. Nothing here
-- refers to a particular program.
namespace X86
open Ram

abbrev Selector := BitVec 16

structure Cpu where
  edi : Word
  esi : Word
  ebp : Word
  esp : Word
  ebx : Word
  edx : Word
  ecx : Word
  eax : Word
  eip : Word
  eflags : Word
  cs : Selector
  ss : Selector
  ds : Selector
  es : Selector
  fs : Selector
  gs : Selector
  mem : Memory

namespace Cpu

def push (c : Cpu) (value : Word) : Cpu := {c with esp := c.esp-4#32, mem := write c.mem (c.esp-4#32) value}

def top (c : Cpu) : Word := read c.mem c.esp

def discard (c : Cpu) (bytes : Word) : Cpu := {c with esp := c.esp+bytes}

def pushad (c : Cpu) : Cpu :=
  (((((((c.push c.eax).push c.ecx).push c.edx).push c.ebx).push c.esp).push c.ebp).push c.esi).push c.edi

-- The stored esp is skipped.
def popad (c : Cpu) : Cpu := {c with
  edi := read c.mem c.esp, esi := read c.mem (c.esp+4#32), ebp := read c.mem (c.esp+8#32), ebx := read c.mem (c.esp+16#32),
  edx := read c.mem (c.esp+20#32), ecx := read c.mem (c.esp+24#32), eax := read c.mem (c.esp+28#32), esp := c.esp+32#32}

-- VM and RF are pushed as zero.
def pushf (c : Cpu) : Cpu := c.push (c.eflags &&& 0x00FCFFFF#32)

def callTo (c : Cpu) (returnAddress : Word) : Cpu := c.push returnAddress

def ret (c : Cpu) : Cpu := {c with eip := c.top, esp := c.esp+4#32}

-- From ring 0. A code selector of an outer ring takes esp and ss from the stack too.
def iretd (c : Cpu) : Cpu :=
  let cs := (read c.mem (c.esp+4#32)).setWidth 16
  let inner := {c with eip := read c.mem c.esp, cs := cs, eflags := read c.mem (c.esp+8#32), esp := c.esp+12#32}
  if cs.setWidth 2 = 0#2 then inner else
  {inner with esp := read c.mem (c.esp+12#32), ss := (read c.mem (c.esp+16#32)).setWidth 16}

-- A trap from ring 3 through an interrupt gate. TF, IF, NT, RF and VM are cleared.
def trap (c : Cpu) (handler : Word) (code stackSegment : Selector) (stack : Word) : Cpu :=
  let frame := (((({c with ss := stackSegment, esp := stack}.push (c.ss.setWidth 32)).push c.esp).push c.eflags).push
    (c.cs.setWidth 32)).push c.eip
  {frame with eip := handler, cs := code, eflags := c.eflags &&& 0xFFFCBCFF#32}

@[simp] theorem push_eax (c : Cpu) (value : Word) : (c.push value).eax = c.eax := rfl

def dataSegments (c : Cpu) : List Selector := [c.ds,c.es,c.fs,c.gs]

@[simp] theorem push_dataSegments (c : Cpu) (value : Word) : (c.push value).dataSegments = c.dataSegments := rfl

end Cpu

def Stacked (c : Cpu) (words : List Word) : Prop := Block c.mem c.esp words

theorem Stacked.push (stacked : Stacked c words) (bound : words.length < 1073741823) (value : Word) :
    Stacked (c.push value) (value::words) := Block.push stacked bound value

theorem Stacked.empty (c : Cpu) : Stacked c [] := trivial

-- The eight words of pushad, the top one first.
def general (c : Cpu) : List Word := [c.edi,c.esi,c.ebp,c.esp,c.ebx,c.edx,c.ecx,c.eax]

theorem Stacked.pushad (stacked : Stacked c words) (bound : words.length < 1073741000) :
    Stacked c.pushad (general c++words) := by
  have one := stacked.push (by omega) c.eax
  have two := one.push (by simp only [List.length_cons]; omega) c.ecx
  have three := two.push (by simp only [List.length_cons]; omega) c.edx
  have four := three.push (by simp only [List.length_cons]; omega) c.ebx
  have five := four.push (by simp only [List.length_cons]; omega) c.esp
  have six := five.push (by simp only [List.length_cons]; omega) c.ebp
  have seven := six.push (by simp only [List.length_cons]; omega) c.esi
  exact seven.push (by simp only [List.length_cons]; omega) c.edi

-- The five words of a trap, the top one first.
def trapped (c : Cpu) : List Word := [c.eip,c.cs.setWidth 32,c.eflags,c.esp,c.ss.setWidth 32]

theorem Stacked.trap (c : Cpu) (handler : Word) (code stackSegment : Selector) (stack : Word) :
    Stacked (c.trap handler code stackSegment stack) (trapped c) := by
  have start : Stacked {c with ss := stackSegment, esp := stack} [] := .empty _
  have one := start.push (by simp) (c.ss.setWidth 32)
  have two := one.push (by simp) c.esp
  have three := two.push (by simp) c.eflags
  have four := three.push (by simp) (c.cs.setWidth 32)
  exact four.push (by simp) c.eip

theorem trap_esp (c : Cpu) (handler : Word) (code stackSegment : Selector) (stack : Word) :
    (c.trap handler code stackSegment stack).esp = stack-20#32 := by
  simp only [Cpu.trap,Cpu.push]
  bv_omega

theorem trap_general (c : Cpu) (handler : Word) (code stackSegment : Selector) (stack : Word) :
    general (c.trap handler code stackSegment stack) = [c.edi,c.esi,c.ebp,stack-20#32,c.ebx,c.edx,c.ecx,c.eax] := by
  unfold general
  rw [trap_esp]
  simp only [Cpu.trap,Cpu.push]

theorem trap_eax (c : Cpu) (handler : Word) (code stackSegment : Selector) (stack : Word) :
    (c.trap handler code stackSegment stack).eax = c.eax := by
  simp only [Cpu.trap,Cpu.push_eax]

theorem trap_dataSegments (c : Cpu) (handler : Word) (code stackSegment : Selector) (stack : Word) :
    (c.trap handler code stackSegment stack).dataSegments = c.dataSegments := by
  simp only [Cpu.dataSegments,Cpu.trap,Cpu.push]

theorem pushad_dataSegments (c : Cpu) : c.pushad.dataSegments = c.dataSegments := by
  simp only [Cpu.pushad,Cpu.push_dataSegments]

theorem pushad_eax (c : Cpu) : c.pushad.eax = c.eax := by
  simp only [Cpu.pushad,Cpu.push_eax]

theorem pushad_esp (c : Cpu) : c.pushad.esp = c.esp-32#32 := by
  simp only [Cpu.pushad,Cpu.push]
  bv_omega

theorem popad_stacked (stacked : Stacked c (general saved++words)) :
    c.popad = {c with
      edi := saved.edi, esi := saved.esi, ebp := saved.ebp, ebx := saved.ebx, edx := saved.edx, ecx := saved.ecx,
      eax := saved.eax, esp := c.esp+32#32} := by
  obtain ⟨edi,esi,ebp,_,ebx,edx,ecx,eax,_⟩ := stacked
  simp only [BitVec.add_assoc,BitVec.reduceAdd] at esi ebp ebx edx ecx eax
  unfold Cpu.popad
  rw [edi,esi,ebp,ebx,edx,ecx,eax]

theorem popad_rest (stacked : Stacked c (general saved++words)) : Stacked c.popad words := by
  have rest := (Block.append.mp stacked).2
  exact rest

theorem iretd_outer (stacked : Stacked c [eip,cs,eflags,esp,ss]) (outer : cs.setWidth 2 = 3#2) :
    c.iretd = {c with eip := eip, cs := cs.setWidth 16, eflags := eflags, esp := esp, ss := ss.setWidth 16} := by
  obtain ⟨rfl,code,flags,stack,segment,_⟩ := stacked
  simp only [BitVec.add_assoc,BitVec.reduceAdd] at code flags stack segment
  have ring : ¬ ((cs.setWidth 16).setWidth 2 : BitVec 2) = 0#2 := by
    rw [BitVec.setWidth_setWidth_of_le _ (by decide),outer]
    decide
  unfold Cpu.iretd
  rw [code,flags,stack,segment]
  exact if_neg ring

end X86
