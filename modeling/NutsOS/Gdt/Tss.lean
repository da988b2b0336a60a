import NutsOS.Gdt.Encoding
import NutsOS.Lib.Ports

-- tss.h, the segment that kmain makes of it, and the ports that it leaves to ring 3.
namespace NutsOS.Gdts
open Ram X86

structure Tss where
  link : Word
  esp0 : Word
  ss0 : Word
  esp1 : Word
  ss1 : Word
  esp2 : Word
  ss2 : Word
  cr3 : Word
  eip : Word
  eflags : Word
  eax : Word
  ecx : Word
  edx : Word
  ebx : Word
  esp : Word
  ebp : Word
  esi : Word
  edi : Word
  es : Word
  cs : Word
  ss : Word
  ds : Word
  fs : Word
  gs : Word
  ldtr : Word
  iopb : Word

def Tss.words (tss : Tss) : List Word :=
  [tss.link,tss.esp0,tss.ss0,tss.esp1,tss.ss1,tss.esp2,tss.ss2,tss.cr3,tss.eip,tss.eflags,tss.eax,tss.ecx,tss.edx,tss.ebx,tss.esp,
    tss.ebp,tss.esi,tss.edi,tss.es,tss.cs,tss.ss,tss.ds,tss.fs,tss.gs,tss.ldtr,tss.iopb]

def sizeofTss : Nat := 104

def Tss.byte (tss : Tss) (i : Nat) : BitVec 8 := (tss.words.getD (i/4) 0#32).extractLsb' (8*(i%4)) 8

def gdtKernelDataOffset : Word := 2*8

-- memset, and the two fields that kmain sets.
def zeroTss : Tss :=
  ⟨0,0,0,0,0,0,0,0,0,0,0,0,0,0,0,0,0,0,0,0,0,0,0,0,0,0⟩

def kernelTss : Tss := {zeroTss with ss0 := gdtKernelDataOffset, esp0 := 0x00600000#32}

def gdtTssTssldt (x : UInt8) : UInt8 := x
def gdtTss32bit (x : UInt8) : UInt8 := x<<<3
def gdtTssPriv (x : UInt8) : UInt8 := (x &&& 0b111)<<<5
def gdtTssPres (x : UInt8) : UInt8 := x<<<7

-- The last entry of the gdt of kernel.c, with the limit sizeof(tss)-1.
def tssSegment (tss : UInt32) : Gdt := ⟨tss,103,gdtTssPriv 3 ||| gdtTssPres 1 ||| gdtTss32bit 1 ||| gdtTssTssldt 1⟩

-- What ltr loads of the descriptor.
def loadedSegment (raw : GdtRaw) : TaskSegment := ⟨BitVec.ofNat 32 raw.base,raw.limit⟩

-- The only ports whose bits are set: two of esp0's and one of ss0's.
def closedPorts : List Nat := [53,54,68]

theorem kernelTss_byte : ∀ i < 104, kernelTss.byte i = if i = 6 then 0x60#8 else if i = 8 then 0x10#8 else 0#8 := by decide

theorem kernelTss_bit (inside : port < 832) : (kernelTss.byte (port/8)).getLsbD (port%8) = true ↔ port ∈ closedPorts := by
  rw [kernelTss_byte _ (by omega)]
  unfold closedPorts
  have esp0 : ∀ bit < 8, (0x60#8 : BitVec 8).getLsbD bit = true ↔ 48+bit ∈ [53,54,68] := by decide
  have ss0 : ∀ bit < 8, (0x10#8 : BitVec 8).getLsbD bit = true ↔ 64+bit ∈ [53,54,68] := by decide
  have small : port%8 < 8 := Nat.mod_lt _ (by decide)
  by_cases sixth : port/8 = 6
  · have place : 48+port%8 = port := by omega
    rw [if_pos sixth,esp0 _ small,place]
  · by_cases eighth : port/8 = 8
    · have place : 64+port%8 = port := by omega
      rw [if_neg sixth,if_pos eighth,ss0 _ small,place]
    · have other : port ≠ 53 ∧ port ≠ 54 ∧ port ≠ 68 := by omega
      rw [if_neg sixth,if_neg eighth]
      simp [other]

theorem tss_encoded (tss : UInt32) : ∃ raw, encodeGdtEntry (tssSegment tss) = .ok raw ∧ raw.base = tss.toNat ∧ raw.limit = 103 := by
  obtain ⟨raw,ran⟩ : ∃ raw, encodeGdtEntry (tssSegment tss) = .ok raw := ⟨_,rfl⟩
  exact ⟨raw,ran,encoded_base ran,encoded_limit ran⟩

-- The offset of the map is 0, so the map is the segment itself.
theorem tss_map {mem : Memory} {segment : TaskSegment} (held : ∀ i < sizeofTss, segment.byte mem i = kernelTss.byte i) (limit : segment.limit = 103) :
    segment.half mem 102 = some 0#16 := by
  unfold TaskSegment.half
  rw [if_pos (by omega),held 103 (by decide),held 102 (by decide)]
  decide

-- kmain leaves iopb at 0, and the limit takes in the whole structure: ring 3 has all
-- the ports below 824 but three, those of the disk and of the interrupt controller among them.
theorem user_ports_exact (tss : UInt32) {mem : Memory} (held : ∀ i < sizeofTss, mem (tss.toBitVec+BitVec.ofNat 32 i) = kernelTss.byte i)
    (outer : iopl < 3) (operand : width = 1 ∨ width = 2 ∨ width = 4) :
    ∃ raw, encodeGdtEntry (tssSegment tss) = .ok raw ∧
      ((loadedSegment raw).PortGranted mem 3 iopl port width ↔ port < 824 ∧ ∀ i < width, port+i ∉ closedPorts) := by
  obtain ⟨raw,ran,base,limit⟩ := tss_encoded tss
  have bytes (i : Nat) (inside : i < sizeofTss) : (loadedSegment raw).byte mem i = kernelTss.byte i := by
    have start : BitVec.ofNat 32 raw.base = tss.toBitVec := by
      rw [base]
      exact BitVec.ofNat_toNat 32 tss.toBitVec
    unfold loadedSegment TaskSegment.byte
    rw [start]
    exact held i inside
  refine ⟨raw,ran,(TaskSegment.portGranted_iff outer (tss_map bytes limit) (by omega)).trans ?_⟩
  show 0+port/8+1 ≤ raw.limit ∧ (∀ i < width, (loadedSegment raw).portBit mem 0 (port+i) = false) ↔ _
  have bit (low : port < 824) (i : Nat) (small : i < width) :
      (loadedSegment raw).portBit mem 0 (port+i) = false ↔ port+i ∉ closedPorts := by
    unfold TaskSegment.portBit
    rw [Nat.zero_add,bytes _ (by unfold sizeofTss; omega),← kernelTss_bit (by omega),Bool.not_eq_true]
  rw [limit]
  constructor
  · rintro ⟨inside,clear⟩
    have low : port < 824 := by omega
    exact ⟨low,fun i small => (bit low i small).mp (clear i small)⟩
  · rintro ⟨low,clear⟩
    exact ⟨by omega,fun i small => (bit low i small).mpr (clear i small)⟩

def tssImage : Memory := fun a => kernelTss.byte (a-0x00120000#32).toNat

theorem disk_command_open : ∃ raw, encodeGdtEntry (tssSegment 0x00120000) = .ok raw ∧
    (loadedSegment raw).PortGranted tssImage 3 0 0x1F7 1 := by
  have held (i : Nat) (inside : i < sizeofTss) : tssImage ((0x00120000 : UInt32).toBitVec+BitVec.ofNat 32 i) = kernelTss.byte i := by
    unfold sizeofTss at inside
    have offset : ((0x00120000#32 : Word)+BitVec.ofNat 32 i-0x00120000#32).toNat = i := by bv_omega
    exact congrArg kernelTss.byte offset
  obtain ⟨raw,ran,granted⟩ := user_ports_exact 0x00120000 held (show 0 < 3 by decide) (.inl rfl)
  exact ⟨raw,ran,granted.mpr ⟨by decide,by decide⟩⟩

end NutsOS.Gdts
