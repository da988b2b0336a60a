import NutsOS.Lib.Ram

-- The ports that an x86 processor leaves to a ring: by IOPL, or by the map in the
-- segment of the current task. Nothing here refers to a particular program.
namespace X86
open Ram

-- The segment as the task register has it; the limit is the last offset inside.
structure TaskSegment where
  base : Word
  limit : Nat

namespace TaskSegment

def byte (mem : Memory) (segment : TaskSegment) (offset : Nat) : BitVec 8 := mem (segment.base+BitVec.ofNat 32 offset)

-- The two bytes from an offset on, if both are inside.
def half (mem : Memory) (segment : TaskSegment) (offset : Nat) : Option (BitVec 16) :=
  if offset+1 ≤ segment.limit then some (segment.byte mem (offset+1) ++ segment.byte mem offset) else none

-- The bit of a port in the map at an offset.
def portBit (mem : Memory) (segment : TaskSegment) (map port : Nat) : Bool := (segment.byte mem (map+port/8)).getLsbD (port%8)

-- in or out of so many bytes. The half word at 102 is the offset of the map, in
-- which the processor always looks at two bytes.
def PortGranted (mem : Memory) (segment : TaskSegment) (cpl iopl port width : Nat) : Prop :=
  cpl ≤ iopl ∨ ∃ map bits, segment.half mem 102 = some map ∧ segment.half mem (map.toNat+port/8) = some bits ∧
    ∀ i < width, bits.getLsbD (port%8+i) = false

theorem half_bit {segment : TaskSegment} (found : half mem segment (map+port/8) = some bits) (inside : port%8+i < 16) :
    bits.getLsbD (port%8+i) = segment.portBit mem map (port+i) := by
  unfold half at found
  obtain ⟨_,same⟩ := Option.ite_none_right_eq_some.mp found
  cases same
  unfold portBit
  rw [BitVec.getLsbD_append]
  by_cases first : port%8+i < 8
  · have place : (port+i)/8 = port/8 ∧ (port+i)%8 = port%8+i := by omega
    rw [place.1,place.2,if_pos first]
  · have place : map+(port+i)/8 = map+port/8+1 ∧ (port+i)%8 = port%8+i-8 := by omega
    rw [place.1,place.2,if_neg first]

theorem portGranted_iff {segment : TaskSegment} (outer : iopl < cpl) (map : half mem segment 102 = some offset) (narrow : width ≤ 8) :
    PortGranted mem segment cpl iopl port width ↔
      offset.toNat+port/8+1 ≤ segment.limit ∧ ∀ i < width, segment.portBit mem offset.toNat (port+i) = false := by
  constructor
  · rintro (inner | ⟨offset',bits,found,held,clear⟩)
    · omega
    · cases map.symm.trans found
      have inside : offset.toNat+port/8+1 ≤ segment.limit := by
        unfold half at held
        exact (Option.ite_none_right_eq_some.mp held).1
      refine ⟨inside,fun i small => ?_⟩
      rw [← half_bit held (by omega)]
      exact clear i small
  · rintro ⟨inside,clear⟩
    have held : half mem segment (offset.toNat+port/8) = some _ := if_pos inside
    refine .inr ⟨offset,_,map,held,fun i small => ?_⟩
    rw [half_bit held (by omega)]
    exact clear i small

end TaskSegment

end X86
