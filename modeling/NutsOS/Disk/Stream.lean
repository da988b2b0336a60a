import NutsOS.Config
import NutsOS.Lib.Word32
import NutsOS.Lib.Bytes

-- disk.c and stream.c: reading bytes of a disk through its 512-byte sectors.
namespace NutsOS
open Word32 Bytes

-- Where a run of the source leaves defined behaviour.
inductive Fault where
  | nullDeref
  | wildDeref (address : Nat)
  | divideByZero
  | outOfBounds (index : Int)
  | panic
  | unbounded
  deriving DecidableEq

def Fault.deref (ptr : Nat) : Fault := if ptr = 0 then .nullDeref else .wildDeref ptr

namespace DiskStreams

def nutsosSectorSize : Int := 512

-- The drive behind the ATA ports: a sector's bytes, or none that it ever
-- announces.
abbrev BlockDevice := Nat → Option (Nat → UInt8)

def imageDevice (image : Nat → UInt8) : BlockDevice := fun lba => some (fun i => image (lba*512+i))

structure DiskStream where
  pos : Int
  deriving DecidableEq

def diskstreamSeek (_ : DiskStream) (pos : Int) : Int × DiskStream := (0,⟨pos⟩)

-- The driver polls for a sector without a bound. -EIO is for another disk than
-- the one there is.
def diskReadBlock (dev : BlockDevice) (lba : Nat) : Except Fault (Int × (Nat → UInt8)) :=
  match dev lba with
  | none => .error .unbounded
  | some sector => .ok (0,sector)

-- The copying loop: `count` bytes of the sector buffer from `offset` on.
def copySector (buf : Nat → UInt8) : Nat → Int → Except Fault (List UInt8)
  | 0,_ => .ok []
  | count+1,offset =>
    if offset < 0 ∨ nutsosSectorSize ≤ offset then .error (.outOfBounds offset) else
    match copySector buf count (offset+1) with
    | .error e => .error e
    | .ok rest => .ok (buf offset.toNat::rest)

-- One pass of the do-while loop for each unit of fuel. The source recomputes
-- sector, offset and the counts at the end of a pass; here the next pass does.
def diskstreamReadLoop (dev : BlockDevice) : Nat → Int → Int → Except Fault (Int × List UInt8 × DiskStream)
  | 0,_,_ => .error .unbounded
  | fuel+1,pos,remainingToRead =>
    let sector := pos.tdiv nutsosSectorSize
    let offset := pos.tmod nutsosSectorSize
    let readableInSector := nutsosSectorSize - offset
    let totalToRead := if remainingToRead > readableInSector then readableInSector else remainingToRead
    match diskReadBlock dev (toUint32 sector) with
    | .error e => .error e
    | .ok (res,buf) =>
      if res < 0 then .ok (res,[],⟨pos⟩) else
      match copySector buf totalToRead.toNat offset with
      | .error e => .error e
      | .ok bytes =>
        let pos := toInt32 (pos + totalToRead)
        let remainingToRead := remainingToRead - totalToRead
        if remainingToRead > 0 then
          match diskstreamReadLoop dev fuel pos remainingToRead with
          | .error e => .error e
          | .ok (res,rest,stream) => .ok (res,bytes++rest,stream)
        else .ok (res,bytes,⟨pos⟩)

-- The result, the bytes stored from `out` on, and the stream afterwards.
def diskstreamRead (dev : BlockDevice) (stream : DiskStream) (total : Int) :
    Except Fault (Int × List UInt8 × DiskStream) :=
  diskstreamReadLoop dev (total.toNat+1) stream.pos total

theorem copySector_eq (buf : Nat → UInt8) (count offset : Nat) (inside : offset+count ≤ 512) :
    copySector buf count offset = .ok (slice buf offset count) := by
  induction count generalizing offset with
  | zero => rfl
  | succ count ih =>
    have next := ih (offset+1) (by omega)
    have bounded : ¬ ((offset : Int) < 0 ∨ nutsosSectorSize ≤ (offset : Int)) := by
      unfold nutsosSectorSize; omega
    rw [copySector,if_neg bounded,← Int.natCast_succ,next,slice_succ]
    rfl

def passCount (pos total : Nat) : Nat := min total (512-pos%512)

theorem passCount_eq (pos total : Nat) :
    (if (total : Int) > nutsosSectorSize - ((pos%512 : Nat) : Int) then
      nutsosSectorSize - ((pos%512 : Nat) : Int) else total) = (passCount pos total : Int) := by
  unfold nutsosSectorSize passCount
  split <;> omega

theorem passCount_bounds (pos total : Nat) : passCount pos total ≤ total ∧
    pos%512+passCount pos total ≤ 512 ∧ (0 < total → 0 < passCount pos total) := by
  unfold passCount
  omega

-- The byte of the disk at a position; a sector that does not arrive has none.
def bytesOf (dev : BlockDevice) (pos : Nat) : UInt8 :=
  match dev (pos/512) with
  | none => 0
  | some sector => sector (pos%512)

@[simp] theorem bytesOf_image (image : Nat → UInt8) : bytesOf (imageDevice image) = image := by
  funext pos
  show image (pos/512*512+pos%512) = image pos
  rw [Nat.div_add_mod']

-- The sectors that a read asks for; a read of no bytes asks for one, too.
def Asks (pos total lba : Nat) : Prop := lba = pos/512 ∨ (pos/512 ≤ lba ∧ lba*512 < pos+total)

def Arrives (dev : BlockDevice) : Prop := ∀ lba, (dev lba).isSome

theorem imageDevice_arrives (image : Nat → UInt8) : Arrives (imageDevice image) := fun _ => rfl

-- What a read comes to: all of the bytes, or no return from a sector that does
-- not arrive.
inductive Reading (dev : BlockDevice) (pos total : Nat) : Except Fault (Int × List UInt8 × DiskStream) → Prop where
  | whole (arrived : ∀ lba, Asks pos total lba → (dev lba).isSome) :
      Reading dev pos total (.ok (eok,slice (bytesOf dev) pos total,⟨toInt32 ((pos+total : Nat) : Int)⟩))
  | hangs (asked : Asks pos total lba) (silent : dev lba = none) : Reading dev pos total (.error .unbounded)

theorem pass_bytes (found : dev (pos/512) = some sector) (inSector : pos%512+now ≤ 512) :
    copySector sector now ((pos%512 : Nat) : Int) = .ok (slice (bytesOf dev) pos now) := by
  rw [copySector_eq _ _ _ inSector]
  congr 1
  apply slice_congr
  intro i small
  have block : (pos+i)/512 = pos/512 := by omega
  have offset : (pos+i)%512 = pos%512+i := by omega
  unfold bytesOf
  rw [block,found,offset]

theorem Asks.split (asked : Asks pos total lba) (first : lba ≠ pos/512) (now : pos%512+count = 512) (less : count < total) :
    Asks (pos+count) (total-count) lba := by
  unfold Asks at *
  omega

theorem Asks.later (asked : Asks (pos+count) (total-count) lba) (now : pos%512+count = 512) (less : count < total) :
    Asks pos total lba := by
  unfold Asks at *
  omega

-- The last pass may carry the position to 2^31 exactly, where it wraps; no
-- pass before it does, since bytes remain behind its end.
theorem diskstreamReadLoop_reads (dev : BlockDevice) (fuel pos total : Nat) (enough : total < fuel)
    (fits : pos+total ≤ 2147483648) (start : pos < 2147483648) : Reading dev pos total (diskstreamReadLoop dev fuel pos total) := by
  induction fuel generalizing pos total with
  | zero => exact False.elim (Nat.not_lt_zero _ enough)
  | succ fuel ih =>
    obtain ⟨within,inSector,progress⟩ := passCount_bounds pos total
    have full : passCount pos total < total → pos%512+passCount pos total = 512 := by
      unfold passCount
      omega
    have next := ih (pos+passCount pos total) (total-passCount pos total)
    have count := passCount_eq pos total
    generalize passCount pos total = now at *
    have sector : (pos : Int).tdiv nutsosSectorSize = ((pos/512 : Nat) : Int) := rfl
    have offset : (pos : Int).tmod nutsosSectorSize = ((pos%512 : Nat) : Int) := rfl
    have lba : toUint32 ((pos/512 : Nat) : Int) = pos/512 := toUint32_natCast (by omega)
    rw [diskstreamReadLoop]
    simp only [sector,offset,lba,count,diskReadBlock,Int.toNat_natCast]
    cases found : dev (pos/512) with
    | none => exact .hangs (.inl rfl) found
    | some block =>
      dsimp only
      rw [if_neg (by decide),pass_bytes found inSector,← Int.natCast_add,← Int.natCast_sub within]
      dsimp only
      by_cases more : now < total
      · have ended := full more
        have before : pos+now < 2147483648 := by omega
        have reading := next (by omega) (by omega) before
        rw [if_pos (by omega),toInt32_natCast before]
        have ends : pos+now+(total-now) = pos+total := by omega
        generalize diskstreamReadLoop dev fuel _ _ = rest at reading
        cases reading with
        | whole arrived =>
          dsimp only
          rw [slice_append,Nat.add_sub_cancel' within,ends]
          refine .whole (fun lba asked => ?_)
          by_cases first : lba = pos/512
          · rw [first,found]
            rfl
          · exact arrived lba (asked.split first ended more)
        | @hangs lba asked silent => exact .hangs (asked.later ended more) silent
      · have whole : now = total := by omega
        rw [if_neg (by omega),whole]
        refine .whole (fun lba asked => ?_)
        have first : lba = pos/512 := by
          unfold Asks at asked
          omega
        rw [first,found]
        rfl

theorem diskstreamRead_reads (dev : BlockDevice) (pos total : Nat) (fits : pos+total ≤ 2147483648) (start : pos < 2147483648) :
    Reading dev pos total (diskstreamRead dev ⟨pos⟩ total) :=
  diskstreamReadLoop_reads dev _ pos total (Nat.lt_succ_self _) fits start

theorem Reading.arrived (reading : Reading dev pos total result) (all : ∀ lba, Asks pos total lba → (dev lba).isSome) :
    result = .ok (eok,slice (bytesOf dev) pos total,⟨toInt32 ((pos+total : Nat) : Int)⟩) := by
  cases reading with
  | whole => rfl
  | hangs asked silent =>
    have present := all _ asked
    rw [silent] at present
    cases present

theorem Reading.silent (reading : Reading dev pos total result) (asked : Asks pos total lba) (none : dev lba = none) :
    result = .error .unbounded := by
  cases reading with
  | whole arrived =>
    have present := arrived lba asked
    rw [none] at present
    cases present
  | hangs => rfl

theorem diskstreamRead_image (image : Nat → UInt8) (pos total : Nat) (fits : pos+total ≤ 2147483648)
    (start : pos < 2147483648) :
    diskstreamRead (imageDevice image) ⟨pos⟩ total =
      .ok (0,slice image pos total,⟨toInt32 ((pos+total : Nat) : Int)⟩) := by
  have whole := (diskstreamRead_reads (imageDevice image) pos total fits start).arrived (fun _ _ => rfl)
  rw [bytesOf_image] at whole
  exact whole

def Delivers (dev : BlockDevice) (image : Nat → UInt8) (lba : Nat) : Prop :=
  ∃ sector, dev lba = some sector ∧ ∀ i < 512, sector i = image (lba*512+i)

theorem Delivers.byte (delivers : Delivers dev image (pos/512)) : bytesOf dev pos = image pos := by
  obtain ⟨sector,found,same⟩ := delivers
  unfold bytesOf
  rw [found]
  dsimp only
  rw [same (pos%512) (Nat.mod_lt _ (by decide)),Nat.div_add_mod']

theorem diskstream_read_exact (delivers : ∀ lba, Asks pos total lba → Delivers dev image lba) (fits : pos+total < 2147483648) :
    diskstreamRead dev ⟨(pos : Nat)⟩ (total : Nat) = .ok (eok,slice image pos total,⟨((pos+total : Nat) : Int)⟩) := by
  have whole := (diskstreamRead_reads dev pos total (Nat.le_of_lt fits) (by omega)).arrived (fun lba asked => by
    obtain ⟨sector,found,_⟩ := delivers lba asked
    rw [found]
    rfl)
  have bytes : slice (bytesOf dev) pos total = slice image pos total := by
    apply slice_congr
    intro i small
    exact (delivers ((pos+i)/512) (.inr ⟨by omega,by omega⟩)).byte
  rw [whole,bytes,toInt32_natCast fits]

theorem boundary_read : diskstreamRead (imageDevice UInt8.ofNat) ⟨510⟩ 4 = .ok (eok,[254,255,0,1],⟨514⟩) :=
  diskstream_read_exact (fun _ _ => ⟨_,rfl,fun _ _ => rfl⟩ : ∀ lba, Asks 510 4 lba → Delivers (imageDevice UInt8.ofNat) UInt8.ofNat lba)
    (by decide)

end DiskStreams
end NutsOS
