import Mathlib.Algebra.Group.Nat.Defs
import NutsOS.Lib.Prog

-- An ATA controller with two drives, driven through its registers: LBA28
-- addresses, programmed input of whole sectors. What the standard leaves
-- undefined is a misuse. Nothing here refers to a particular program.
namespace Ata

-- The bytes of a sector; an address without one cannot be read.
abbrev Media := Nat → Option (Nat → UInt8)

inductive Phase where
  | idle (failed : Bool)
  -- The drive fetches the sector; so many reads of the status find it busy.
  | busy (wait lba left : Nat)
  -- The words of the sector that the host has not taken yet.
  | ready (words : List (BitVec 16)) (lba left : Nat)

structure Controller where
  drives : Bool → Option Media
  -- How long each of the sectors to come takes.
  delays : Nat → Nat
  count : BitVec 8
  low : BitVec 8
  mid : BitVec 8
  high : BitVec 8
  device : BitVec 8
  phase : Phase

inductive Stop where
  | misuse
  | unbounded
  deriving DecidableEq

inductive Register where
  | count
  | low
  | mid
  | high
  | device
  deriving DecidableEq

abbrev Io := Prog Stop Controller

namespace Controller

-- Bit 4 of the device register.
def slave (c : Controller) : Bool := c.device.getLsbD 4

def address (c : Controller) : Nat := (c.device.extractLsb' 0 4 ++ c.high ++ c.mid ++ c.low).toNat

def sectors (c : Controller) : Nat := if c.count = 0#8 then 256 else c.count.toNat

def Idle (c : Controller) : Prop := ∃ failed, c.phase = .idle failed

def put (c : Controller) : Register → BitVec 8 → Controller
  | .count,value => {c with count := value}
  | .low,value => {c with low := value}
  | .mid,value => {c with mid := value}
  | .high,value => {c with high := value}
  | .device,value => {c with device := value}

-- The drive turns to a sector; the time it takes is used up.
def fetch (c : Controller) (lba left : Nat) : Controller :=
  {c with phase := .busy (c.delays 0) lba left, delays := fun n => c.delays (n+1)}

-- A sector is through, and the drive turns to the one after it.
def sent (c : Controller) (lba left : Nat) : Controller :=
  if left ≤ 1 then {c with phase := .idle false} else c.fetch (lba+1) (left-1)

def media (c : Controller) : Media := (c.drives c.slave).getD (fun _ => none)

end Controller

def statusBusy : BitVec 8 := 0x80#8
def statusIdle : BitVec 8 := 0x50#8
def statusError : BitVec 8 := 0x51#8
def statusData : BitVec 8 := 0x58#8

-- The words of a sector, its first byte in the low half of the first.
def sectorWords (sector : Nat → UInt8) : List (BitVec 16) :=
  (List.range 256).map (fun i => (sector (2*i+1)).toBitVec ++ (sector (2*i)).toBitVec)

-- The registers may be written while no command is running.
def setRegister (register : Register) (value : BitVec 8) : Io Unit := fun c =>
  match c.phase with
  | .idle _ => .ok ((),c.put register value)
  | _ => .error .misuse

-- READ SECTORS by address. A drive that is not there ignores it.
def command (value : BitVec 8) : Io Unit := fun c =>
  match c.phase with
  | .idle _ =>
    if value ≠ 0x20#8 ∨ c.device.getLsbD 6 = false then .error .misuse else
    match c.drives c.slave with
    | none => .ok ((),c)
    | some _ => .ok ((),c.fetch c.address c.sectors)
  | _ => .error .misuse

def status : Io (BitVec 8) := fun c =>
  match c.phase with
  | .idle failed => .ok (if c.drives c.slave = none then 0#8 else if failed then statusError else statusIdle,c)
  | .busy (wait+1) lba left => .ok (statusBusy,{c with phase := .busy wait lba left})
  | .busy 0 lba left =>
    match c.media lba with
    | none => .ok (statusError,{c with phase := .idle true})
    | some sector => .ok (statusData,{c with phase := .ready (sectorWords sector) lba left})
  | .ready _ _ _ => .ok (statusData,c)

-- The data register.
def dataWord : Io (BitVec 16) := fun c =>
  match c.phase with
  | .ready (word::next::words) lba left => .ok (word,{c with phase := .ready (next::words) lba left})
  | .ready [word] lba left => .ok (word,c.sent lba left)
  | _ => .error .misuse

-- The status read again and again until one of the bits of the mask is set.
def pollStatus (mask : BitVec 8) : Nat → Io (BitVec 8)
  | 0 => Prog.fault .unbounded
  | fuel+1 => do
    let value ← status
    if value &&& mask ≠ 0#8 then return value else pollStatus mask fuel

def dataWords : Nat → Io (List (BitVec 16))
  | 0 => return []
  | count+1 => do
    let word ← dataWord
    let rest ← dataWords count
    return word::rest

@[simp] theorem sectorWords_length (sector : Nat → UInt8) : (sectorWords sector).length = 256 := by simp [sectorWords]

@[simp] theorem sent_phase (c : Controller) (p : Phase) (lba left : Nat) :
    ({c with phase := p} : Controller).sent lba left = c.sent lba left := by
  unfold Controller.sent
  split <;> rfl

@[simp] theorem sent_drives (c : Controller) (lba left : Nat) : (c.sent lba left).drives = c.drives := by
  unfold Controller.sent
  split <;> rfl

@[simp] theorem sent_device (c : Controller) (lba left : Nat) : (c.sent lba left).device = c.device := by
  unfold Controller.sent
  split <;> rfl

theorem sent_last (c : Controller) (lba : Nat) : (c.sent lba 1).phase = .idle false := rfl

theorem sent_more (c : Controller) (lba : Nat) (more : 1 < left) : c.sent lba left = c.fetch (lba+1) (left-1) :=
  if_neg (Nat.not_le_of_lt more)

@[simp] theorem put_idle {c : Controller} : (c.put register value).Idle ↔ c.Idle := by
  cases register <;> exact Iff.rfl

theorem setRegister_run {c : Controller} (idle : c.Idle) (register : Register) (value : BitVec 8) :
    setRegister register value c = .ok ((),c.put register value) := by
  obtain ⟨failed,phase⟩ := idle
  unfold setRegister
  rw [phase]

theorem setRegister_bind {c : Controller} (idle : c.Idle) (register : Register) (value : BitVec 8) (k : Unit → Io α) :
    (setRegister register value >>= k) c = k () (c.put register value) := Prog.bind_run (setRegister_run idle register value)

-- No bit of the mask ever shows on an idle drive without data.
theorem poll_idle (idle : c.phase = .idle failed) (fuel : Nat) : pollStatus 8#8 fuel c = .error .unbounded := by
  induction fuel with
  | zero => rfl
  | succ fuel ih =>
    obtain ⟨value,seen,clear⟩ : ∃ value, status c = .ok (value,c) ∧ value &&& 8#8 = 0#8 := by
      unfold status
      rw [idle]
      refine ⟨_,rfl,?_⟩
      split
      · rfl
      · split <;> rfl
    rw [pollStatus,Prog.bind_run seen,if_neg (fun set => set clear),ih]

theorem poll_busy (busy : c.phase = .busy wait lba left) (fuel : Nat) (enough : wait < fuel) (found : c.media lba = some sector) :
    pollStatus 8#8 fuel c = .ok (statusData,{c with phase := .ready (sectorWords sector) lba left}) := by
  induction fuel generalizing c wait with
  | zero => exact absurd enough (Nat.not_lt_zero _)
  | succ fuel ih =>
    cases wait with
    | zero =>
      have seen : status c = .ok (statusData,{c with phase := .ready (sectorWords sector) lba left}) := by
        unfold status
        rw [busy]
        dsimp only
        rw [found]
      rw [pollStatus,Prog.bind_run seen,if_pos (by decide)]
      rfl
    | succ wait =>
      have seen : status c = .ok (statusBusy,{c with phase := .busy wait lba left}) := by
        unfold status
        rw [busy]
      rw [pollStatus,Prog.bind_run seen,if_neg (by decide)]
      exact ih rfl (Nat.lt_of_succ_lt_succ enough) found

theorem poll_silent (busy : c.phase = .busy wait lba left) (fuel : Nat) (silent : c.media lba = none) :
    pollStatus 8#8 fuel c = .error .unbounded := by
  induction fuel generalizing c wait with
  | zero => rfl
  | succ fuel ih =>
    cases wait with
    | zero =>
      have seen : status c = .ok (statusError,{c with phase := .idle true}) := by
        unfold status
        rw [busy]
        dsimp only
        rw [silent]
      rw [pollStatus,Prog.bind_run seen,if_neg (by decide)]
      exact poll_idle rfl fuel
    | succ wait =>
      have seen : status c = .ok (statusBusy,{c with phase := .busy wait lba left}) := by
        unfold status
        rw [busy]
      rw [pollStatus,Prog.bind_run seen,if_neg (by decide)]
      exact ih rfl silent

theorem poll_short (busy : c.phase = .busy wait lba left) (fuel : Nat) (short : fuel ≤ wait) :
    pollStatus 8#8 fuel c = .error .unbounded := by
  induction fuel generalizing c wait with
  | zero => rfl
  | succ fuel ih =>
    cases wait with
    | zero => exact absurd short (Nat.not_succ_le_zero _)
    | succ wait =>
      have seen : status c = .ok (statusBusy,{c with phase := .busy wait lba left}) := by
        unfold status
        rw [busy]
      rw [pollStatus,Prog.bind_run seen,if_neg (by decide)]
      exact ih rfl (Nat.le_of_succ_le_succ short)

theorem dataWord_more (ready : c.phase = .ready (word::next::words) lba left) :
    dataWord c = .ok (word,{c with phase := .ready (next::words) lba left}) := by
  unfold dataWord
  rw [ready]

theorem dataWord_last (ready : c.phase = .ready [word] lba left) : dataWord c = .ok (word,c.sent lba left) := by
  unfold dataWord
  rw [ready]

theorem dataWords_run (ready : c.phase = .ready words lba left) (some : words ≠ []) :
    dataWords words.length c = .ok (words,c.sent lba left) := by
  induction words generalizing c with
  | nil => exact absurd rfl some
  | cons word words ih =>
    cases words with
    | nil =>
      rw [List.length_cons,dataWords,Prog.bind_run (dataWord_last ready)]
      rfl
    | cons next words =>
      rw [List.length_cons,dataWords,Prog.bind_run (dataWord_more ready),Prog.bind_run (ih rfl (by simp)),sent_phase]
      rfl

-- The registers hold the address, with LBA mode and the drive above it.
structure Addressed (c : Controller) (x : BitVec 32) : Prop where
  low : c.low = x.extractLsb' 0 8
  mid : c.mid = x.extractLsb' 8 8
  high : c.high = x.extractLsb' 16 8
  device : c.device = x.extractLsb' 24 8 ||| 0xE0#8

theorem Addressed.address (addressed : Addressed c x) : c.address = x.toNat%2^28 := by
  have nibble : (x.extractLsb' 24 8 ||| 0xE0#8).extractLsb' 0 4 = x.extractLsb' 24 4 := by
    apply BitVec.eq_of_getLsbD_eq
    intro i small
    have bit : i = 0 ∨ i = 1 ∨ i = 2 ∨ i = 3 := by omega
    rcases bit with rfl | rfl | rfl | rfl <;> simp
  unfold Controller.address
  rw [addressed.low,addressed.mid,addressed.high,addressed.device,nibble]
  simp only [BitVec.extractLsb'_append_extractLsb'_eq_extractLsb',BitVec.extractLsb'_toNat,Nat.shiftRight_zero]

theorem Addressed.slave (addressed : Addressed c x) : c.slave = x.getLsbD 28 := by
  unfold Controller.slave
  rw [addressed.device]
  simp

theorem Addressed.byAddress (addressed : Addressed c x) : c.device.getLsbD 6 = true := by
  rw [addressed.device]
  simp

theorem command_run (addressed : Addressed c x) (idle : c.phase = .idle failed) (present : (c.drives (x.getLsbD 28)).isSome) :
    command 0x20#8 c = .ok ((),c.fetch (x.toNat%2^28) c.sectors) := by
  obtain ⟨media,found⟩ := Option.isSome_iff_exists.mp present
  unfold command
  rw [idle]
  dsimp only
  rw [if_neg (by rw [addressed.byAddress]; decide),addressed.slave,found,addressed.address]

theorem command_absent (addressed : Addressed c x) (idle : c.phase = .idle failed) (absent : c.drives (x.getLsbD 28) = none) :
    command 0x20#8 c = .ok ((),c) := by
  unfold command
  rw [idle]
  dsimp only
  rw [if_neg (by rw [addressed.byAddress]; decide),addressed.slave,absent]

end Ata
