import NutsOS.Lib.Ata
import NutsOS.Disk.Stream
import Mathlib.Tactic.IntervalCases

-- disk.c over the ports of io.asm: sectors through the ATA controller.
namespace NutsOS.AtaDisk
open Ata DiskStreams Word32 Bytes

def outb (port : Nat) (val : BitVec 8) : Io Unit :=
  match port with
  | 0x1F2 => setRegister .count val
  | 0x1F3 => setRegister .low val
  | 0x1F4 => setRegister .mid val
  | 0x1F5 => setRegister .high val
  | 0x1F6 => setRegister .device val
  | 0x1F7 => command val
  | _ => Prog.fault .misuse

-- *ptr = insw(0x1F0) and ptr++: the low byte first.
def wordBytes (words : List (BitVec 16)) : List UInt8 :=
  words.flatMap (fun word => [⟨word.extractLsb' 0 8⟩,⟨word.extractLsb' 8 8⟩])

-- One pass of the outer loop for each sector.
def readSectors (fuel : Nat) : Nat → Io (List (BitVec 16))
  | 0 => return []
  | count+1 => do
    let _ ← pollStatus 0x08#8 fuel
    let words ← dataWords 256
    let rest ← readSectors fuel count
    return words++rest

-- The result and the bytes stored from buf on.
def diskReadSector (fuel : Nat) (lba total : BitVec 32) : Io (Int × List UInt8) := do
  outb 0x1F6 ((lba.sshiftRight 24 ||| 0xE0#32).setWidth 8)
  outb 0x1F2 (total.setWidth 8)
  outb 0x1F3 ((lba &&& 0xFF#32).setWidth 8)
  outb 0x1F4 ((lba.sshiftRight 8).setWidth 8)
  outb 0x1F5 ((lba.sshiftRight 16).setWidth 8)
  outb 0x1F7 0x20#8
  let words ← readSectors fuel total.toInt.toNat
  return (0,wordBytes words)

-- What the two drives look like through a 32-bit sector number: bit 28 selects
-- the drive, and the bits above it are lost.
def portMedia (drives : Bool → Option Media) (lba : BitVec 32) : Media := (drives (lba.getLsbD 28)).getD (fun _ => none)

def portDevice (drives : Bool → Option Media) : BlockDevice := fun lba =>
  portMedia drives (BitVec.ofNat 32 lba) (lba%2^28)

theorem wordBytes_append (one two : List (BitVec 16)) : wordBytes (one++two) = wordBytes one++wordBytes two := List.flatMap_append

theorem wordBytes_sector (sector : Nat → UInt8) : wordBytes (sectorWords sector) = slice sector 0 512 := by
  have prefixes : ∀ n, wordBytes ((List.range n).map (fun i => (sector (2*i+1)).toBitVec ++ (sector (2*i)).toBitVec)) =
      slice sector 0 (2*n) := by
    intro n
    induction n with
    | zero => rfl
    | succ n ih =>
      have low : ((sector (2*n+1)).toBitVec ++ (sector (2*n)).toBitVec).extractLsb' 0 8 = (sector (2*n)).toBitVec :=
        BitVec.extractLsb'_append_eq_right
      have high : ((sector (2*n+1)).toBitVec ++ (sector (2*n)).toBitVec).extractLsb' 8 8 = (sector (2*n+1)).toBitVec :=
        BitVec.extractLsb'_append_eq_left
      rw [List.range_succ,List.map_append,wordBytes_append,ih,Nat.mul_succ,← slice_append,Nat.zero_add]
      congr 1
      simp only [List.map_cons,List.map_nil,wordBytes,List.flatMap_cons,List.flatMap_nil,low,high]
      rfl
  exact prefixes 256

theorem low_byte (x : BitVec 32) (s : Nat) (narrow : s ≤ 24) : (x.sshiftRight s).setWidth 8 = x.extractLsb' s 8 := by
  apply BitVec.eq_of_getLsbD_eq
  intro i small
  have bit : s+i < 32 ∧ ¬ 32 ≤ i := by omega
  simp [BitVec.getLsbD_sshiftRight,small,bit]

-- The controller with its registers as the function leaves them.
def programmed (c : Controller) (lba total : BitVec 32) : Controller :=
  {c with
    device := (lba.sshiftRight 24 ||| 0xE0#32).setWidth 8, count := total.setWidth 8, low := (lba &&& 0xFF#32).setWidth 8,
    mid := (lba.sshiftRight 8).setWidth 8, high := (lba.sshiftRight 16).setWidth 8}

theorem programmed_addressed (c : Controller) (lba total : BitVec 32) : Addressed (programmed c lba total) lba := by
  refine ⟨?_,low_byte lba 8 (by decide),low_byte lba 16 (by decide),?_⟩
  · apply BitVec.eq_of_getLsbD_eq
    intro i small
    have bits : i < 32 := by omega
    interval_cases i <;> simp [programmed]
  · show (lba.sshiftRight 24 ||| 0xE0#32).setWidth 8 = _
    rw [BitVec.setWidth_or,low_byte lba 24 (by decide)]
    rfl

theorem media_sent (c : Controller) (lba left : Nat) : (c.sent lba left).media = c.media := by
  unfold Controller.media Controller.slave
  rw [sent_drives,sent_device]

theorem sector_slice (media : Media) (found : media lba = some sector) : slice sector 0 512 = slice (bytesOf media) (lba*512) 512 := by
  apply slice_congr
  intro i small
  have block : (lba*512+i)/512 = lba := by omega
  have offset : (lba*512+i)%512 = i := by omega
  unfold bytesOf
  rw [block,offset,found,Nat.zero_add]

theorem pass_run (busy : c.phase = .busy wait lba left) (enough : wait < fuel) (found : c.media lba = some sector) (count : Nat) :
    readSectors fuel (count+1) c =
      (readSectors fuel count >>= fun rest => pure (sectorWords sector++rest)) (c.sent lba left) := by
  have words := dataWords_run (c := {c with phase := .ready (sectorWords sector) lba left}) rfl
    (List.ne_nil_of_length_pos (by rw [sectorWords_length]; decide))
  rw [sectorWords_length,sent_phase] at words
  rw [readSectors,Prog.bind_run (poll_busy busy fuel enough found),Prog.bind_run words]

theorem readSectors_run (busy : c.phase = .busy wait lba left) (within : count+1 ≤ left)
    (found : ∀ i < count+1, (c.media (lba+i)).isSome) (first : wait < fuel) (later : ∀ k < count, c.delays k < fuel) :
    ∃ words after, readSectors fuel (count+1) c = .ok (words,after) ∧
      wordBytes words = slice (bytesOf c.media) (lba*512) ((count+1)*512) ∧
      after.drives = c.drives ∧ (count+1 = left → after.phase = .idle false ∧ after.delays = fun k => c.delays (k+count)) := by
  induction count generalizing c wait lba left with
  | zero =>
    obtain ⟨sector,present⟩ := Option.isSome_iff_exists.mp (found 0 Nat.zero_lt_one)
    rw [Nat.add_zero] at present
    refine ⟨sectorWords sector++[],c.sent lba left,?_,?_,sent_drives c lba left,?_⟩
    · rw [pass_run busy first present]
      rfl
    · rw [List.append_nil,wordBytes_sector,sector_slice c.media present,Nat.zero_add,Nat.one_mul]
    · intro last
      rw [← last]
      exact ⟨sent_last c lba,rfl⟩
  | succ count ih =>
    obtain ⟨sector,present⟩ := Option.isSome_iff_exists.mp (found 0 (Nat.succ_pos _))
    rw [Nat.add_zero] at present
    have turned : c.sent lba left = c.fetch (lba+1) (left-1) := sent_more c lba (by omega)
    have media := media_sent c lba left
    rw [turned] at media
    obtain ⟨words,after,ran,bytes,drives,idle⟩ := ih (c := c.fetch (lba+1) (left-1)) rfl (by omega)
      (fun i small => by rw [media,Nat.add_assoc,Nat.add_comm 1]; exact found (i+1) (Nat.succ_lt_succ small))
      (later 0 (Nat.succ_pos _)) (fun k small => later (k+1) (Nat.succ_lt_succ small))
    refine ⟨sectorWords sector++words,after,?_,?_,drives,fun last => idle (by omega)⟩
    · rw [pass_run busy first present,turned,Prog.bind_run ran]
      rfl
    · rw [wordBytes_append,wordBytes_sector,bytes,media,sector_slice c.media present,Nat.succ_mul lba,slice_append,
        Nat.succ_mul (count+1),Nat.add_comm 512]

theorem readSectors_never (busy : c.phase = .busy wait lba left) (some : 0 < left) (missing : i < count)
    (silent : left ≤ i ∨ c.media (lba+i) = none) : readSectors fuel count c = .error .unbounded := by
  induction count generalizing c wait lba left i with
  | zero => exact absurd missing (Nat.not_lt_zero _)
  | succ count ih =>
    cases present : c.media lba with
    | none => rw [readSectors,Prog.bind_fault (poll_silent busy fuel present)]
    | some sector =>
      by_cases enough : wait < fuel
      · have later : i ≠ 0 := by
          rintro rfl
          rcases silent with none | none
          · omega
          · rw [Nat.add_zero,present] at none
            cases none
        obtain ⟨i,rfl⟩ := Nat.exists_eq_succ_of_ne_zero later
        have stuck : readSectors fuel count (c.sent lba left) = .error .unbounded := by
          by_cases more : 1 < left
          · have media := media_sent c lba left
            rw [sent_more c lba more] at media ⊢
            refine ih (c := c.fetch (lba+1) (left-1)) rfl (by omega) (Nat.lt_of_succ_lt_succ missing) ?_
            rw [media,Nat.add_assoc,Nat.add_comm 1]
            exact silent.imp (fun short => by omega) id
          · have one : left = 1 := by omega
            obtain ⟨count,rfl⟩ := Nat.exists_eq_succ_of_ne_zero (show count ≠ 0 by omega)
            rw [one,readSectors,Prog.bind_fault (poll_idle (sent_last c lba) fuel)]
        rw [pass_run busy enough present,Prog.bind_fault stuck]
      · rw [readSectors,Prog.bind_fault (poll_short busy fuel (Nat.le_of_not_lt enough))]

def started (c : Controller) (lba total : BitVec 32) : Controller :=
  if (c.drives (lba.getLsbD 28)).isSome then
    (programmed c lba total).fetch (lba.toNat%2^28) (programmed c lba total).sectors
  else programmed c lba total

theorem diskReadSector_starts (idle : c.phase = .idle failed) (fuel : Nat) (lba total : BitVec 32) :
    diskReadSector fuel lba total c =
      (readSectors fuel total.toInt.toNat >>= fun words => pure (0,wordBytes words)) (started c lba total) := by
  have ready : c.Idle := ⟨failed,idle⟩
  have addressed := programmed_addressed c lba total
  have commanded : command 0x20#8 (programmed c lba total) = .ok ((),started c lba total) := by
    unfold started
    split
    · next present => exact command_run addressed idle present
    · next absent =>
      have none : c.drives (lba.getLsbD 28) = none := Option.not_isSome_iff_eq_none.mp absent
      exact command_absent addressed idle none
  unfold diskReadSector
  simp only [outb,setRegister_bind,put_idle,ready]
  exact Prog.bind_run commanded

theorem programmed_sectors (c : Controller) (lba : BitVec 32) (low : 0 < total.toInt) :
    0 < (programmed c lba total).sectors ∧ (programmed c lba total).sectors ≤ total.toInt.toNat ∧
      (total.toInt.toNat ≤ 256 → (programmed c lba total).sectors = total.toInt.toNat) ∧ (programmed c lba total).sectors ≤ 256 := by
  have count : (programmed c lba total).count = total.setWidth 8 := rfl
  unfold Controller.sectors
  rw [count]
  split
  · next zero =>
    have value : total.toNat%256 = 0 := congrArg BitVec.toNat zero
    rw [BitVec.toInt_eq_toNat_cond] at low ⊢
    split at low <;> omega
  · next nonzero =>
    have value : total.toNat%256 ≠ 0 := fun zero => nonzero (BitVec.eq_of_toNat_eq zero)
    rw [BitVec.toNat_setWidth]
    rw [BitVec.toInt_eq_toNat_cond] at low ⊢
    split at low <;> omega

-- What the request needs of the drive: the count fits its register, and every
-- sector can be read.
def Readable (drives : Bool → Option Media) (lba total : BitVec 32) : Prop :=
  total.toInt ≤ 256 ∧ ∀ i < total.toInt.toNat, (portMedia drives lba (lba.toNat%2^28+i)).isSome

theorem programmed_media (c : Controller) (lba total : BitVec 32) :
    (programmed c lba total).media = portMedia c.drives lba := by
  unfold Controller.media portMedia
  rw [(programmed_addressed c lba total).slave]
  rfl

theorem fetch_media (c : Controller) (lba left : Nat) : (c.fetch lba left).media = c.media := rfl

theorem started_present (present : (c.drives (lba.getLsbD 28)).isSome) :
    started c lba total = (programmed c lba total).fetch (lba.toNat%2^28) (programmed c lba total).sectors := if_pos present

theorem started_absent (absent : ¬ (c.drives (lba.getLsbD 28)).isSome) : started c lba total = programmed c lba total := if_neg absent

theorem read_delivers (idle : c.Idle) (some : 0 < total.toInt) (readable : Readable c.drives lba total) (fuel : Nat)
    (enough : ∀ k < total.toInt.toNat, c.delays k < fuel) :
    ∃ after, diskReadSector fuel lba total c =
        .ok ((0,slice (bytesOf (portMedia c.drives lba)) (lba.toNat%2^28*512) (total.toInt.toNat*512)),after) ∧
      after.Idle ∧ after.drives = c.drives ∧ after.delays = fun k => c.delays (k+total.toInt.toNat) := by
  obtain ⟨failed,phase⟩ := idle
  obtain ⟨bounded,found⟩ := readable
  obtain ⟨_,_,exact,_⟩ := programmed_sectors c lba some
  have sectors := exact (by omega)
  obtain ⟨count,counted⟩ := Nat.exists_eq_succ_of_ne_zero (show total.toInt.toNat ≠ 0 by omega)
  have present : (c.drives (lba.getLsbD 28)).isSome := by
    have first := found 0 (by omega)
    unfold portMedia at first
    cases drive : c.drives (lba.getLsbD 28) with
    | none => rw [drive] at first; cases first
    | some media => rfl
  have media := programmed_media c lba total
  rw [diskReadSector_starts phase,started_present present,sectors,counted]
  rw [counted] at found enough
  have busy : ((programmed c lba total).fetch (lba.toNat%2^28) count.succ).phase = .busy (c.delays 0) (lba.toNat%2^28) (count+1) := rfl
  obtain ⟨words,after,ran,bytes,drives,ended⟩ := readSectors_run busy (Nat.le_refl _)
    (by rw [fetch_media,media]; exact found) (enough 0 (Nat.succ_pos _)) (fun k small => enough (k+1) (Nat.succ_lt_succ small))
  obtain ⟨idle,delays⟩ := ended rfl
  rw [fetch_media,media] at bytes
  refine ⟨after,?_,⟨false,idle⟩,drives,delays⟩
  rw [Prog.bind_run ran,bytes]
  rfl

theorem read_hangs (idle : c.Idle) (some : 0 < total.toInt) (unreadable : ¬ Readable c.drives lba total) (fuel : Nat) :
    diskReadSector fuel lba total c = .error .unbounded := by
  obtain ⟨failed,phase⟩ := idle
  obtain ⟨positive,within,_,small⟩ := programmed_sectors c lba some
  have media := programmed_media c lba total
  rw [diskReadSector_starts phase]
  apply Prog.bind_fault
  by_cases present : (c.drives (lba.getLsbD 28)).isSome
  · rw [started_present present]
    by_cases bounded : total.toInt ≤ 256
    · have missing : ∃ i < total.toInt.toNat, portMedia c.drives lba (lba.toNat%2^28+i) = none := by
        by_contra all
        refine unreadable ⟨bounded,fun i inside => Option.isSome_iff_ne_none.mpr (fun none => all ⟨i,inside,none⟩)⟩
      obtain ⟨i,inside,silent⟩ := missing
      exact readSectors_never rfl positive inside (.inr (by rw [fetch_media,media]; exact silent))
    · exact readSectors_never rfl positive (i := (programmed c lba total).sectors) (by omega) (.inl (Nat.le_refl _))
  · rw [started_absent present]
    obtain ⟨count,counted⟩ := Nat.exists_eq_succ_of_ne_zero (show total.toInt.toNat ≠ 0 by omega)
    rw [counted,readSectors,Prog.bind_fault (poll_idle (show (programmed c lba total).phase = .idle failed from phase) fuel)]

theorem disk_read_sector_exact (idle : c.Idle) (some : 0 < total.toInt) :
    (Readable c.drives lba total → ∀ fuel, (∀ k < total.toInt.toNat, c.delays k < fuel) →
      ∃ after, diskReadSector fuel lba total c =
        .ok ((0,slice (bytesOf (portMedia c.drives lba)) (lba.toNat%2^28*512) (total.toInt.toNat*512)),after) ∧
        after.Idle ∧ after.drives = c.drives) ∧
    (¬ Readable c.drives lba total → ∀ fuel, diskReadSector fuel lba total c = .error .unbounded) := by
  refine ⟨fun readable fuel enough => ?_,fun unreadable fuel => read_hangs idle some unreadable fuel⟩
  obtain ⟨after,ran,ready,drives,_⟩ := read_delivers idle some readable fuel enough
  exact ⟨after,ran,ready,drives⟩

-- A disk of two sectors, each of which takes its time.
def sampleDrive : Media := fun lba => if lba < 2 then some (fun i => UInt8.ofNat (lba+i)) else none

def sampleController : Controller := ⟨fun slave => if slave then none else some sampleDrive,fun n => n+2,0#8,0#8,0#8,0#8,0#8,.idle false⟩

theorem sample_read : ∃ after, diskReadSector 4 0#32 2#32 sampleController =
    .ok ((0,slice (bytesOf (portMedia sampleController.drives 0#32)) 0 1024),after) ∧ after.Idle ∧
      after.drives = sampleController.drives := by
  have two : (2#32 : BitVec 32).toInt.toNat = 2 := by decide
  have idle : sampleController.Idle := ⟨false,rfl⟩
  have readable : Readable sampleController.drives 0#32 2#32 := by
    refine ⟨by decide,fun i small => ?_⟩
    have cases : i = 0 ∨ i = 1 := by omega
    rcases cases with rfl | rfl <;> rfl
  refine (disk_read_sector_exact idle (by decide)).1 readable 4 (fun k small => ?_)
  show k+2 < 4
  omega

end NutsOS.AtaDisk
