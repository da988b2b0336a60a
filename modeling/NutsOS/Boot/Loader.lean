import NutsOS.Lib.X86
import NutsOS.Disk.Ata

-- boot.asm: the loader that brings the kernel from the disk to 1 MB. The
-- flags that the arithmetic sets are not looked at again.
namespace NutsOS.Boot
open Ram X86 Ata AtaDisk DiskStreams

structure Machine where
  cpu : Cpu
  drive : Controller

abbrev BootProg := Prog Stop Machine

def onCpu (f : Cpu → Cpu) : BootProg Unit := Prog.modify (fun m => {m with cpu := f m.cpu})

def onDrive (x : Io α) : BootProg α := Prog.focus Machine.drive (fun m c => {m with drive := c}) x

def setEax (c : Cpu) (value : Word) : Cpu := {c with eax := value}

def setEbx (c : Cpu) (value : Word) : Cpu := {c with ebx := value}

def setEcx (c : Cpu) (value : Word) : Cpu := {c with ecx := value}

def setEdi (c : Cpu) (value : Word) : Cpu := {c with edi := value}

def setAl (c : Cpu) (al : BitVec 8) : Cpu := {c with eax := c.eax.extractLsb' 8 24 ++ al}

def setDx (c : Cpu) (dx : BitVec 16) : Cpu := {c with edx := c.edx.extractLsb' 16 16 ++ dx}

-- mov dx,port and out dx,al
def outAl (port : BitVec 16) : BootProg Unit := do
  onCpu (fun c => setDx c port)
  let m ← Prog.get
  onDrive (outb port.toNat (m.cpu.eax.setWidth 8))

def sendRequest : BootProg Unit := do
  onCpu (fun c => setEbx c c.eax)
  onCpu (fun c => setEax c (c.eax >>> 24))
  onCpu (fun c => setEax c (c.eax ||| 0xE0#32))
  outAl 0x1F6#16
  onCpu (fun c => setEax c c.ecx)
  outAl 0x1F2#16
  onCpu (fun c => setEax c c.ebx)
  outAl 0x1F3#16
  onCpu (fun c => setEax c c.ebx)
  onCpu (fun c => setEax c (c.eax >>> 8))
  outAl 0x1F4#16
  onCpu (fun c => setEax c c.ebx)
  onCpu (fun c => setEax c (c.eax >>> 16))
  outAl 0x1F5#16
  onCpu (fun c => setAl c 0x20#8)
  outAl 0x1F7#16

def backward (c : Cpu) : Bool := c.eflags.getLsbD 10

def insw : BootProg Unit := do
  let word ← onDrive dataWord
  onCpu (fun c => {c with mem := write16 c.mem c.edi word, edi := if backward c then c.edi-2#32 else c.edi+2#32})

def repInsw : Nat → BootProg Unit
  | 0 => return
  | count+1 => do
    insw
    onCpu (fun c => setEcx c (c.ecx-1#32))
    repInsw count

def popEcx (c : Cpu) : Cpu := {c with ecx := c.top, esp := c.esp+4#32}

def rep : BootProg Unit := fun m => repInsw m.cpu.ecx.toNat m

-- .try_again, with the counter put aside.
def tryAgain (poll : Nat) : BootProg Unit := do
  onCpu (fun c => c.push c.ecx)
  onCpu (fun c => setDx c 0x1F7#16)
  let al ← onDrive (pollStatus 8#8 poll)
  onCpu (fun c => setAl c al)

def takeSector : BootProg Unit := do
  onCpu (fun c => setEcx c 256#32)
  onCpu (fun c => setDx c 0x1F0#16)
  rep
  onCpu popEcx

def nextSector (poll : Nat) : Nat → BootProg Unit
  | 0 => Prog.fault .unbounded
  | fuel+1 => do
    tryAgain poll
    takeSector
    onCpu (fun c => setEcx c (c.ecx-1#32))
    let m ← Prog.get
    if m.cpu.ecx ≠ 0#32 then nextSector poll fuel else return

def ataLbaRead (poll : Nat) : BootProg Unit := do
  sendRequest
  let m ← Prog.get
  nextSector poll (if m.cpu.ecx = 0#32 then 2^32 else m.cpu.ecx.toNat)
  onCpu Cpu.ret

def codeSeg : Selector := 0x08#16

-- jmp CODE_SEG:0x00100000
def jumpKernel (c : Cpu) : Cpu := {c with cs := codeSeg, eip := 0x00100000#32}

-- The call pushes the address of the jump behind it.
def load32 (poll : Nat) (jump : Word) : BootProg Unit := do
  onCpu (fun c => setEax c 1#32)
  onCpu (fun c => setEcx c 100#32)
  onCpu (fun c => setEdi c 0x00100000#32)
  onCpu (fun c => c.callTo jump)
  ataLbaRead poll
  onCpu jumpKernel

-- The words in front of the data register are the bytes from a place on.
def Words (byte : Nat → BitVec 8) : Nat → List (BitVec 16) → Prop
  | _,[] => True
  | count,word::words => byte (count+1)++byte count = word ∧ Words byte (count+2) words

theorem sector_words (same : ∀ i < 512, byte (count+i) = (sector i).toBitVec) : Words byte count (sectorWords sector) := by
  have tail : ∀ n s, s+n ≤ 256 → Words byte (count+2*s)
      ((List.range' s n).map (fun i => (sector (2*i+1)).toBitVec ++ (sector (2*i)).toBitVec)) := by
    intro n
    induction n with
    | zero =>
      intro s inside
      trivial
    | succ n ih =>
      intro s inside
      refine ⟨?_,ih (s+1) (by omega)⟩
      rw [same (2*s) (by omega),Nat.add_assoc,same (2*s+1) (by omega)]
  unfold sectorWords
  rw [List.range_eq_range']
  exact tail 256 0 (by decide)

-- Memory as it was, with bytes from the destination on, and the four bytes of
-- a stack slot aside.
def Covers (mem base : Memory) (slot a : Word) (count : Nat) (byte : Nat → BitVec 8) : Prop :=
  ∀ x, Apart slot 4 x 1 → mem x = overlay base a count byte x

theorem Covers.push {c : Cpu} (covers : Covers c.mem base slot a count byte) (top : c.esp-4#32 = slot) (value : Word) :
    Covers (c.push value).mem base slot a count byte := by
  intro x apart
  refine Eq.trans (write_other ?_ c.mem value) (covers x apart)
  rw [top]
  exact apart

theorem Covers.sector (covers : Covers mem base slot a count byte) (room : count+more ≤ 4294967296) :
    Covers (overlay mem (a+BitVec.ofNat 32 count) more (fun i => byte (count+i))) base slot a (count+more) byte := by
  intro x apart
  rw [← overlay_append room base a byte]
  exact overlay_congr (covers x apart) _ _ _

theorem onCpu_bind (f : Cpu → Cpu) (k : Unit → BootProg α) (cpu : Cpu) (drive : Controller) :
    (onCpu f >>= k) ⟨cpu,drive⟩ = k () ⟨f cpu,drive⟩ := rfl

theorem onDrive_bind {x : Io α} (ran : x drive = .ok (a,after)) (k : α → BootProg β) (cpu : Cpu) :
    (onDrive x >>= k) ⟨cpu,drive⟩ = k a ⟨cpu,after⟩ := by
  have focused : onDrive x ⟨cpu,drive⟩ = .ok (a,⟨cpu,after⟩) := Prog.focus_run ran
  exact Prog.bind_run focused

theorem rep_bind (count : cpu.ecx.toNat = n) (k : Unit → BootProg α) (drive : Controller) :
    (rep >>= k) ⟨cpu,drive⟩ = (repInsw n >>= k) ⟨cpu,drive⟩ := by
  rw [← count]
  rfl

theorem insw_run (taken : dataWord drive = .ok (word,after)) (forward : backward cpu = false) :
    insw ⟨cpu,drive⟩ = .ok ((),⟨{cpu with mem := write16 cpu.mem cpu.edi word, edi := cpu.edi+2#32},after⟩) := by
  have added : (if backward cpu then cpu.edi-2#32 else cpu.edi+2#32) = cpu.edi+2#32 := if_neg (by rw [forward]; decide)
  rw [← added]
  exact onDrive_bind taken (fun word => onCpu (fun c => {c with
    mem := write16 c.mem c.edi word, edi := if backward c then c.edi-2#32 else c.edi+2#32})) cpu

theorem repInsw_run (ready : drive.phase = .ready words lba left) (some : words ≠ []) (values : Words byte count words)
    (edi : cpu.edi = a+BitVec.ofNat 32 count) (forward : backward cpu = false) (room : count+2*words.length ≤ 4294967296)
    (laid : cpu.mem = overlay base a count byte) :
    ∃ ecx, repInsw words.length ⟨cpu,drive⟩ = .ok ((),⟨{cpu with
      edi := a+BitVec.ofNat 32 (count+2*words.length), ecx := ecx, mem := overlay base a (count+2*words.length) byte},
      drive.sent lba left⟩) := by
  induction words generalizing cpu drive count with
  | nil => exact absurd rfl some
  | cons word words ih =>
    obtain ⟨value,rest⟩ := values
    rw [List.length_cons] at room ⊢
    have further : cpu.edi+2#32 = a+BitVec.ofNat 32 (count+2) := by
      rw [edi,BitVec.add_assoc,BitVec.ofNat_add]
    have written : write16 cpu.mem cpu.edi word = overlay base a (count+2) byte := by
      rw [laid,edi,write16_overlay (by omega) base a byte value]
    have length : count+2*(words.length+1) = count+2+2*words.length := by omega
    rw [length] at room ⊢
    rw [repInsw]
    cases words with
    | nil =>
      rw [Prog.bind_run (insw_run (dataWord_last ready) forward),onCpu_bind,further,written]
      exact ⟨_,rfl⟩
    | cons next words =>
      rw [Prog.bind_run (insw_run (dataWord_more ready) forward),onCpu_bind,further,written]
      have turned : ({drive with phase := .ready (next::words) lba left} : Controller).phase = .ready (next::words) lba left := rfl
      have step := @ih _ {cpu with
        mem := overlay base a (count+2) byte, edi := a+BitVec.ofNat 32 (count+2), ecx := cpu.ecx-1#32} _ turned
        (List.cons_ne_nil _ _) rest rfl forward room rfl
      rw [sent_phase] at step
      exact step

theorem tryAgain_run (busy : drive.phase = .busy wait lba left) (enough : wait < poll) (found : drive.media lba = some sector) (cpu : Cpu) :
    tryAgain poll ⟨cpu,drive⟩ = .ok ((),⟨setAl (setDx (cpu.push cpu.ecx) 0x1F7#16) statusData,
      {drive with phase := .ready (sectorWords sector) lba left}⟩) := by
  unfold tryAgain
  rw [onCpu_bind,onCpu_bind,onDrive_bind (poll_busy busy poll enough found)]
  rfl

structure Taken (before : Cpu) (byte : Nat → BitVec 8) (after : Cpu) : Prop where
  ecx : after.ecx = read (overlay before.mem before.edi 512 byte) before.esp
  edi : after.edi = before.edi+512#32
  esp : after.esp = before.esp+4#32
  eflags : after.eflags = before.eflags
  mem : after.mem = overlay before.mem before.edi 512 byte

theorem takeSector_run (ready : drive.phase = .ready (sectorWords sector) lba left) (forward : backward cpu = false) :
    ∃ after, Taken cpu (fun i => (sector i).toBitVec) after ∧ takeSector ⟨cpu,drive⟩ = .ok ((),⟨after,drive.sent lba left⟩) := by
  have words : Words (fun i => (sector i).toBitVec) 0 (sectorWords sector) :=
    sector_words (fun i _ => by rw [Nat.zero_add])
  have some : sectorWords sector ≠ [] := List.ne_nil_of_length_pos (by rw [sectorWords_length]; decide)
  have room : 0+2*(sectorWords sector).length ≤ 4294967296 := by rw [sectorWords_length]; decide
  have count : (setDx (setEcx cpu 256#32) 0x1F0#16).ecx.toNat = 256 := rfl
  have start : (setDx (setEcx cpu 256#32) 0x1F0#16).edi = cpu.edi+BitVec.ofNat 32 0 := (BitVec.add_zero cpu.edi).symm
  obtain ⟨ecx,ran⟩ := repInsw_run ready some words start forward room (overlay_none cpu.mem cpu.edi _).symm
  have size : 0+2*256 = 512 := rfl
  rw [sectorWords_length,size] at ran
  unfold takeSector
  rw [onCpu_bind,onCpu_bind,rep_bind count,Prog.bind_run ran]
  refine ⟨_,?_,rfl⟩
  constructor <;> simp only [popEcx,setDx,setEcx,Cpu.top]

structure Turned (before : Cpu) (byte : Nat → BitVec 8) (after : Cpu) : Prop where
  ecx : after.ecx = before.ecx-1#32
  edi : after.edi = before.edi+512#32
  esp : after.esp = before.esp
  eflags : after.eflags = before.eflags
  mem : after.mem = overlay (before.push before.ecx).mem before.edi 512 byte

theorem counter_kept {c : Cpu} (apart : Apart a 512 (c.esp-4#32) 4) (value : Word) (byte : Nat → BitVec 8) :
    read (overlay (c.push value).mem a 512 byte) (c.esp-4#32) = value := by
  have pushed : read (c.push value).mem (c.esp-4#32) = value := read_write c.mem (c.esp-4#32) value
  refine Eq.trans (read_congr ?_) pushed
  intro i inside
  apply overlay_other
  have offset := offset_toNat (n := i) (by omega)
  unfold Apart at *
  bv_omega

theorem nextSector_turn (busy : drive.phase = .busy wait lba left) (enough : wait < poll) (found : drive.media lba = some sector)
    (forward : backward cpu = false) (apart : Apart cpu.edi 512 (cpu.esp-4#32) 4) (fuel : Nat) :
    ∃ after, Turned cpu (fun i => (sector i).toBitVec) after ∧ nextSector poll (fuel+1) ⟨cpu,drive⟩ =
      (if after.ecx ≠ 0#32 then nextSector poll fuel else pure ()) ⟨after,drive.sent lba left⟩ := by
  have ready : ({drive with phase := .ready (sectorWords sector) lba left} : Controller).phase = .ready (sectorWords sector) lba left := rfl
  have waited := tryAgain_run busy enough found cpu
  generalize same : setAl (setDx (cpu.push cpu.ecx) 0x1F7#16) statusData = pushed at waited
  have edi : pushed.edi = cpu.edi := by rw [← same]; rfl
  have esp : pushed.esp = cpu.esp-4#32 := by rw [← same]; rfl
  have eflags : pushed.eflags = cpu.eflags := by rw [← same]; rfl
  have mem : pushed.mem = (cpu.push cpu.ecx).mem := by rw [← same]; rfl
  have ahead : backward pushed = false := by
    unfold backward at *
    rw [eflags]
    exact forward
  obtain ⟨c,taken,ran⟩ := takeSector_run ready ahead
  rw [sent_phase] at ran
  have counter : c.ecx = cpu.ecx := by
    rw [taken.ecx,edi,esp,mem]
    exact counter_kept apart cpu.ecx _
  have stack : c.esp = cpu.esp := by
    rw [taken.esp,esp]
    exact BitVec.sub_add_cancel cpu.esp 4#32
  refine ⟨setEcx c (c.ecx-1#32),⟨?_,?_,stack,?_,?_⟩,?_⟩
  · rw [← counter]
    rfl
  · rw [← edi]
    exact taken.edi
  · rw [← eflags]
    exact taken.eflags
  · rw [← mem,← edi]
    exact taken.mem
  · rw [nextSector,Prog.bind_run waited,Prog.bind_run ran,onCpu_bind,Prog.get_bind]

theorem word_eq (small : n < 4294967296) : BitVec.ofNat 32 n = 0#32 ↔ n = 0 := by
  constructor
  · intro equal
    have value := congrArg BitVec.toNat equal
    rw [offset_toNat small] at value
    exact value
  · intro equal
    rw [equal]

theorem word_pred (n : Nat) : BitVec.ofNat 32 (n+1)-1#32 = BitVec.ofNat 32 n := by
  rw [BitVec.ofNat_add,BitVec.add_sub_cancel]

def diskBytes (media : Media) (start : Nat) : Nat → BitVec 8 := fun k => (bytesOf media (start*512+k)).toBitVec

theorem diskBytes_sector (found : media (start+done) = some sector) (small : i < 512) :
    (sector i).toBitVec = diskBytes media start (512*done+i) := by
  have block : (start*512+(512*done+i))/512 = start+done := by omega
  have offset : (start*512+(512*done+i))%512 = i := by omega
  unfold diskBytes bytesOf
  rw [block,offset,found]

structure Finished (before : Cpu) (base : Memory) (slot a : Word) (byte : Nat → BitVec 8) (total : Nat) (after : Cpu) : Prop where
  ecx : after.ecx = 0#32
  edi : after.edi = a+BitVec.ofNat 32 (512*total)
  esp : after.esp = before.esp
  covers : Covers after.mem base slot a (512*total) byte

theorem Turned.covers (moved : Turned cpu (fun i => (sector i).toBitVec) after) (found : media (start+done) = some sector)
    (edi : cpu.edi = a+BitVec.ofNat 32 (512*done)) (room : 512*(done+1) ≤ 4294967296)
    (covered : Covers cpu.mem base (cpu.esp-4#32) a (512*done) (diskBytes media start)) :
    Covers after.mem base (after.esp-4#32) a (512*(done+1)) (diskBytes media start) := by
  obtain ⟨_,_,stack,_,mem⟩ := moved
  have bytes := overlay_bytes (fun i small => diskBytes_sector found small) (cpu.push cpu.ecx).mem (a+BitVec.ofNat 32 (512*done))
  rw [mem,stack,edi,bytes]
  exact (covered.push rfl cpu.ecx).sector room

theorem nextSector_run (busy : drive.phase = .busy wait (start+done) (left+1)) (enough : wait < poll)
    (later : ∀ k < left, drive.delays k < poll) (found : ∀ i < left+1, (drive.media (start+done+i)).isSome)
    (ecx : cpu.ecx = BitVec.ofNat 32 (left+1)) (small : left+1 ≤ 256) (edi : cpu.edi = a+BitVec.ofNat 32 (512*done))
    (forward : backward cpu = false) (covers : Covers cpu.mem base (cpu.esp-4#32) a (512*done) (diskBytes drive.media start))
    (room : 512*(done+left+1) ≤ 4294967296) (apart : Apart a (512*(done+left+1)) (cpu.esp-4#32) 4) :
    ∃ after last, nextSector poll (left+1) ⟨cpu,drive⟩ = .ok ((),⟨after,last⟩) ∧
      Finished cpu base (cpu.esp-4#32) a (diskBytes drive.media start) (done+left+1) after ∧
      last.Idle ∧ last.drives = drive.drives := by
  induction left generalizing wait drive cpu done with
  | zero =>
    obtain ⟨sector,first⟩ := Option.isSome_iff_exists.mp (found 0 Nat.zero_lt_one)
    have present : drive.media (start+done) = some sector := first
    have clear : Apart cpu.edi 512 (cpu.esp-4#32) 4 := by
      rw [edi]
      exact apart.within (by omega) (by decide) room
    obtain ⟨after,moved,turned⟩ := nextSector_turn busy enough present forward clear 0
    have placed := moved.covers present edi room covers
    obtain ⟨counter,further,stack,_,_⟩ := moved
    have zero : after.ecx = 0#32 := by
      rw [counter,ecx]
      rfl
    rw [zero,if_neg (fun nonzero => nonzero rfl)] at turned
    rw [stack] at placed
    refine ⟨after,drive.sent (start+done) 1,turned,⟨zero,?_,stack,placed⟩,⟨false,sent_last _ _⟩,sent_drives _ _ _⟩
    rw [further,edi,BitVec.add_assoc,← BitVec.ofNat_add]
    rfl
  | succ left ih =>
    obtain ⟨sector,first⟩ := Option.isSome_iff_exists.mp (found 0 (Nat.succ_pos _))
    have present : drive.media (start+done) = some sector := first
    have clear : Apart cpu.edi 512 (cpu.esp-4#32) 4 := by
      rw [edi]
      exact apart.within (by omega) (by decide) room
    obtain ⟨after,moved,turned⟩ := nextSector_turn busy enough present forward clear (left+1)
    have placed := moved.covers present edi (by omega) covers
    obtain ⟨counter,further,stack,flags,_⟩ := moved
    have count : after.ecx = BitVec.ofNat 32 (left+1) := by
      rw [counter,ecx,word_pred]
    have nonzero : after.ecx ≠ 0#32 := by
      rw [count]
      exact fun zero => absurd ((word_eq (by omega)).mp zero) (Nat.succ_ne_zero _)
    have next : drive.sent (start+done) (left+1+1) = drive.fetch (start+done+1) (left+1) := sent_more _ _ (by omega)
    have media : (drive.fetch (start+done+1) (left+1)).media = drive.media := rfl
    have place : after.edi = a+BitVec.ofNat 32 (512*(done+1)) := by
      rw [further,edi,BitVec.add_assoc,← BitVec.ofNat_add]
      rfl
    have ahead : backward after = false := by
      unfold backward at *
      rw [flags]
      exact forward
    have busy' : (drive.fetch (start+done+1) (left+1)).phase = .busy (drive.delays 0) (start+(done+1)) (left+1) := rfl
    have total : done+1+left+1 = done+(left+1)+1 := by omega
    have step := ih busy' (later 0 (Nat.succ_pos _)) (fun k less => later (k+1) (Nat.succ_lt_succ less))
      (fun i less => by rw [media,Nat.add_assoc,Nat.add_assoc,Nat.add_comm 1,← Nat.add_assoc]; exact found (i+1) (Nat.succ_lt_succ less))
      count (by omega) place ahead placed (by omega) (by rw [total,stack]; exact apart)
    rw [if_pos nonzero,next] at turned
    obtain ⟨ended,last,ran,⟨done',edi',esp',covers'⟩,idle,drives⟩ := step
    rw [total] at edi' covers'
    rw [stack] at esp' covers'
    exact ⟨ended,last,turned.trans ran,⟨done',edi',esp',covers'⟩,idle,drives⟩

theorem outAl_run (sent : outb port.toNat (cpu.eax.setWidth 8) drive = .ok ((),after)) :
    outAl port ⟨cpu,drive⟩ = .ok ((),⟨setDx cpu port,after⟩) := by
  unfold outAl
  rw [onCpu_bind,Prog.get_bind]
  exact Prog.focus_run sent

theorem setAl_low (c : Cpu) (al : BitVec 8) : (setAl c al).eax.setWidth 8 = al :=
  (BitVec.setWidth_append_eq_right).trans rfl

theorem outAl_register (same : ∀ val, outb port.toNat val = setRegister register val) (idle : drive.Idle) (k : Unit → BootProg α)
    (cpu : Cpu) : (outAl port >>= k) ⟨cpu,drive⟩ = k () ⟨setDx cpu port,drive.put register (cpu.eax.setWidth 8)⟩ := by
  apply Prog.bind_run
  apply outAl_run
  rw [same]
  exact setRegister_run idle register _

def requested (drive : Controller) (lba count : Word) : Controller :=
  {drive with
    device := ((lba >>> 24) ||| 0xE0#32).setWidth 8, count := count.setWidth 8, low := lba.setWidth 8,
    mid := (lba >>> 8).setWidth 8, high := (lba >>> 16).setWidth 8}

theorem shifted_byte (x : Word) (s : Nat) : (x >>> s).setWidth 8 = x.extractLsb' s 8 := by
  apply BitVec.eq_of_getLsbD_eq
  intro i small
  simp [small]

theorem requested_addressed (drive : Controller) (lba count : Word) : Addressed (requested drive lba count) lba := by
  refine ⟨shifted_byte lba 0,shifted_byte lba 8,shifted_byte lba 16,?_⟩
  show ((lba >>> 24) ||| 0xE0#32).setWidth 8 = _
  rw [BitVec.setWidth_or,shifted_byte]
  rfl

structure Kept (before after : Cpu) : Prop where
  ecx : after.ecx = before.ecx
  edi : after.edi = before.edi
  esp : after.esp = before.esp
  eflags : after.eflags = before.eflags
  mem : after.mem = before.mem

theorem Kept.refl (c : Cpu) : Kept c c := ⟨rfl,rfl,rfl,rfl,rfl⟩

@[simp] theorem kept_dx : Kept before (setDx c dx) ↔ Kept before c := ⟨fun k => ⟨k.1,k.2,k.3,k.4,k.5⟩,fun k => ⟨k.1,k.2,k.3,k.4,k.5⟩⟩

@[simp] theorem kept_al : Kept before (setAl c al) ↔ Kept before c := ⟨fun k => ⟨k.1,k.2,k.3,k.4,k.5⟩,fun k => ⟨k.1,k.2,k.3,k.4,k.5⟩⟩

@[simp] theorem kept_eax : Kept before (setEax c value) ↔ Kept before c := ⟨fun k => ⟨k.1,k.2,k.3,k.4,k.5⟩,fun k => ⟨k.1,k.2,k.3,k.4,k.5⟩⟩

@[simp] theorem kept_ebx : Kept before (setEbx c value) ↔ Kept before c := ⟨fun k => ⟨k.1,k.2,k.3,k.4,k.5⟩,fun k => ⟨k.1,k.2,k.3,k.4,k.5⟩⟩

@[simp] theorem setEax_eax (c : Cpu) (value : Word) : (setEax c value).eax = value := rfl

@[simp] theorem setEax_ebx (c : Cpu) (value : Word) : (setEax c value).ebx = c.ebx := rfl

@[simp] theorem setEax_ecx (c : Cpu) (value : Word) : (setEax c value).ecx = c.ecx := rfl

@[simp] theorem setEbx_eax (c : Cpu) (value : Word) : (setEbx c value).eax = c.eax := rfl

@[simp] theorem setEbx_ebx (c : Cpu) (value : Word) : (setEbx c value).ebx = value := rfl

@[simp] theorem setEbx_ecx (c : Cpu) (value : Word) : (setEbx c value).ecx = c.ecx := rfl

@[simp] theorem setDx_eax (c : Cpu) (dx : BitVec 16) : (setDx c dx).eax = c.eax := rfl

@[simp] theorem setDx_ebx (c : Cpu) (dx : BitVec 16) : (setDx c dx).ebx = c.ebx := rfl

@[simp] theorem setDx_ecx (c : Cpu) (dx : BitVec 16) : (setDx c dx).ecx = c.ecx := rfl

theorem sendRequest_run (idle : drive.Idle) (present : (drive.drives (cpu.eax.getLsbD 28)).isSome) :
    ∃ after, Kept cpu after ∧ sendRequest ⟨cpu,drive⟩ =
      .ok ((),⟨after,(requested drive cpu.eax cpu.ecx).fetch (cpu.eax.toNat%2^28) (requested drive cpu.eax cpu.ecx).sectors⟩) := by
  have addressed := requested_addressed drive cpu.eax cpu.ecx
  have device : ∀ val, outb (0x1F6#16 : BitVec 16).toNat val = setRegister .device val := fun _ => rfl
  have count : ∀ val, outb (0x1F2#16 : BitVec 16).toNat val = setRegister .count val := fun _ => rfl
  have low : ∀ val, outb (0x1F3#16 : BitVec 16).toNat val = setRegister .low val := fun _ => rfl
  have mid : ∀ val, outb (0x1F4#16 : BitVec 16).toNat val = setRegister .mid val := fun _ => rfl
  have high : ∀ val, outb (0x1F5#16 : BitVec 16).toNat val = setRegister .high val := fun _ => rfl
  have ready : (requested drive cpu.eax cpu.ecx).Idle := idle
  obtain ⟨failed,phase⟩ := ready
  have commanded := command_run addressed phase present
  unfold sendRequest
  rw [onCpu_bind,onCpu_bind,onCpu_bind,outAl_register device idle,onCpu_bind,outAl_register count (put_idle.mpr idle),onCpu_bind,
    outAl_register low (put_idle.mpr (put_idle.mpr idle)),onCpu_bind,onCpu_bind,
    outAl_register mid (put_idle.mpr (put_idle.mpr (put_idle.mpr idle))),onCpu_bind,onCpu_bind,
    outAl_register high (put_idle.mpr (put_idle.mpr (put_idle.mpr (put_idle.mpr idle)))),onCpu_bind]
  refine ⟨_,?_,outAl_run ?_⟩
  · simp only [kept_dx,kept_al,kept_eax,kept_ebx,Kept.refl]
  · rw [setAl_low]
    simp only [setDx_ebx,setDx_ecx,setEax_eax,setEax_ebx,setEax_ecx,setEbx_eax,setEbx_ebx,setEbx_ecx]
    exact commanded

theorem requested_media (drive : Controller) (lba count : Word) : (requested drive lba count).media = portMedia drive.drives lba := by
  unfold Controller.media portMedia
  rw [(requested_addressed drive lba count).slave]
  rfl

theorem requested_sectors (drive : Controller) (lba : Word) (some : 0 < total) (small : total ≤ 256) :
    (requested drive lba (BitVec.ofNat 32 total)).sectors = total := by
  have count : (requested drive lba (BitVec.ofNat 32 total)).count.toNat = total%256 := by
    show ((BitVec.ofNat 32 total).setWidth 8).toNat = total%256
    rw [BitVec.toNat_setWidth,offset_toNat (by omega)]
  unfold Controller.sectors
  rw [count]
  by_cases full : total = 256
  · have zero : (requested drive lba (BitVec.ofNat 32 total)).count = 0#8 := by
      apply BitVec.eq_of_toNat_eq
      rw [count,full]
      rfl
    rw [if_pos zero,full]
  · have nonzero : (requested drive lba (BitVec.ofNat 32 total)).count ≠ 0#8 := by
      intro zero
      rw [zero] at count
      have value : (0 : Nat) = total%256 := count
      omega
    rw [if_neg nonzero,Nat.mod_eq_of_lt (by omega)]

-- The loader's call: the sectors stand at the destination, and but for the
-- stack slot all other memory is as it was.
structure Transferred (before : Cpu) (drive : Controller) (total : Nat) (after : Cpu) (last : Controller) : Prop where
  bytes : ∀ i < 512*total, after.mem (before.edi+BitVec.ofNat 32 i) = diskBytes (portMedia drive.drives before.eax) (before.eax.toNat%2^28) i
  rest : ∀ x, Apart before.edi (512*total) x 1 → Apart (before.esp-4#32) 4 x 1 → after.mem x = before.mem x
  eip : after.eip = read before.mem before.esp
  esp : after.esp = before.esp+4#32
  edi : after.edi = before.edi+BitVec.ofNat 32 (512*total)
  idle : last.Idle
  drives : last.drives = drive.drives

theorem above_slot {sp : Word} (apart : Apart a n (sp-4#32) 8) (inside : i < 4) :
    Apart (sp-4#32) 4 (sp+BitVec.ofNat 32 i) 1 ∧ Apart a n (sp+BitVec.ofNat 32 i) 1 := by
  have offset : (BitVec.ofNat 32 i).toNat = i := offset_toNat (by omega)
  unfold Apart at *
  generalize BitVec.ofNat 32 i = o at *
  constructor <;> bv_omega

theorem ataLbaRead_run (idle : drive.Idle) (count : cpu.ecx = BitVec.ofNat 32 total) (some : 0 < total) (small : total ≤ 256)
    (found : ∀ i < total, (portMedia drive.drives cpu.eax (cpu.eax.toNat%2^28+i)).isSome) (swift : ∀ k < total, drive.delays k < poll)
    (forward : backward cpu = false) (apart : Apart cpu.edi (512*total) (cpu.esp-4#32) 8) :
    ∃ after last, ataLbaRead poll ⟨cpu,drive⟩ = .ok ((),⟨after,last⟩) ∧ Transferred cpu drive total after last := by
  have present : (drive.drives (cpu.eax.getLsbD 28)).isSome := by
    have first := found 0 some
    unfold portMedia at first
    cases selected : drive.drives (cpu.eax.getLsbD 28) with
    | none => rw [selected] at first; cases first
    | some media => rfl
  obtain ⟨sent,⟨ecx,edi,esp,eflags,mem⟩,requests⟩ := sendRequest_run idle present
  rw [count] at requests
  rw [requested_sectors drive cpu.eax some small] at requests
  have media := requested_media drive cpu.eax (BitVec.ofNat 32 total)
  obtain ⟨left,rfl⟩ : ∃ left, total = left+1 := ⟨total-1,by omega⟩
  have drives : (requested drive cpu.eax (BitVec.ofNat 32 (left+1))).drives = drive.drives := rfl
  have delays : (requested drive cpu.eax (BitVec.ofNat 32 (left+1))).delays = drive.delays := rfl
  generalize requested drive cpu.eax (BitVec.ofNat 32 (left+1)) = asked at requests media drives delays
  have started : (asked.fetch (cpu.eax.toNat%2^28) (left+1)).media = portMedia drive.drives cpu.eax := media
  have busy : (asked.fetch (cpu.eax.toNat%2^28) (left+1)).phase = .busy (drive.delays 0) (cpu.eax.toNat%2^28+0) (left+1) := by
    rw [← delays]
    rfl
  have later : ∀ k < left, (asked.fetch (cpu.eax.toNat%2^28) (left+1)).delays k < poll := by
    intro k less
    show asked.delays (k+1) < poll
    rw [delays]
    exact swift (k+1) (Nat.succ_lt_succ less)
  have ahead : backward sent = false := by
    unfold backward at *
    rw [eflags]
    exact forward
  have room : 512*(0+left+1) ≤ 4294967296 := by omega
  have slot : Apart cpu.edi (512*(0+left+1)) (sent.esp-4#32) 4 := by
    rw [esp,Nat.zero_add]
    exact ⟨apart.1,Nat.le_trans (by decide) apart.2⟩
  have covers : Covers sent.mem cpu.mem (sent.esp-4#32) cpu.edi (512*0)
      (diskBytes (asked.fetch (cpu.eax.toNat%2^28) (left+1)).media (cpu.eax.toNat%2^28)) := by
    intro x _
    rw [Nat.mul_zero,overlay_none,mem]
  obtain ⟨after,last,ran,⟨_,further,stack,placed⟩,idle',drives'⟩ := nextSector_run busy (swift 0 (Nat.succ_pos _)) later
    (fun i less => by rw [started]; exact found i less) (ecx.trans count) small (edi.trans (BitVec.add_zero cpu.edi).symm) ahead
    covers room slot
  rw [started,esp,Nat.zero_add] at placed
  rw [Nat.zero_add] at further
  have nonzero : ¬ sent.ecx = 0#32 := by
    rw [ecx,count]
    exact fun zero => absurd ((word_eq (by omega)).mp zero) (Nat.succ_ne_zero _)
  have turns : (if sent.ecx = 0#32 then 2^32 else sent.ecx.toNat) = left+1 := by
    rw [if_neg nonzero,ecx,count,offset_toNat (by omega)]
  have returns : ataLbaRead poll ⟨cpu,drive⟩ = .ok ((),⟨after.ret,last⟩) := by
    unfold ataLbaRead
    rw [Prog.bind_run requests,Prog.get_bind,turns,Prog.bind_run ran]
    rfl
  have kept : after.ret.mem = after.mem := by simp only [Cpu.ret]
  have place : after.ret.edi = after.edi := by simp only [Cpu.ret]
  have target : after.ret.eip = read after.mem after.esp := by simp only [Cpu.ret,Cpu.top]
  have popped : after.ret.esp = after.esp+4#32 := by simp only [Cpu.ret]
  refine ⟨after.ret,last,returns,?_,?_,?_,?_,place.trans further,idle',drives'.trans drives⟩
  · intro i inside
    have clear : Apart (cpu.esp-4#32) 4 (cpu.edi+BitVec.ofNat 32 i) 1 :=
      Apart.symm ⟨((Apart.within apart (by omega) Nat.one_pos (by omega)) : Apart (cpu.edi+BitVec.ofNat 32 i) 1 _ 8).1,
        Nat.le_trans (by decide) (Apart.within apart (show i+1 ≤ 512*(left+1) from inside) Nat.one_pos (by omega)).2⟩
    rw [kept,placed _ clear]
    exact overlay_byte _ _ _ inside (by omega)
  · intro x away clear
    rw [kept,placed x clear]
    exact overlay_other away _ _
  · rw [target,stack,esp]
    apply read_congr
    intro i inside
    obtain ⟨slot,away⟩ := above_slot apart inside
    rw [placed _ slot]
    exact overlay_other away _ _
  · rw [popped,stack,esp]

theorem call_slots {sp x : Word} (clear : Apart (sp-8#32) 8 x 1) : Apart (sp-8#32) 4 x 1 ∧ Apart (sp-4#32) 4 x 1 := by
  unfold Apart at *
  constructor <;> bv_omega

-- The kernel's sectors are the hundred behind the boot sector.
structure KernelLoaded (before : Machine) (media : Media) (after : Machine) : Prop where
  bytes : ∀ i < 51200, after.cpu.mem (0x00100000#32+BitVec.ofNat 32 i) = diskBytes media 1 i
  rest : ∀ x, Apart 0x00100000#32 51200 x 1 → Apart (before.cpu.esp-8#32) 8 x 1 → after.cpu.mem x = before.cpu.mem x
  entry : after.cpu.eip = 0x00100000#32 ∧ after.cpu.cs = codeSeg
  esp : after.cpu.esp = before.cpu.esp
  idle : after.drive.Idle
  drives : after.drive.drives = before.drive.drives

theorem load32_loads {m : Machine} (idle : m.drive.Idle) (master : m.drive.drives false = some media)
    (found : ∀ i < 100, (media (1+i)).isSome) (swift : ∀ k < 100, m.drive.delays k < poll) (forward : backward m.cpu = false)
    (apart : Apart 0x00100000#32 51200 (m.cpu.esp-8#32) 8) (jump : Word) :
    ∃ after, load32 poll jump m = .ok ((),after) ∧ KernelLoaded m media after := by
  obtain ⟨cpu,drive⟩ := m
  dsimp only at idle master swift forward apart
  have selected : portMedia drive.drives 1#32 = media := by
    unfold portMedia
    rw [show (1#32 : Word).getLsbD 28 = false from rfl,master]
    rfl
  have first : (1#32 : Word).toNat%2^28 = 1 := rfl
  have size : 512*100 = 51200 := rfl
  generalize same : ((setEdi (setEcx (setEax cpu 1#32) 100#32) 0x00100000#32).callTo jump) = called
  have eax : called.eax = 1#32 := by rw [← same]; rfl
  have ecx : called.ecx = BitVec.ofNat 32 100 := by rw [← same]; rfl
  have edi : called.edi = 0x00100000#32 := by rw [← same]; rfl
  have esp : called.esp = cpu.esp-4#32 := by rw [← same]; rfl
  have flags : called.eflags = cpu.eflags := by rw [← same]; rfl
  have mem : called.mem = write cpu.mem (cpu.esp-4#32) jump := by rw [← same]; rfl
  have below : cpu.esp-4#32-4#32 = cpu.esp-8#32 := by bv_omega
  have ahead : backward called = false := by
    unfold backward at *
    rw [flags]
    exact forward
  have there : ∀ i < 100, (portMedia drive.drives called.eax (called.eax.toNat%2^28+i)).isSome := by
    rw [eax,selected,first]
    exact found
  have clear : Apart called.edi (512*100) (called.esp-4#32) 8 := by
    rw [edi,esp,below,size]
    exact apart
  have some : 0 < 100 := by decide
  have small : 100 ≤ 256 := by decide
  obtain ⟨after,last,ran,transferred⟩ := ataLbaRead_run idle ecx some small there swift ahead clear
  obtain ⟨bytes,rest,_,stack,_,idle',drives'⟩ := transferred
  rw [eax,edi,selected,first,size] at bytes
  rw [edi,esp,below,size] at rest
  have kept : (jumpKernel after).mem = after.mem := by simp only [jumpKernel]
  refine ⟨⟨jumpKernel after,last⟩,?_,?_,?_,⟨rfl,rfl⟩,?_,idle',drives'⟩
  · unfold load32
    rw [onCpu_bind,onCpu_bind,onCpu_bind,onCpu_bind,same,Prog.bind_run ran]
    rfl
  · intro i inside
    dsimp only
    rw [kept]
    exact bytes i inside
  · intro x away clear
    dsimp only at clear ⊢
    obtain ⟨slot,pushed⟩ := call_slots clear
    rw [kept,rest x away slot,mem]
    exact write_other pushed cpu.mem jump
  · have same : (jumpKernel after).esp = after.esp := by simp only [jumpKernel]
    dsimp only
    rw [same,stack,esp,BitVec.sub_add_cancel]

-- A machine as the firmware leaves it, with a drive of some pace.
def sampleDisk : Media := fun lba => some (fun i => UInt8.ofNat (lba+i))

def sampleMachine : Machine :=
  ⟨⟨0#32,0#32,0#32,0x7C00#32,0#32,0#32,0#32,0#32,0x7C40#32,0x2#32,codeSeg,0#16,0#16,0#16,0#16,0#16,fun _ => 0#8⟩,
    ⟨fun slave => if slave then none else some sampleDisk,fun n => n%7,0#8,0#8,0#8,0#8,0#8,.idle false⟩⟩

theorem sample_boot : ∃ after, load32 7 0x7C60#32 sampleMachine = .ok ((),after) ∧ KernelLoaded sampleMachine sampleDisk after := by
  have apart : Apart 0x00100000#32 51200 (sampleMachine.cpu.esp-8#32) 8 := by
    unfold Apart
    decide
  exact load32_loads ⟨false,rfl⟩ rfl (fun _ _ => rfl) (fun k _ => Nat.mod_lt k (by decide)) rfl apart 0x7C60#32

end NutsOS.Boot
