import NutsOS.Disk.Ata

-- stream.c on the ATA controller, and the device that its callers see.
namespace NutsOS.AtaDisk
open Ata DiskStreams Word32 Bytes

inductive Halt where
  | drive (stop : Stop)
  | code (fault : Fault)
  deriving DecidableEq

abbrev DiskProg := Prog Halt Controller

def onDrive (x : Io α) : DiskProg α := fun c =>
  match x c with
  | .error stop => .error (.drive stop)
  | .ok result => .ok result

def haltOf : Fault → Halt
  | .unbounded => .drive .unbounded
  | fault => .code fault

def ofExcept (x : Except Fault α) : DiskProg α := fun c =>
  match x with
  | .error fault => .error (haltOf fault)
  | .ok a => .ok (a,c)

-- idisk != &disk is the caller's to say.
def diskReadBlock (poll : Nat) (known : Bool) (lba total : BitVec 32) : Io (Int × List UInt8) :=
  if known = false then return (-eio,[]) else diskReadSector poll lba total

-- The loop of diskstream_read with the port driver in place of the device.
def diskstreamReadLoop (poll : Nat) : Nat → Int → Int → DiskProg (Int × List UInt8 × DiskStream)
  | 0,_,_ => Prog.fault (.drive .unbounded)
  | fuel+1,pos,remainingToRead => do
    let sector := pos.tdiv nutsosSectorSize
    let offset := pos.tmod nutsosSectorSize
    let readableInSector := nutsosSectorSize - offset
    let totalToRead := if remainingToRead > readableInSector then readableInSector else remainingToRead
    let (res,buf) ← onDrive (diskReadBlock poll true (BitVec.ofInt 32 sector) 1#32)
    if res < 0 then return (res,[],⟨pos⟩) else
    let bytes ← ofExcept (copySector (fun i => buf.getD i 0) totalToRead.toNat offset)
    let pos := toInt32 (pos + totalToRead)
    let remainingToRead := remainingToRead - totalToRead
    if remainingToRead > 0 then
      let (res,rest,stream) ← diskstreamReadLoop poll fuel pos remainingToRead
      return (res,bytes++rest,stream)
    else return (res,bytes,⟨pos⟩)

def diskstreamRead (poll : Nat) (stream : DiskStream) (total : Int) : DiskProg (Int × List UInt8 × DiskStream) :=
  diskstreamReadLoop poll (total.toNat+1) stream.pos total

-- An idle controller that keeps the host waiting for less than the bound.
structure Ready (poll : Nat) (drives : Bool → Option Media) (c : Controller) : Prop where
  idle : c.Idle
  drives : c.drives = drives
  swift : ∀ k, c.delays k < poll

def sampleSlowController : Controller := {sampleController with delays := fun n => n%7}

-- What the driver makes of an answer of the device.
inductive Follows (poll : Nat) (drives : Bool → Option Media) :
    Except Fault (Int × List UInt8 × DiskStream) → Except Halt ((Int × List UInt8 × DiskStream) × Controller) → Prop where
  | answers (ready : Ready poll drives after) : Follows poll drives (.ok (0,bytes,stream)) (.ok ((0,bytes,stream),after))
  | stops : Follows poll drives (.error fault) (.error (haltOf fault))

theorem ofInt_toNat (x : Int) : (BitVec.ofInt 32 x).toNat = toUint32 x := BitVec.toNat_ofInt x

theorem ofNat_toUint32 (x : Int) : BitVec.ofNat 32 (toUint32 x) = BitVec.ofInt 32 x := by
  apply BitVec.eq_of_toNat_eq
  rw [ofInt_toNat,BitVec.toNat_ofNat]
  exact Nat.mod_eq_of_lt (toUint32_lt x)

theorem block_arrives (ready : Ready poll drives c) (found : portDevice drives (toUint32 x) = some sector) :
    ∃ after, diskReadBlock poll true (BitVec.ofInt 32 x) 1#32 c = .ok ((0,slice sector 0 512),after) ∧ Ready poll drives after := by
  obtain ⟨idle,rfl,swift⟩ := ready
  unfold portDevice at found
  rw [ofNat_toUint32,← ofInt_toNat] at found
  have readable : Readable c.drives (BitVec.ofInt 32 x) 1#32 := by
    refine ⟨by decide,fun i small => ?_⟩
    have zero : i = 0 := Nat.lt_one_iff.mp small
    rw [zero,Nat.add_zero,found]
    rfl
  obtain ⟨after,ran,idle,drives,delays⟩ := read_delivers idle (by decide) readable poll (fun k _ => swift k)
  refine ⟨after,?_,idle,drives,fun k => by rw [delays]; exact swift _⟩
  have one : (1#32 : BitVec 32).toInt.toNat*512 = 512 := rfl
  rw [sector_slice _ found,← one]
  exact ran

theorem block_hangs (ready : Ready poll drives c) (silent : portDevice drives (toUint32 x) = none) :
    diskReadBlock poll true (BitVec.ofInt 32 x) 1#32 c = .error .unbounded := by
  obtain ⟨idle,rfl,_⟩ := ready
  unfold portDevice at silent
  rw [ofNat_toUint32,← ofInt_toNat] at silent
  have unreadable : ¬ Readable c.drives (BitVec.ofInt 32 x) 1#32 := by
    intro readable
    have first := readable.2 0 (by decide)
    rw [Nat.add_zero,silent] at first
    cases first
  exact read_hangs idle (by decide) unreadable poll

theorem copySector_congr (same : ∀ i < 512, one i = two i) (count : Nat) (offset : Int) :
    copySector one count offset = copySector two count offset := by
  induction count generalizing offset with
  | zero => rfl
  | succ count ih =>
    rw [copySector,copySector,ih]
    by_cases outside : offset < 0 ∨ nutsosSectorSize ≤ offset
    · rw [if_pos outside,if_pos outside]
    · rw [if_neg outside,if_neg outside]
      have inside : offset.toNat < 512 := by
        unfold nutsosSectorSize at outside
        omega
      rw [same _ inside]

theorem slice_getD (sector : Nat → UInt8) (small : i < 512) : (slice sector 0 512).getD i 0 = sector i := by
  unfold slice
  rw [List.getD_eq_getElem?_getD,List.getElem?_map,List.getElem?_range small]
  simp

theorem diskstreamReadLoop_follows (ready : Ready poll drives c) (fuel : Nat) (pos remaining : Int) :
    Follows poll drives (DiskStreams.diskstreamReadLoop (portDevice drives) fuel pos remaining)
      (diskstreamReadLoop poll fuel pos remaining c) := by
  induction fuel generalizing c pos remaining with
  | zero => exact .stops
  | succ fuel ih =>
    rw [DiskStreams.diskstreamReadLoop,diskstreamReadLoop]
    dsimp only
    generalize (if remaining > _ then _ else _) = now
    cases found : portDevice drives (toUint32 (pos.tdiv nutsosSectorSize)) with
    | none =>
      have silent : DiskStreams.diskReadBlock (portDevice drives) (toUint32 (pos.tdiv nutsosSectorSize)) = .error .unbounded := by
        unfold DiskStreams.diskReadBlock
        rw [found]
      have hangs : onDrive (diskReadBlock poll true (BitVec.ofInt 32 (pos.tdiv nutsosSectorSize)) 1#32) c = .error (.drive .unbounded) := by
        unfold onDrive
        rw [block_hangs ready found]
      rw [silent,Prog.bind_fault hangs]
      exact @Follows.stops poll drives .unbounded
    | some sector =>
      obtain ⟨after,ran,again⟩ := block_arrives ready found
      have arrives : DiskStreams.diskReadBlock (portDevice drives) (toUint32 (pos.tdiv nutsosSectorSize)) = .ok (0,sector) := by
        unfold DiskStreams.diskReadBlock
        rw [found]
      have answered : onDrive (diskReadBlock poll true (BitVec.ofInt 32 (pos.tdiv nutsosSectorSize)) 1#32) c =
          .ok ((0,slice sector 0 512),after) := by
        unfold onDrive
        rw [ran]
      have copied := copySector_congr (fun i small => slice_getD sector small) now.toNat (pos.tmod nutsosSectorSize)
      rw [arrives,Prog.bind_run answered]
      dsimp only
      rw [if_neg (by decide),if_neg (by decide),copied]
      cases copySector sector now.toNat (pos.tmod nutsosSectorSize) with
      | error fault => exact .stops
      | ok bytes =>
        rw [Prog.bind_run (show ofExcept (Except.ok bytes) after = .ok (bytes,after) from rfl)]
        dsimp only
        by_cases more : remaining-now > 0
        · rw [if_pos more,if_pos more]
          have step := ih again (toInt32 (pos+now)) (remaining-now)
          generalize DiskStreams.diskstreamReadLoop _ fuel _ _ = plain at step
          generalize ended : diskstreamReadLoop poll fuel _ _ after = ports at step
          cases step with
          | answers last =>
            rw [Prog.bind_run ended]
            exact .answers last
          | stops =>
            rw [Prog.bind_fault ended]
            exact .stops
        · rw [if_neg more,if_neg more]
          exact .answers again

def deviceRead (dev : BlockDevice) (stream : DiskStream) (total : Int) : Except Halt (Int × List UInt8 × DiskStream) :=
  match DiskStreams.diskstreamRead dev stream total with
  | .error fault => .error (haltOf fault)
  | .ok result => .ok result

def readAll (poll : Nat) : List (DiskStream × Int) → DiskProg (List (Int × List UInt8 × DiskStream))
  | [] => return []
  | (stream,total)::reads => do
    let result ← diskstreamRead poll stream total
    let results ← readAll poll reads
    return result::results

def deviceReadAll (dev : BlockDevice) : List (DiskStream × Int) → Except Halt (List (Int × List UInt8 × DiskStream))
  | [] => .ok []
  | (stream,total)::reads => do
    let result ← deviceRead dev stream total
    let results ← deviceReadAll dev reads
    return result::results

theorem diskstreamRead_cases (ready : Ready poll drives c) (stream : DiskStream) (total : Int) :
    (∃ result after, deviceRead (portDevice drives) stream total = .ok result ∧
      diskstreamRead poll stream total c = .ok (result,after) ∧ Ready poll drives after) ∨
    (∃ halt, deviceRead (portDevice drives) stream total = .error halt ∧ diskstreamRead poll stream total c = .error halt) := by
  have follows := diskstreamReadLoop_follows ready (total.toNat+1) stream.pos total
  unfold deviceRead DiskStreams.diskstreamRead diskstreamRead
  generalize DiskStreams.diskstreamReadLoop _ _ _ _ = plain at follows ⊢
  generalize diskstreamReadLoop poll _ _ _ c = ports at follows ⊢
  cases follows with
  | answers last => exact .inl ⟨_,_,rfl,rfl,last⟩
  | stops => exact .inr ⟨_,rfl,rfl⟩

theorem reads_over_ports (ready : Ready poll drives c) (reads : List (DiskStream × Int)) :
    (∃ results after, deviceReadAll (portDevice drives) reads = .ok results ∧
      readAll poll reads c = .ok (results,after) ∧ Ready poll drives after) ∨
    (∃ halt, deviceReadAll (portDevice drives) reads = .error halt ∧ readAll poll reads c = .error halt) := by
  induction reads generalizing c with
  | nil => exact .inl ⟨[],c,rfl,rfl,ready⟩
  | cons first reads ih =>
    obtain ⟨stream,total⟩ := first
    rw [deviceReadAll,readAll]
    rcases diskstreamRead_cases ready stream total with ⟨result,after,device,ports,again⟩ | ⟨halt,device,ports⟩
    · rw [device,Prog.bind_run ports]
      rcases ih again with ⟨results,last,rest,ran,ended⟩ | ⟨halt,rest,ran⟩
      · rw [rest,Prog.bind_run ran]
        exact .inl ⟨result::results,last,rfl,rfl,ended⟩
      · rw [rest,Prog.bind_fault ran]
        exact .inr ⟨halt,rfl,rfl⟩
    · rw [device,Prog.bind_fault ports]
      exact .inr ⟨halt,rfl,rfl⟩

theorem sample_ready : Ready 7 sampleSlowController.drives sampleSlowController := by
  refine ⟨⟨false,rfl⟩,rfl,fun k => ?_⟩
  show k%7 < 7
  exact Nat.mod_lt _ (by decide)

theorem sample_reads : ∃ results after,
    deviceReadAll (portDevice sampleSlowController.drives) [(⟨0⟩,4),(⟨510⟩,4)] = .ok results ∧
    readAll 7 [(⟨0⟩,4),(⟨510⟩,4)] sampleSlowController = .ok (results,after) := by
  rcases reads_over_ports sample_ready [(⟨0⟩,4),(⟨510⟩,4)] with ⟨results,after,device,ports,_⟩ | ⟨halt,device,_⟩
  · exact ⟨results,after,device,ports⟩
  · have some : (deviceReadAll (portDevice sampleSlowController.drives) [(⟨0⟩,4),(⟨510⟩,4)]).isOk = true := by decide
    rw [device] at some
    cases some

end NutsOS.AtaDisk
