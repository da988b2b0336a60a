import NutsOS.Fat16.Entries
import NutsOS.Fat16.Positions

-- Where the counting loop stops, on any drive and from any start.
namespace NutsOS.Fat16
open Word32 Bytes DiskStreams Prog

def tablePos (start : Int) (i : Nat) : Int := toInt32 (start+(32*i : Nat))

-- The sector arrives, and the offset in its buffer is not negative.
structure Fetched (dev : BlockDevice) (pos : Int) : Prop where
  arrives : (dev (sectorOf pos)).isSome
  inside : 0 ≤ pos.tmod nutsosSectorSize

def byteAt (dev : BlockDevice) (pos : Int) : UInt8 :=
  match dev (sectorOf pos) with
  | none => 0
  | some sector => sector (pos.tmod nutsosSectorSize).toNat

-- The bytes from the start of a directory on, as the stream runs over them.
def tableByte (dev : BlockDevice) (start : Int) (j : Nat) : UInt8 := byteAt dev (toInt32 (start+(j : Nat)))

-- The loop goes on behind the first t entries.
structure Passed (dev : BlockDevice) (start : Int) (t : Nat) : Prop where
  fetched : ∀ i < t, Fetched dev (tablePos start i)
  more : ∀ i < t, tableByte dev start (32*i) ≠ nutsosFat16NomoreEntry

-- What the loop comes to at the entry at which it does not go on.
inductive Halt (dev : BlockDevice) (start : Int) (t : Nat) : Except Fault Int → Prop where
  | silent (none : dev (sectorOf (tablePos start t)) = none) : Halt dev start t (.error .unbounded)
  | outside (arrives : (dev (sectorOf (tablePos start t))).isSome) (negative : (tablePos start t).tmod nutsosSectorSize < 0) :
      Halt dev start t (.error (.outOfBounds ((tablePos start t).tmod nutsosSectorSize)))
  | ended (fetched : Fetched dev (tablePos start t)) (last : tableByte dev start (32*t) = nutsosFat16NomoreEntry) :
      Halt dev start t (.ok (liveCount (tableByte dev start) 0 t : Nat))

theorem Passed.next (passed : Passed dev start t) (fetched : Fetched dev (tablePos start t))
    (more : tableByte dev start (32*t) ≠ nutsosFat16NomoreEntry) : Passed dev start (t+1) := by
  refine ⟨fun i less => ?_,fun i less => ?_⟩
  · by_cases same : i = t
    · exact same ▸ fetched
    · exact passed.fetched i (by omega)
  · by_cases same : i = t
    · exact same ▸ more
    · exact passed.more i (by omega)

theorem Passed.less (passed : Passed dev start t) (less : u ≤ t) : Passed dev start u :=
  ⟨fun i before => passed.fetched i (by omega),fun i before => passed.more i (by omega)⟩

theorem entry_stops (dev : BlockDevice) (start : Int) (i : Nat) :
    (Fetched dev (tablePos start i) ∧ tableByte dev start (32*i) ≠ nutsosFat16NomoreEntry) ∨ ∃ result, Halt dev start i result := by
  cases found : dev (sectorOf (tablePos start i)) with
  | none => exact .inr ⟨_,.silent found⟩
  | some sector =>
    have arrives : (dev (sectorOf (tablePos start i))).isSome := by rw [found]; rfl
    by_cases negative : (tablePos start i).tmod nutsosSectorSize < 0
    · exact .inr ⟨_,.outside arrives negative⟩
    · have fetched : Fetched dev (tablePos start i) := ⟨arrives,by omega⟩
      by_cases last : tableByte dev start (32*i) = nutsosFat16NomoreEntry
      · exact .inr ⟨_,.ended fetched last⟩
      · exact .inl ⟨fetched,last⟩

theorem Halt.passed_le (halt : Halt dev start t result) (passed : Passed dev start u) : u ≤ t := by
  apply Nat.le_of_not_lt
  intro less
  have fetched := passed.fetched t less
  cases halt with
  | silent none =>
    have arrives := fetched.arrives
    rw [none] at arrives
    cases arrives
  | outside _ negative =>
    have inside := fetched.inside
    omega
  | ended _ last => exact passed.more t less last

theorem Halt.result_unique (one : Halt dev start t a) (two : Halt dev start t b) : a = b := by
  cases one with
  | silent none =>
    cases two with
    | silent => rfl
    | outside arrives => rw [none] at arrives; cases arrives
    | ended fetched =>
      have arrives := fetched.arrives
      rw [none] at arrives
      cases arrives
  | outside arrives negative =>
    cases two with
    | silent none => rw [none] at arrives; cases arrives
    | outside => rfl
    | ended fetched =>
      have inside := fetched.inside
      omega
  | ended fetched =>
    cases two with
    | silent none =>
      have arrives := fetched.arrives
      rw [none] at arrives
      cases arrives
    | outside _ negative =>
      have inside := fetched.inside
      omega
    | ended => rfl

theorem tmod_sector (pos : Int) : pos.tmod nutsosSectorSize = if 0 ≤ pos ∨ (512 : Int) ∣ pos then pos%512 else pos%512-512 := by
  unfold nutsosSectorSize
  rw [Int.tmod_eq_emod]
  split <;> simp

theorem tablePos_aligned (aligned : start%512 = 0) (i : Nat) : tablePos start i%32 = 0 := by
  unfold tablePos toInt32
  split <;> omega

theorem tablePos_next (start : Int) (i : Nat) : toInt32 (tablePos start i+32) = tablePos start (i+1) := by
  unfold tablePos
  rw [toInt32_add_left]
  congr 1
  omega

theorem fetched_bounded (fetched : ∀ i < t, Fetched dev (tablePos start i)) (aligned : start%512 = 0) (low : -2147483648 ≤ start)
    (high : start < 2147483648) : start+32*(t-1 : Nat) ≤ 2147483648 ∧ (start < 0 → t ≤ 1) := by
  by_cases negative : start < 0
  · have one : t ≤ 1 := by
      apply Nat.le_of_not_lt
      intro two
      have inside := (fetched 1 two).inside
      have pos : tablePos start 1 = start+32 := by
        unfold tablePos
        exact toInt32_eq (by omega) (by omega)
      rw [pos,tmod_sector,if_neg (by omega)] at inside
      omega
    exact ⟨by omega,fun _ => one⟩
  · refine ⟨?_,fun below => absurd below negative⟩
    by_contra beyond
    -- the first entry behind the wrap of the position
    obtain ⟨i,behind⟩ : ∃ i : Nat, start+32*i = 2147483648+32 := ⟨((2147483648+32-start)/32).toNat,by omega⟩
    have inside := (fetched i (by omega)).inside
    have pos : tablePos start i = -2147483648+32 := by
      unfold tablePos
      rw [Int.natCast_mul,show ((32 : Nat) : Int) = 32 from rfl,behind]
      decide
    rw [pos] at inside
    exact absurd inside (by decide)

theorem scan_stops (dev : BlockDevice) (aligned : start%512 = 0) (low : -2147483648 ≤ start) (high : start < 2147483648) :
    ∃ t result, t < 67108872 ∧ Passed dev start t ∧ Halt dev start t result := by
  have within (n : Nat) : Passed dev start n ∨ ∃ t result, t < n ∧ Passed dev start t ∧ Halt dev start t result := by
    induction n with
    | zero => exact .inl ⟨fun i less => absurd less (Nat.not_lt_zero i),fun i less => absurd less (Nat.not_lt_zero i)⟩
    | succ n ih =>
      rcases ih with passed | ⟨t,result,less,stops⟩
      · rcases entry_stops dev start n with ⟨fetched,more⟩ | ⟨result,halt⟩
        · exact .inl (passed.next fetched more)
        · exact .inr ⟨n,result,Nat.lt_succ_self n,passed,halt⟩
      · exact .inr ⟨t,result,by omega,stops⟩
  rcases within 67108872 with passed | stops
  · obtain ⟨behind,front⟩ := fetched_bounded passed.fetched aligned low high
    omega
  · exact stops

theorem diskstreamRead_entry (dev : BlockDevice) (aligned : pos%32 = 0) : diskstreamRead dev ⟨pos⟩ 32 =
    match dev (sectorOf pos) with
    | none => .error .unbounded
    | some sector => match copySector sector 32 (pos.tmod nutsosSectorSize) with
      | .error e => .error e
      | .ok bytes => .ok (0,bytes,⟨toInt32 (pos+32)⟩) := by
  have whole : ¬ (32 : Int) > nutsosSectorSize-pos.tmod nutsosSectorSize := by
    rw [tmod_sector]
    unfold nutsosSectorSize
    split <;> omega
  have count : (32 : Int).toNat = 32 := rfl
  unfold diskstreamRead
  rw [count,diskstreamReadLoop]
  dsimp only
  rw [if_neg whole,show toUint32 (pos.tdiv nutsosSectorSize) = sectorOf pos from rfl,count]
  unfold diskReadBlock
  cases dev (sectorOf pos) with
  | none => rfl
  | some sector =>
    dsimp only
    rw [if_neg (by decide)]
    cases copySector sector 32 (pos.tmod nutsosSectorSize) with
    | error e => rfl
    | ok bytes => rfl

theorem readEntry_fetched {disk : Disk} (stands : disk.streams ptr = some ⟨pos⟩) (aligned : pos%32 = 0) (fetched : Fetched dev pos) :
    ∃ bytes, readStream dev ptr 32 disk = .ok ((0,bytes),disk.withStream ptr ⟨toInt32 (pos+32)⟩) ∧ Stdutil.charOf bytes = byteAt dev pos := by
  obtain ⟨sector,found⟩ := Option.isSome_iff_exists.mp fetched.arrives
  obtain ⟨offset,equal⟩ := Int.eq_ofNat_of_zero_le fetched.inside
  have small : offset+32 ≤ 512 := by
    have rest := tmod_sector pos
    rw [equal] at rest
    split at rest <;> omega
  have read := diskstreamRead_entry dev aligned
  rw [found,equal] at read
  dsimp only at read
  rw [copySector_eq sector 32 offset small] at read
  refine ⟨slice sector offset 32,?_,?_⟩
  · unfold readStream
    rw [bind_run (loadStream_run stands),read]
    rfl
  · unfold byteAt
    rw [found,equal]
    rfl

theorem readEntry_silent {disk : Disk} (stands : disk.streams ptr = some ⟨pos⟩) (aligned : pos%32 = 0)
    (none : dev (sectorOf pos) = none) : readStream dev ptr 32 disk = .error .unbounded := by
  have read := diskstreamRead_entry dev aligned
  rw [none] at read
  unfold readStream
  rw [bind_run (loadStream_run stands),read]
  rfl

theorem readEntry_outside {disk : Disk} (stands : disk.streams ptr = some ⟨pos⟩) (aligned : pos%32 = 0)
    (arrives : (dev (sectorOf pos)).isSome) (negative : pos.tmod nutsosSectorSize < 0) :
    readStream dev ptr 32 disk = .error (.outOfBounds (pos.tmod nutsosSectorSize)) := by
  obtain ⟨sector,found⟩ := Option.isSome_iff_exists.mp arrives
  have read := diskstreamRead_entry dev aligned
  have outside : copySector sector 32 (pos.tmod nutsosSectorSize) = .error (.outOfBounds (pos.tmod nutsosSectorSize)) :=
    if_pos (.inl negative)
  rw [found] at read
  dsimp only at read
  rw [outside] at read
  unfold readStream
  rw [bind_run (loadStream_run stands),read]
  rfl

theorem tablePos_image (small : pos+32*i < 2147483648) : tablePos (pos : Nat) i = ((pos+32*i : Nat) : Int) := by
  unfold tablePos
  rw [← Int.natCast_add]
  exact toInt32_natCast small

theorem fetched_image (image : Nat → UInt8) (small : pos+32*i < 2147483648) : Fetched (imageDevice image) (tablePos (pos : Nat) i) := by
  rw [tablePos_image small]
  exact ⟨rfl,Int.natCast_nonneg _⟩

theorem tableByte_image (image : Nat → UInt8) (small : pos+j < 2147483648) : tableByte (imageDevice image) (pos : Nat) j = image (pos+j) := by
  have byte : byteAt (imageDevice image) ((pos+j : Nat) : Int) = image ((pos+j)/512*512+(pos+j)%512) := by
    unfold byteAt
    rw [sectorOf_natCast small]
    rfl
  unfold tableByte
  rw [← Int.natCast_add,toInt32_natCast small,byte,Nat.div_add_mod']

def Counts (x : DiskProg Int) (disk : Disk) : Except Fault Int → Prop
  | .ok n => ∃ after, x disk = .ok (n,after) ∧ SameVolume disk after
  | .error e => x disk = .error e

-- The induction is on the entries that are left in front of the stop.
theorem countItems_stops (dev : BlockDevice) (aligned : start%512 = 0) (passed : Passed dev start t) (halt : Halt dev start t result)
    (fuel i count : Nat) (left : i+count = t) (enough : count < fuel) (res : Nat) {disk : Disk}
    (stands : disk.streams ptr = some ⟨tablePos start i⟩) (counted : res = liveCount (tableByte dev start) 0 i) :
    Counts (countItems dev ptr fuel res) disk result := by
  induction fuel generalizing i count res disk with
  | zero => cases enough
  | succ fuel ih =>
    have entry := tablePos_aligned aligned i
    cases count with
    | zero =>
      obtain rfl : i = t := left
      cases halt with
      | silent none =>
        have hangs := readEntry_silent stands entry none
        show countItems dev ptr (fuel+1) res disk = _
        rw [countItems,bind_fault hangs]
      | outside arrives negative =>
        have failed := readEntry_outside stands entry arrives negative
        show countItems dev ptr (fuel+1) res disk = _
        rw [countItems,bind_fault failed]
      | ended fetched last =>
        obtain ⟨bytes,read,first⟩ := readEntry_fetched stands entry fetched
        rw [show byteAt dev (tablePos start i) = _ from last] at first
        refine ⟨_,?_,withStream_same disk ptr ⟨toInt32 (tablePos start i+32)⟩⟩
        rw [countItems,bind_run read]
        dsimp only
        rw [if_neg (by decide),first,if_neg (by decide),if_pos rfl,counted]
        rfl
    | succ count =>
      obtain ⟨bytes,read,first⟩ := readEntry_fetched stands entry (passed.fetched i (by omega))
      have more : byteAt dev (tablePos start i) ≠ nutsosFat16NomoreEntry := passed.more i (by omega)
      have next : (disk.withStream ptr ⟨toInt32 (tablePos start i+32)⟩).streams ptr = some ⟨tablePos start (i+1)⟩ := by
        rw [withStream_at,tablePos_next]
      have same := withStream_same disk ptr ⟨toInt32 (tablePos start i+32)⟩
      have step : countItems dev ptr (fuel+1) res disk =
          if Deleted (tableByte dev start) i then countItems dev ptr fuel res (disk.withStream ptr ⟨toInt32 (tablePos start i+32)⟩)
          else countItems dev ptr fuel (res+1 : Nat) (disk.withStream ptr ⟨toInt32 (tablePos start i+32)⟩) := by
        rw [countItems,bind_run read]
        dsimp only
        rw [if_neg (by decide),first]
        by_cases deleted : byteAt dev (tablePos start i) = nutsosFat16UnusedEntry
        · rw [if_pos deleted]
          exact (if_pos deleted).symm
        · rw [if_neg deleted,if_neg more]
          exact (if_neg deleted).symm
      have one := liveCount_append (tableByte dev start) 0 i 1
      rw [Nat.zero_add] at one
      -- what the rest of the loop comes to, it comes to from here
      have lift {n : Nat} (rest : Counts (countItems dev ptr fuel n) (disk.withStream ptr ⟨toInt32 (tablePos start i+32)⟩) result)
          (equal : countItems dev ptr (fuel+1) res disk = countItems dev ptr fuel n (disk.withStream ptr ⟨toInt32 (tablePos start i+32)⟩)) :
          Counts (countItems dev ptr (fuel+1) res) disk result := by
        cases result with
        | error e => exact equal.trans rest
        | ok n =>
          obtain ⟨after,ran,later⟩ := rest
          exact ⟨after,equal.trans ran,same.trans later⟩
      by_cases deleted : Deleted (tableByte dev start) i
      · rw [if_pos deleted] at step
        refine lift (ih (i+1) count (by omega) (by omega) res next ?_) step
        rw [one,liveCount_deleted _ deleted]
        exact counted
      · rw [if_neg deleted] at step
        refine lift (ih (i+1) count (by omega) (by omega) (res+1) next ?_) step
        rw [one,liveCount_live _ deleted,counted]
        rfl

theorem totalItems_stops (dev : BlockDevice) {disk : Disk} (known : disk.fsPrivate = some fprivate)
    (live : (disk.streams fprivate.directoryStream).isSome) (start' : toInt32 ((sector : Nat)*disk.sectorSize) = start)
    (aligned : start%512 = 0) (passed : Passed dev start t) (halt : Halt dev start t result) (bound : t < 67108872) :
    Counts (fat16GetTotalItemsForDirectory dev sector) disk result := by
  have first : tablePos start 0 = start := by
    subst start'
    unfold tablePos
    rw [toInt32_add_left]
    exact congrArg toInt32 (Int.add_zero _)
  have stands : (disk.withStream fprivate.directoryStream ⟨start⟩).streams fprivate.directoryStream = some ⟨tablePos start 0⟩ := by
    rw [withStream_at,first]
  have counts := countItems_stops dev aligned passed halt 67108872 0 t (Nat.zero_add t) bound 0 stands rfl
  have ran : fat16GetTotalItemsForDirectory dev sector disk =
      countItems dev fprivate.directoryStream 67108872 0 (disk.withStream fprivate.directoryStream ⟨start⟩) := by
    unfold fat16GetTotalItemsForDirectory
    rw [bind_run (loadPrivate_known known),get_bind,start',bind_run (seekStream_run live _),if_neg (by decide)]
  cases result with
  | error e => exact ran.trans counts
  | ok n =>
    obtain ⟨after,counted,same⟩ := counts
    exact ⟨after,ran.trans counted,(withStream_same _ _ _).trans same⟩

end NutsOS.Fat16
