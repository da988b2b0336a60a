import NutsOS.Fat16.Loads
import NutsOS.Fat16.Tally

-- A subdirectory counted over consecutive sectors, against its cluster chain.
namespace NutsOS.Fat16
open Word32 Bytes DiskStreams Prog

-- How many clusters of a chain follow each other on the disk from the first on.
def runLength : Nat → List Nat → Nat
  | _,[] => 1
  | c,d::rest => if d = c+1 then runLength d rest+1 else 1

theorem runLength_positive (c : Nat) (rest : List Nat) : 1 ≤ runLength c rest := by
  cases rest with
  | nil => exact Nat.le_refl 1
  | cons d rest =>
    rw [runLength]
    split <;> omega

theorem runLength_le (c : Nat) (rest : List Nat) : runLength c rest ≤ (c::rest).length := by
  induction rest generalizing c with
  | nil => exact Nat.le_refl 1
  | cons d rest ih =>
    have later := ih d
    simp only [List.length_cons] at later ⊢
    rw [runLength]
    split <;> omega

theorem runLength_get (c : Nat) (rest : List Nat) (inRun : i < runLength c rest) : (c::rest)[i]? = some (c+i) := by
  induction rest generalizing c i with
  | nil =>
    obtain rfl : i = 0 := Nat.lt_one_iff.mp inRun
    rfl
  | cons d rest ih =>
    rw [runLength] at inRun
    cases i with
    | zero => rfl
    | succ i =>
      by_cases next : d = c+1
      · rw [if_pos next] at inRun
        rw [List.getElem?_cons_succ,ih d (by omega),next,Nat.add_right_comm,Nat.add_assoc]
      · rw [if_neg next] at inRun
        omega

-- A subdirectory along its chain: its entries end at index t, with a terminator
-- or with the last cluster.
structure ChainTable (image : Nat → UInt8) (disk : Disk) (fprivate : FatPrivate) (start : Nat) (rest : List Nat) (t : Nat) : Prop where
  mounted : Mounted disk fprivate
  sized : disk.sectorSize = nutsosSectorSize
  positive : 0 < clusterSize fprivate
  chain : FileChain image fprivate (start::rest)
  fits : Addressable disk fprivate (start::rest)
  before : ∀ i < t, fileByte image disk fprivate (start::rest) (32*i) ≠ nutsosFat16NomoreEntry
  inside : 32*t ≤ (start::rest).length*clusterSize fprivate
  last : 32*t < (start::rest).length*clusterSize fprivate → fileByte image disk fprivate (start::rest) (32*t) = nutsosFat16NomoreEntry

def runEntries (fprivate : FatPrivate) (start : Nat) (rest : List Nat) : Nat := runLength start rest*(clusterSize fprivate/32)

-- The entries end inside that run; or what follows the run on the disk has up to
-- its first terminator as many live entries as what follows it along the chain.
def TailsAgree (image : Nat → UInt8) (disk : Disk) (fprivate : FatPrivate) (start : Nat) (rest : List Nat) (t : Nat) : Prop :=
  t < runEntries fprivate start rest ∨
    ∃ s, runEntries fprivate start rest ≤ s ∧ Passed (imageDevice image) (clusterAddress disk fprivate start : Nat) s ∧
      Fetched (imageDevice image) (tablePos (clusterAddress disk fprivate start : Nat) s) ∧
      tableByte (imageDevice image) (clusterAddress disk fprivate start : Nat) (32*s) = nutsosFat16NomoreEntry ∧
      liveCount (tableByte (imageDevice image) (clusterAddress disk fprivate start : Nat)) (runEntries fprivate start rest)
          (s-runEntries fprivate start rest) =
        liveCount (fileByte image disk fprivate (start::rest)) (runEntries fprivate start rest) (t-runEntries fprivate start rest)

def liveEntries (image : Nat → UInt8) (disk : Disk) (fprivate : FatPrivate) (start : Nat) (rest : List Nat) (t : Nat) : Nat :=
  liveCount (fileByte image disk fprivate (start::rest)) 0 t

def CountsChain (image : Nat → UInt8) (disk : Disk) (fprivate : FatPrivate) (start : Nat) (rest : List Nat) (t : Nat) : Prop :=
  ∃ after, fat16GetTotalItemsForDirectory (imageDevice image) (toUint32 (fat16ClusterToSector fprivate (start : Nat))) disk =
    .ok ((liveEntries image disk fprivate start rest t : Nat),after)

def LoadsCounted (image : Nat → UInt8) (disk : Disk) (fprivate : FatPrivate) (start : Nat) (rest : List Nat) (t : Nat) : Prop :=
  liveEntries image disk fprivate start rest t ≠ 0 →
    ∃ after, fat16ReadInternal (imageDevice image) (start : Nat) 0 (32*liveEntries image disk fprivate start rest t : Nat) disk =
      .ok ((eok,slice image (clusterAddress disk fprivate start) (32*liveEntries image disk fprivate start rest t)),after)

section
variable {image : Nat → UInt8} {disk : Disk} {fprivate : FatPrivate} {start : Nat} {rest : List Nat} {t : Nat}

theorem ChainTable.cluster (sub : ChainTable image disk fprivate start rest t) :
    clusterSize fprivate = fprivate.primaryHeader.sectorsPerCluster*512 := by
  have size := sub.mounted.cluster
  rw [sub.sized] at size
  unfold clusterSize
  rw [size]
  unfold nutsosSectorSize
  omega

theorem ChainTable.whole (sub : ChainTable image disk fprivate start rest t) : 32*(clusterSize fprivate/32) = clusterSize fprivate := by
  rw [sub.cluster]
  omega

theorem ChainTable.run_bytes (sub : ChainTable image disk fprivate start rest t) :
    32*runEntries fprivate start rest = runLength start rest*clusterSize fprivate := by
  unfold runEntries
  rw [Nat.mul_left_comm,sub.whole]

theorem ChainTable.low (sub : ChainTable image disk fprivate start rest t) : 2 ≤ start :=
  (sub.chain.data start List.mem_cons_self).1

theorem ChainTable.address (sub : ChainTable image disk fprivate start rest t) (i : Nat) :
    clusterAddress disk fprivate (start+i) = clusterAddress disk fprivate start+i*clusterSize fprivate := by
  have low := sub.low
  unfold clusterAddress
  rw [sub.cluster,sub.sized,show start+i-2 = start-2+i by omega,show nutsosSectorSize.toNat = 512 from rfl]
  ring

theorem ChainTable.start_aligned (sub : ChainTable image disk fprivate start rest t) : ((clusterAddress disk fprivate start : Nat) : Int)%512 = 0 := by
  unfold clusterAddress
  rw [sub.sized,show nutsosSectorSize.toNat = 512 from rfl]
  omega

theorem ChainTable.run_fits (sub : ChainTable image disk fprivate start rest t) :
    clusterAddress disk fprivate start+32*runEntries fprivate start rest ≤ 2147483648 := by
  have positive := runLength_positive start rest
  have found := runLength_get start rest (i := runLength start rest-1) (by omega)
  have fits := sub.fits.data _ (List.mem_of_getElem? found)
  rw [sub.address] at fits
  have split : runLength start rest*clusterSize fprivate = (runLength start rest-1)*clusterSize fprivate+clusterSize fprivate := by
    rw [← Nat.succ_mul,Nat.succ_eq_add_one,Nat.sub_add_cancel positive]
  rw [sub.run_bytes]
  omega

theorem ChainTable.run_byte (sub : ChainTable image disk fprivate start rest t) (inRun : j < 32*runEntries fprivate start rest) :
    fileByte image disk fprivate (start::rest) j = image (clusterAddress disk fprivate start+j) := by
  rw [sub.run_bytes] at inRun
  have index : j/clusterSize fprivate < runLength start rest := (Nat.div_lt_iff_lt_mul sub.positive).mpr inRun
  have cluster : (start::rest).getD (j/clusterSize fprivate) 0 = start+j/clusterSize fprivate := by
    rw [List.getD_eq_getElem?_getD,runLength_get start rest index]
    rfl
  unfold fileByte chainAddress
  rw [cluster,sub.address,Nat.add_assoc,Nat.div_add_mod']

theorem ChainTable.run_table (sub : ChainTable image disk fprivate start rest t) (inRun : i < runEntries fprivate start rest) :
    tableByte (imageDevice image) (clusterAddress disk fprivate start : Nat) (32*i) = fileByte image disk fprivate (start::rest) (32*i) := by
  have fits := sub.run_fits
  rw [tableByte_image image (by omega),sub.run_byte (by omega)]

theorem ChainTable.run_fetched (sub : ChainTable image disk fprivate start rest t) (inRun : i < runEntries fprivate start rest) :
    Fetched (imageDevice image) (tablePos (clusterAddress disk fprivate start : Nat) i) := by
  have fits := sub.run_fits
  exact fetched_image image (by omega)

theorem ChainTable.run_passed (sub : ChainTable image disk fprivate start rest t) (behind : n ≤ t) (inRun : n ≤ runEntries fprivate start rest) :
    Passed (imageDevice image) (clusterAddress disk fprivate start : Nat) n := by
  refine ⟨fun i less => sub.run_fetched (by omega),fun i less => ?_⟩
  rw [sub.run_table (by omega)]
  exact sub.before i (by omega)

theorem Counts.iff (counts : Counts x disk result) : (∃ after, x disk = .ok (n,after)) ↔ result = .ok n := by
  cases result with
  | error e =>
    have failed : x disk = .error e := counts
    constructor
    · rintro ⟨after,ran⟩
      rw [failed] at ran
      cases ran
    · intro equal
      cases equal
  | ok m =>
    obtain ⟨after,ran,_⟩ := counts
    constructor
    · rintro ⟨other,again⟩
      rw [ran] at again
      cases again
      rfl
    · intro equal
      cases equal
      exact ⟨after,ran⟩

theorem counts_chain_iff (sub : ChainTable image disk fprivate start rest t) :
    CountsChain image disk fprivate start rest t ↔ TailsAgree image disk fprivate start rest t := by
  have mounted := sub.mounted
  have live := mounted.streams fprivate.directoryStream (by simp)
  obtain ⟨low,small⟩ := sub.chain.data start List.mem_cons_self
  have fits := sub.fits.data start List.mem_cons_self
  have high : clusterAddress disk fprivate start < 2147483648 := by have positive := sub.positive; omega
  have sector := clusterSector_address mounted low small high
  obtain ⟨s,result,bound,passed,halt⟩ := scan_stops (imageDevice image) sub.start_aligned (by omega) (by omega)
  have counts := totalItems_stops (imageDevice image) mounted.private_eq live sector sub.start_aligned passed halt bound
  by_cases early : t < runEntries fprivate start rest
  · -- the terminator stands in the run, and the loop ends on it
    have inside : 32*t < (start::rest).length*clusterSize fprivate := by
      have run := sub.run_bytes
      have less := Nat.mul_le_mul_right (clusterSize fprivate) (runLength_le start rest)
      omega
    have ended := Halt.ended (sub.run_fetched early) ((sub.run_table early).trans (sub.last inside))
    obtain rfl : s = t := Nat.le_antisymm (ended.passed_le passed) (halt.passed_le (sub.run_passed (Nat.le_refl t) (Nat.le_of_lt early)))
    have same : liveCount (tableByte (imageDevice image) (clusterAddress disk fprivate start : Nat)) 0 s =
        liveCount (fileByte image disk fprivate (start::rest)) 0 s :=
      liveCount_congr (fun j _ less => sub.run_table (by omega))
    rw [same] at ended
    exact ⟨fun _ => .inl early,fun _ => counts.iff.mpr (halt.result_unique ended)⟩
  · have behind : runEntries fprivate start rest ≤ t := Nat.le_of_not_lt early
    have beyond := halt.passed_le (sub.run_passed behind (Nat.le_refl _))
    have front : liveCount (tableByte (imageDevice image) (clusterAddress disk fprivate start : Nat)) 0 (runEntries fprivate start rest) =
        liveCount (fileByte image disk fprivate (start::rest)) 0 (runEntries fprivate start rest) :=
      liveCount_congr (fun j _ less => sub.run_table (by omega))
    -- both counts are that of the run and that of what follows it
    have parts (byte : Nat → UInt8) {n : Nat} (less : runEntries fprivate start rest ≤ n) : liveCount byte 0 n =
        liveCount byte 0 (runEntries fprivate start rest)+
          liveCount byte (runEntries fprivate start rest) (n-runEntries fprivate start rest) := by
      have whole := liveCount_append byte 0 (runEntries fprivate start rest) (n-runEntries fprivate start rest)
      rw [Nat.zero_add,Nat.add_sub_cancel' less] at whole
      exact whole
    refine counts.iff.trans ⟨fun equal => ?_,fun agree => ?_⟩
    · unfold liveEntries at equal
      rw [equal] at halt
      generalize total : ((liveCount (fileByte image disk fprivate (start::rest)) 0 t : Nat) : Int) = n at halt
      cases halt with
      | ended fetched last =>
        refine .inr ⟨s,beyond,passed,fetched,last,?_⟩
        have first := parts (tableByte (imageDevice image) (clusterAddress disk fprivate start : Nat)) beyond
        have second := parts (fileByte image disk fprivate (start::rest)) behind
        omega
    · obtain ⟨u,after,through,fetched,last,tails⟩ := agree.resolve_left early
      have ended := Halt.ended fetched last
      obtain rfl : u = s := Nat.le_antisymm (halt.passed_le through) (ended.passed_le passed)
      rw [halt.result_unique ended,parts _ after,front,tails,← parts _ behind]
      rfl

-- The recursion of the load lands on clusters of the chain that hold the bytes
-- which were counted.
def LandsCounted (image : Nat → UInt8) (disk : Disk) (fprivate : FatPrivate) (start : Nat) (rest : List Nat) (t : Nat) : Prop :=
  ∀ j < 32*liveEntries image disk fprivate start rest t, landedIndex fprivate 0 0 j < (start::rest).length ∧
    landedByte image disk fprivate (start::rest) 0 0 j = image (clusterAddress disk fprivate start+j)

theorem ChainTable.live_inside (sub : ChainTable image disk fprivate start rest t) :
    32*liveEntries image disk fprivate start rest t ≤ (start::rest).length*clusterSize fprivate := by
  have most := liveCount_le (fileByte image disk fprivate (start::rest)) 0 t
  have inside := sub.inside
  unfold liveEntries
  omega

theorem loads_counted_iff (sub : ChainTable image disk fprivate start rest t) :
    LoadsCounted image disk fprivate start rest t ↔ LandsCounted image disk fprivate start rest t := by
  have within := Nat.le_trans sub.live_inside (chain_length sub.mounted sub.chain sub.fits.data)
  unfold LoadsCounted LandsCounted
  generalize liveEntries image disk fprivate start rest t = n at *
  by_cases none : n = 0
  · subst none
    exact ⟨fun _ j less => absurd less (Nat.not_lt_zero j),fun _ some => absurd rfl some⟩
  · obtain ⟨after,res,bytes,read,_,outcome,_⟩ := fat16ReadInternal_lands 0 (32*n) image sub.mounted sub.chain sub.fits (by omega)
      sub.positive (by omega)
    have exact' : (res = eok ∧ bytes = slice (fun j => image (clusterAddress disk fprivate start+j)) 0 (32*n)) ↔ _ := outcome.exact
    rw [slice_shift,Nat.add_zero,Nat.zero_div,Nat.zero_add] at exact'
    have loads : (n ≠ 0 → ∃ after, fat16ReadInternal (imageDevice image) (start : Nat) 0 (32*n : Nat) disk =
        .ok ((eok,slice image (clusterAddress disk fprivate start) (32*n)),after)) ↔
          res = eok ∧ bytes = slice image (clusterAddress disk fprivate start) (32*n) := by
      constructor
      · intro loaded
        obtain ⟨_,again⟩ := loaded none
        cases read.symm.trans again
        exact ⟨rfl,rfl⟩
      · rintro ⟨rfl,rfl⟩ _
        exact ⟨after,read⟩
    rw [loads,exact']
    exact ⟨fun all j less => all j (Nat.zero_le j) less,fun all j _ less => all j less⟩

theorem directory_traversals_agree (sub : ChainTable image disk fprivate start rest t) :
    CountsChain image disk fprivate start rest t ∧ LoadsCounted image disk fprivate start rest t ↔
      TailsAgree image disk fprivate start rest t ∧ LandsCounted image disk fprivate start rest t :=
  and_congr (counts_chain_iff sub) (loads_counted_iff sub)

theorem ChainTable.lands_early (sub : ChainTable image disk fprivate start rest t)
    (inRun : liveEntries image disk fprivate start rest t ≤ runEntries fprivate start rest)
    (early : 32*liveEntries image disk fprivate start rest t ≤ 2*clusterSize fprivate) : LandsCounted image disk fprivate start rest t := by
  intro j less
  have inside := sub.live_inside
  have index : j/clusterSize fprivate < 2 := Nat.div_lt_of_lt_mul (by rw [Nat.mul_comm]; omega)
  have lands : LandsRight image disk fprivate (start::rest) (0/clusterSize fprivate) j :=
    lands_right_early (by omega) (by rw [Nat.zero_div]; generalize j/clusterSize fprivate = i at index; omega)
  rw [Nat.zero_div] at lands
  exact ⟨lands.1,lands.2.trans (sub.run_byte (by omega))⟩

end

-- A directory of 17 entries in two clusters of 512 bytes; the second one is the
-- given cluster, 3 or 4.
def twoClusters (second : Nat) (pos : Nat) : UInt8 :=
  if pos = 4 then UInt8.ofNat second else if pos = 2*second ∨ pos = 2*second+1 then 0xFF
  else if 512 ≤ pos ∧ pos < 1024 ∨ (second-1)*512 ≤ pos ∧ pos < (second-1)*512+32 then 0x41 else 0

theorem contiguous_table : ChainTable (twoClusters 3) threeDisk threePrivate 2 [3] 17 where
  mounted := three_mounted
  sized := rfl
  positive := by decide
  chain := ⟨⟨by decide,show nextCluster (twoClusters 3) threePrivate 3 = none by decide⟩,by decide,by decide⟩
  fits := ⟨by decide,by decide⟩
  before := by decide
  inside := by decide
  last := fun _ => by decide

theorem fragmented_table : ChainTable (twoClusters 4) threeDisk threePrivate 2 [4] 17 where
  mounted := three_mounted
  sized := rfl
  positive := by decide
  chain := ⟨⟨by decide,show nextCluster (twoClusters 4) threePrivate 4 = none by decide⟩,by decide,by decide⟩
  fits := ⟨by decide,by decide⟩
  before := by decide
  inside := by decide
  last := fun _ => by decide

theorem contiguous_agree : CountsChain (twoClusters 3) threeDisk threePrivate 2 [3] 17 ∧
    LoadsCounted (twoClusters 3) threeDisk threePrivate 2 [3] 17 :=
  (directory_traversals_agree contiguous_table).mpr ⟨.inl (by decide),contiguous_table.lands_early (by decide) (by decide)⟩

theorem fragmented_miscounted : ChainTable (twoClusters 4) threeDisk threePrivate 2 [4] 17 ∧
    ¬ CountsChain (twoClusters 4) threeDisk threePrivate 2 [4] 17 := by
  refine ⟨fragmented_table,fun counts => ?_⟩
  rcases (counts_chain_iff fragmented_table).mp counts with early | ⟨s,behind,passed,_,_,tails⟩
  · exact absurd early (by decide)
  · have zero : tableByte (imageDevice (twoClusters 4)) ((512 : Nat) : Int) (32*16) = nutsosFat16NomoreEntry :=
      tableByte_image (twoClusters 4) (by decide)
    have run : runEntries threePrivate 2 [4] = 16 := by decide
    rw [run] at behind tails
    obtain rfl : s = 16 := by
      apply Nat.le_antisymm (Nat.le_of_not_lt (fun later => passed.more 16 later zero)) behind
    exact absurd tails (by decide)

end NutsOS.Fat16
