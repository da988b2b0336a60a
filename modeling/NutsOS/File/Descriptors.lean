import NutsOS.File.Table

-- The numbers that fopen hands out, at both ends of the table.
namespace NutsOS.Files
open Word32 HeapAlloc Fat16 DiskStreams Stdutil Prog Runs

def LeadsBack (k : Kernel) (ptr : Nat) : Prop :=
  ∃ desc, k.objs ptr = some (.fileDescriptor desc) ∧ fileGetDescriptor k desc.index = ptr

-- The lookup has one slot less than the table.
theorem slot_looked_up (k : Kernel) (i : Nat) :
    fileGetDescriptor k ((i : Int)+1) = if i+1 < nutsosMaxFileDescriptors then k.fileDescriptors i else 0 := by
  unfold fileGetDescriptor
  by_cases last : i+1 < nutsosMaxFileDescriptors
  · rw [if_pos last,if_neg (by omega),Int.add_sub_cancel]
    rfl
  · rw [if_neg last,if_pos (.inr (by omega))]

theorem granted_leads_back {k : Kernel} (nonnull : ptr ≠ 0)
    (held : k.objs ptr = some (.fileDescriptor ⟨(i : Nat)+1,system,fprivate,mode,disk⟩)) (slot : k.fileDescriptors i = ptr) :
    LeadsBack k ptr ↔ i+1 < nutsosMaxFileDescriptors := by
  have number : fileGetDescriptor k ((i : Int)+1) = ptr ↔ i+1 < nutsosMaxFileDescriptors := by
    rw [slot_looked_up]
    by_cases last : i+1 < nutsosMaxFileDescriptors
    · rw [if_pos last]
      exact iff_of_true slot last
    · rw [if_neg last]
      exact iff_of_false (Ne.symm nonnull) last
  rw [← number]
  constructor
  · rintro ⟨desc,present,back⟩
    cases held.symm.trans present
    exact back
  · exact fun back => ⟨_,held,back⟩

theorem fopen_leads_back {k : Kernel} (valid : HeapValid k) (ran : fopen dev filename modeStr k = .ok (ptr,after)) (nonnull : ptr ≠ 0) :
    LeadsBack after ptr ↔ ∃ i, i+1 < nutsosMaxFileDescriptors ∧ k.fileDescriptors i = 0 := by
  obtain ⟨_,opening⟩ := fopen_grown valid ran
  cases opening with
  | refused null => exact absurd null nonnull
  | @granted i _ _ _ lowest held table =>
    have slot : after.fileDescriptors i = ptr := by
      rw [table]
      exact if_pos rfl
    rw [granted_leads_back nonnull held slot]
    constructor
    · exact fun inside => ⟨i,inside,lowest.free⟩
    · rintro ⟨j,inside,free⟩
      -- the slot taken is the lowest free one
      have order : ¬ j < i := fun below => lowest.taken j below free
      omega

-- A kernel in which the slots from i on are free, and the sample file can be
-- opened `n` times.
structure CanOpen (k : Kernel) (i n : Nat) : Prop where
  valid : HeapValid k
  root : RootFile k (partString sampleName) sampleEntry
  mounted : k.disk.filesystem ≠ none
  taken : ∀ j, j < i → k.fileDescriptors j ≠ 0
  free : ∀ j, i ≤ j → k.fileDescriptors j = 0
  room : ∃ rest, Room k.heap (8*n+rest)

theorem CanOpen.lowest {k : Kernel} (can : CanOpen k i n) (inside : i < nutsosMaxFileDescriptors) : Lowest k i :=
  ⟨inside,can.free i (Nat.le_refl i),can.taken⟩

theorem CanOpen.fopen {k : Kernel} (can : CanOpen k i (n+1)) (inside : i < nutsosMaxFileDescriptors) (dev : BlockDevice) :
    ∃ ptr after, Files.fopen dev (pathOf asciiZero sampleName) [charR] k = .ok (ptr,after) ∧ ptr ≠ 0 ∧ CanOpen after (i+1) n := by
  have lowest := can.lowest inside
  obtain ⟨valid,root,mounted,taken,free,rest,room⟩ := can
  rw [show 8*(n+1)+rest = 8+(8*n+rest) by omega] at room
  obtain ⟨ptr,after,ran,grown,nonnull,_,table,left⟩ := fopen_file_run _ valid sample_component root mounted lowest room dev
  refine ⟨ptr,after,ran,nonnull,grown.valid,root.kept grown.volume grown.kept,by rw [grown.volume.filesystem]; exact mounted,
    fun j earlier => ?_,fun j later => ?_,rest,left⟩
  · rw [table]
    by_cases here : j = i
    · exact (if_pos here).trans_ne nonnull
    · exact (if_neg here).trans_ne (taken j (by omega))
  · rw [table]
    exact (if_neg (by omega)).trans (free j (by omega))

theorem opened_again (n : Nat) (s : FileRun) (alive : s.fault = none) (can : CanOpen s.kernel i (n+m)) (inside : i+n ≤ nutsosMaxFileDescriptors)
    (dev : BlockDevice) : ∃ trace, IsRun (FileStep dev) s trace ∧ CanOpen (final s trace).kernel (i+n) m := by
  induction n generalizing s i with
  | zero =>
    rw [Nat.zero_add] at can
    exact ⟨[],trivial,can⟩
  | succ n ih =>
    rw [Nat.add_right_comm] at can
    obtain ⟨ptr,after,ran,_,next⟩ := can.fopen (by omega) dev
    obtain ⟨trace,rest,last⟩ := ih ⟨after,handOut after ptr s.opened,none⟩ rfl next (by omega)
    refine ⟨(_,_)::trace,⟨.fopen alive ran,rest⟩,?_⟩
    rw [show i+(n+1) = i+1+n by omega]
    exact last

theorem sample_can_open (small : n ≤ nutsosMaxFileDescriptors) : CanOpen sampleKernel 0 n := by
  obtain ⟨item,valid,root,room,empty,disk⟩ := rootKernel_valid sampleDisk samplePrivate sample_found rfl
  refine ⟨valid,root,?_,fun j earlier => absurd earlier (Nat.not_lt_zero j),fun j _ => empty j,131071-8*n,?_⟩
  · unfold sampleKernel
    rw [disk]
    simp [sampleDisk,fatDisk]
  · unfold nutsosMaxFileDescriptors at small
    rw [show 8*n+(131071-8*n) = 131071 by omega]
    exact room

theorem first_descriptor_leads_back : ∃ ptr after,
    fopen (fun _ => none) (pathOf asciiZero sampleName) [charR] sampleKernel = .ok (ptr,after) ∧ LeadsBack after ptr := by
  have can := sample_can_open (n := 1) (by decide)
  obtain ⟨ptr,after,ran,nonnull,_⟩ := can.fopen (by decide) (fun _ => none)
  exact ⟨ptr,after,ran,(fopen_leads_back can.valid ran nonnull).mpr ⟨0,by decide,can.free 0 (Nat.le_refl 0)⟩⟩

-- With 1023 files open one more is handed out, and every call on it fails.
theorem last_descriptor_lost : ∃ trace ptr after, IsRun (FileStep (fun _ => none)) (.start sampleKernel) trace ∧
    fopen (fun _ => none) (pathOf asciiZero sampleName) [charR] (final (FileRun.start sampleKernel) trace).kernel = .ok (ptr,after) ∧
    ptr ≠ 0 ∧ ¬ LeadsBack after ptr ∧ Rejected (fun _ => none) after 1024 := by
  obtain ⟨trace,ran,can⟩ := opened_again (m := 1) 1023 (.start sampleKernel) rfl (sample_can_open (n := 1024) (by decide)) (by decide)
    (fun _ => none)
  have lowest := can.lowest (by decide)
  obtain ⟨ptr,after,called,nonnull,_⟩ := can.fopen (by decide) (fun _ => none)
  have unused : fileGetDescriptor after 1024 = 0 := slot_looked_up after 1023
  refine ⟨trace,ptr,after,ran,called,nonnull,?_,rejected_of_free unused _⟩
  rintro ⟨desc,held,back⟩
  obtain ⟨_,opening⟩ := fopen_grown can.valid called
  cases opening with
  | refused null => exact nonnull null
  | @granted i _ _ _ lowest' held' _ =>
    -- the slot is the last one
    have least : ¬ i < 0+1023 := fun below => can.taken i below lowest'.free
    have inside := lowest'.inside
    unfold nutsosMaxFileDescriptors at inside
    obtain rfl : i = 1023 := by omega
    cases held.symm.trans held'
    exact nonnull (back.symm.trans unused)

end NutsOS.Files
