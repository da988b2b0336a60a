import NutsOS.File.Interference
import NutsOS.Lib.Runs

-- Where a file's position goes, over one seek and over any run of calls.
namespace NutsOS.Files
open Word32 HeapAlloc Fat16 DiskStreams Prog Runs

-- The call succeeds just when the target lies in the file, and then moves there.
def SeeksTo (k : Kernel) (fd : Int) (h : Handle) (offset : Int) (mode : FileSeekMode) (target : Int) : Prop :=
  ∃ res after, fseek fd offset mode k = .ok (res,after) ∧ (¬ res < 0 ↔ 0 ≤ target ∧ target < h.entry.filesize) ∧
    (¬ res < 0 → ∃ pos : Nat, target = pos ∧ HandleAt after fd h pos)

-- Modulo 2^32 no target outside the file becomes one inside.
def Unwrapped (target : Int) (filesize : Nat) : Prop :=
  (target < 0 → (filesize : Int) ≤ target+4294967296) ∧ (4294967296 ≤ target → (filesize : Int) ≤ target-4294967296)

theorem unwrapped_iff (size : filesize < 4294967296) (low : -2147483648 ≤ target) (high : target < 8589934592) :
    Unwrapped target filesize ↔ (¬ toUint32 target ≥ filesize ↔ 0 ≤ target ∧ target < filesize) := by
  unfold Unwrapped toUint32
  omega

theorem seeksTo_iff {k : Kernel} (mode : FileSeekMode) (handle : HandleAt k fd h pos) (size : h.entry.filesize < 4294967296)
    (low : -2147483648 ≤ target) (high : target < 8589934592)
    (compared : sought h.entry pos offset mode = if toUint32 target ≥ h.entry.filesize then none else some (toUint32 target))
    (error : seekError mode < 0) : SeeksTo k fd h offset mode target ↔ Unwrapped target h.entry.filesize := by
  have ran := fseek_handle handle offset mode
  rw [compared] at ran
  rw [unwrapped_iff size low high]
  by_cases beyond : toUint32 target ≥ h.entry.filesize
  · rw [if_pos beyond] at ran
    constructor
    · rintro ⟨res,after,called,fits,_⟩
      rw [ran] at called
      cases called
      rw [← fits]
      exact iff_of_false (not_not.mpr beyond) (not_not.mpr error)
    · intro fits
      have outside := fits.not.mp (not_not.mpr beyond)
      exact ⟨_,_,ran,iff_of_false (not_not.mpr error) outside,fun fine => absurd error fine⟩
  · rw [if_neg beyond] at ran
    have fine : ¬ eok < 0 := by decide
    constructor
    · rintro ⟨res,after,called,fits,_⟩
      rw [ran] at called
      cases called
      exact iff_of_true beyond (fits.mp fine)
    · intro fits
      have inside := fits.mp beyond
      refine ⟨_,_,ran,iff_of_true fine inside,fun _ => ⟨toUint32 target,?_,handle.sought _⟩⟩
      unfold toUint32
      omega

-- The offset is an int, the file size and the position are uint32_t.
structure SeekWords (entry : FatDirectoryItem) (pos : Nat) (offset : Int) : Prop where
  size : entry.filesize < 4294967296
  pos : pos < 4294967296
  low : -2147483648 ≤ offset
  high : offset < 2147483648

theorem cur_sum (words : SeekWords entry pos offset) : toUint32 ((pos : Int)+(toUint32 offset : Nat)) = toUint32 (pos+offset) := by
  obtain ⟨_,small,low,high⟩ := words
  unfold toUint32
  omega

theorem seeks_exact_iff {k : Kernel} (handle : HandleAt k fd h pos) (words : SeekWords h.entry pos offset) :
    (SeeksTo k fd h offset .cur (pos+offset) ∧ SeeksTo k fd h offset .set offset) ↔
      Unwrapped (pos+offset) h.entry.filesize ∧ Unwrapped offset h.entry.filesize := by
  obtain ⟨size,small,low,high⟩ := id words
  refine and_congr ?_ ?_
  · refine seeksTo_iff .cur handle size (by omega) (by omega) ?_ (by decide)
    unfold sought
    dsimp only
    rw [cur_sum words]
  · exact seeksTo_iff .set handle size low (by omega) rfl (by decide)

theorem unwrapped_all_iff (size : filesize < 4294967296) :
    (∀ (pos : Nat) (offset : Int), pos = 0 ∨ pos < filesize → -2147483648 ≤ offset → offset < 2147483648 →
      Unwrapped (pos+offset) filesize ∧ Unwrapped offset filesize) ↔ filesize ≤ 2147483648 := by
  unfold Unwrapped
  constructor
  · intro all
    have first := (all 0 (-2147483648) (.inl rfl) (by omega) (by omega)).2.1
    omega
  · intro small pos offset inside low high
    omega

theorem sized_opened (size : Nat) : ∃ k h, HandleAt k 1 h 0 ∧ h.entry = {sampleEntry with filesize := size} := by
  have found : entryMatches {sampleEntry with filesize := size} (partString sampleName) = true := sample_found
  obtain ⟨item,valid,root,room,empty,disk⟩ := rootKernel_valid sampleDisk samplePrivate found
    (show FatDirectoryItem.isSubdirectory sampleEntry = false by decide)
  have mounted : (rootKernel sampleDisk samplePrivate {sampleEntry with filesize := size}).disk.filesystem ≠ none := by
    rw [disk]
    simp [sampleDisk,fatDisk]
  obtain ⟨ptr,after,_,_,nonnull,⟨_,held,file⟩,table,_⟩ :=
    fopen_file_run 131063 valid sample_component root mounted (first_lowest empty) room (fun _ => none)
  have slot : after.fileDescriptors 0 = ptr := by
    rw [table]
    rfl
  have opened : OpenFile after 1 0 {sampleEntry with filesize := size} :=
    openFile_of_slot (i := 0) (by decide) (by rw [slot]; exact nonnull) (by rw [slot]; exact ⟨_,_,_,held,file⟩)
  obtain ⟨h,entry,handle⟩ := opened.handle
  exact ⟨after,h,handle,entry⟩

theorem small_file_seeks : ∃ k h, HandleAt k 1 h 0 ∧ SeeksTo k 1 h (-1) .cur (-1) ∧ SeeksTo k 1 h (-1) .set (-1) := by
  obtain ⟨k,h,handle,entry⟩ := sized_opened 1024
  have size : h.entry.filesize = 1024 := by rw [entry]
  obtain ⟨cur,set⟩ := (seeks_exact_iff handle (⟨by omega,by decide,by decide,by decide⟩ : SeekWords h.entry 0 (-1))).mpr
    (by rw [size]; unfold Unwrapped; decide)
  exact ⟨k,h,handle,cur,set⟩

-- A file of 4 GB less a byte: fseek(fd,-2,SEEK_SET) goes to its last byte.
theorem large_file_wraps : ∃ k h, HandleAt k 1 h 0 ∧ h.entry.filesize = 0xFFFFFFFF ∧ ¬ SeeksTo k 1 h (-2) .set (-2) := by
  obtain ⟨k,h,handle,entry⟩ := sized_opened 0xFFFFFFFF
  have size : h.entry.filesize = 0xFFFFFFFF := by rw [entry]
  refine ⟨k,h,handle,size,fun seeks => ?_⟩
  have unwrapped := (seeksTo_iff .set handle (by omega) (by decide) (by decide) rfl (by decide)).mp seeks
  rw [size] at unwrapped
  exact absurd (unwrapped.1 (by decide)) (by decide)

-- The descriptor's position lies in the file, or at its start.
structure Inside (fd : Int) (entry : FatDirectoryItem) (k : Kernel) : Prop where
  held : ∃ pos, OpenFile k fd pos entry ∧ (pos = 0 ∨ pos < entry.filesize)

def CallStep (dev : BlockDevice) (fd : Int) (k : Kernel) (action : FileCall × FileAnswer) (after : Kernel) : Prop :=
  action.1.on dev fd k = .ok (action.2,after)

def SeekKept (fd : Int) (entry : FatDirectoryItem) (k : Kernel) (action : FileCall × FileAnswer) (after : Kernel) : Prop :=
  ∀ res, action.2 = .fseek res → res < 0 → ∀ pos, OpenFile k fd pos entry → OpenFile after fd pos entry

theorem sought_inside (moved : sought entry pos offset mode = some next) : next < entry.filesize := by
  unfold sought at moved
  cases mode with
  | set =>
    by_cases beyond : toUint32 offset ≥ entry.filesize
    · simp [beyond] at moved
    · simp only [if_neg beyond] at moved
      cases moved
      omega
  | cur =>
    by_cases beyond : toUint32 (pos+toUint32 offset) ≥ entry.filesize
    · simp [beyond] at moved
    · simp only [if_neg beyond] at moved
      cases moved
      omega
  | seekEnd => cases moved
  | other => cases moved

theorem call_position {k : Kernel} (handle : HandleAt k fd h pos) (step : CallStep dev fd k (call,answer) after) :
    HandleAt after fd h pos ∨ (answer = .fseek eok ∧ ∃ next, next < h.entry.filesize ∧ HandleAt after fd h next) := by
  unfold CallStep at step
  cases call with
  | fread size nmemb =>
    obtain ⟨result,one,read,ran⟩ := bind_ok.mp step
    cases ran
    rw [fread_handle handle] at read
    split at read
    · cases read
      exact .inl handle
    · exact .inl (handle.only_disk (readItems_only _ _ _ _ _ _ _ _ read))
  | fseek offset mode =>
    obtain ⟨result,one,moved,ran⟩ := bind_ok.mp step
    cases ran
    rw [fseek_handle handle] at moved
    cases target : sought h.entry pos offset mode with
    | none =>
      rw [target] at moved
      cases moved
      exact .inl handle
    | some next =>
      rw [target] at moved
      cases moved
      exact .inr ⟨rfl,next,sought_inside target,handle.sought next⟩
  | fstat =>
    obtain ⟨result,one,told,ran⟩ := bind_ok.mp step
    cases ran
    rw [fstat_handle handle] at told
    cases told
    exact .inl handle

theorem HandleAt.opens {k : Kernel} (handle : HandleAt k fd h pos) (entry : h.entry = e) : OpenFile k fd pos e := by
  rw [← entry]
  exact handle.openFile

theorem inside_step {k : Kernel} (inside : Inside fd entry k) (step : CallStep dev fd k action after) : Inside fd entry after := by
  obtain ⟨pos,opened,place⟩ := inside.held
  obtain ⟨h,same,handle⟩ := opened.handle
  rcases call_position handle step with stays | ⟨_,next,low,moved⟩
  · exact ⟨pos,stays.opens same,place⟩
  · exact ⟨next,moved.opens same,.inr (same ▸ low)⟩

theorem seek_kept_step {k : Kernel} (step : CallStep dev fd k action after) : SeekKept fd entry k action after := by
  intro res answered failed pos opened
  obtain ⟨h,same,handle⟩ := opened.handle
  rcases call_position handle step with stays | ⟨fine,_⟩
  · exact stays.opens same
  · rw [answered] at fine
    cases fine
    exact absurd failed (by decide)

theorem position_stays_inside {k : Kernel} (opened : OpenFile k fd 0 entry) (ran : IsRun (CallStep dev fd) k trace) :
    Always (Inside fd entry) k trace ∧ Each (SeekKept fd entry) k trace :=
  ⟨kept_always (fun _ _ _ inside step => inside_step inside step) (fun _ inside => inside) ⟨0,opened,.inl rfl⟩ ran,
    invariant_each (fun _ _ _ (_ : True) _ => trivial) (fun _ _ _ _ step => seek_kept_step step) trivial ran⟩

theorem three_seeks : ∃ k, OpenFile k 1 0 sampleEntry ∧ ∃ trace, IsRun (CallStep (fun _ => none) 1) k trace ∧
    trace.map Prod.fst = [(.fseek 5 .set,.fseek 0),(.fseek 1019 .cur,.fseek (-eio)),(.fseek 0 .other,.fseek (-einvarg))] ∧
    Always (Inside 1 sampleEntry) k trace ∧ Each (SeekKept 1 sampleEntry) k trace := by
  obtain ⟨k,h,handle,entry⟩ := sized_opened 1024
  have opened : OpenFile k 1 0 sampleEntry := handle.opens entry
  have moved := handle.sought 5
  have one : CallStep (fun _ => none) 1 k (.fseek 5 .set,.fseek 0) (k.place h.fprivate (.fatFileDescriptor ⟨h.item,5⟩)) := by
    refine bind_run (x := fseek 1 5 .set) ?_
    rw [fseek_handle handle,entry]
    rfl
  have two : CallStep (fun _ => none) 1 (k.place h.fprivate (.fatFileDescriptor ⟨h.item,5⟩)) (.fseek 1019 .cur,.fseek (-eio))
      (k.place h.fprivate (.fatFileDescriptor ⟨h.item,5⟩)) := by
    refine bind_run (x := fseek 1 1019 .cur) ?_
    rw [fseek_handle moved,entry]
    rfl
  have three : CallStep (fun _ => none) 1 (k.place h.fprivate (.fatFileDescriptor ⟨h.item,5⟩)) (.fseek 0 .other,.fseek (-einvarg))
      (k.place h.fprivate (.fatFileDescriptor ⟨h.item,5⟩)) := by
    refine bind_run (x := fseek 1 0 .other) ?_
    rw [fseek_handle moved]
    rfl
  have ran : IsRun (CallStep (fun _ => none) 1) k [(_,_),(_,_),(_,_)] := ⟨one,two,three,trivial⟩
  obtain ⟨always,each⟩ := position_stays_inside opened ran
  exact ⟨k,opened,_,ran,rfl,always,each⟩

end NutsOS.Files
