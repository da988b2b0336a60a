import NutsOS.File.Open
import NutsOS.File.Steps
import NutsOS.Fat16.RootFile
import NutsOS.Lib.Runs

-- The descriptor table over runs of fopen and fclose.
namespace NutsOS.Files
open Word32 HeapAlloc Fat16 DiskStreams Stdutil Prog Runs

-- `opened` is what the callers know: the descriptor of every slot that was
-- handed out and not closed since. `fault` is set once a call has faulted.
structure FileRun where
  kernel : Kernel
  opened : Nat → Nat
  fault : Option Fault

inductive FileAction where
  | fopen (filename modeStr : List UInt8)
  | fclose (fd : Int)

def FileRun.start (k : Kernel) : FileRun := ⟨k,fun _ => 0,none⟩

def handOut (after : Kernel) (ptr : Nat) (opened : Nat → Nat) : Nat → Nat :=
  match after.objs ptr with
  | some (.fileDescriptor descriptor) => fun i => if (i : Int)+1 = descriptor.index then ptr else opened i
  | _ => opened

def closed (res fd : Int) (opened : Nat → Nat) : Nat → Nat :=
  if res = 0 then fun i => if (i : Int)+1 = fd then 0 else opened i else opened

-- An fopen of a run returns; a call of fclose may fault.
inductive FileStep (dev : BlockDevice) : FileRun → FileAction → FileRun → Prop where
  | fopen (alive : s.fault = none) (ran : fopen dev filename modeStr s.kernel = .ok (ptr,after)) :
      FileStep dev s (.fopen filename modeStr) ⟨after,handOut after ptr s.opened,none⟩
  | fclose (alive : s.fault = none) (ran : fclose fd s.kernel = .ok (res,after)) :
      FileStep dev s (.fclose fd) ⟨after,closed res fd s.opened,none⟩
  | faulted (alive : s.fault = none) (ran : fclose fd s.kernel = .error e) :
      FileStep dev s (.fclose fd) ⟨s.kernel,s.opened,some e⟩

-- Every call on the number fails, and changes nothing.
structure Rejected (dev : BlockDevice) (k : Kernel) (fd : Int) : Prop where
  fread : ∀ size nmemb, fread dev size nmemb fd k = .ok ((toUint32 (-einvarg),[]),k)
  fseek : ∀ offset mode, fseek fd offset mode k = .ok (-eio,k)
  fstat : fstat fd k = .ok ((-eio,none),k)
  fclose : fclose fd k = .ok (-eio,k)

-- No fault; the table holds just the open descriptors, so that closed numbers
-- are rejected and a new descriptor is refused only when all slots are open.
structure Safe (dev : BlockDevice) (s : FileRun) : Prop where
  alive : s.fault = none
  table : s.kernel.fileDescriptors = s.opened
  rejected : ∀ i, s.opened i = 0 → Rejected dev s.kernel ((i : Int)+1)
  reusable : ∀ i, i < nutsosMaxFileDescriptors → s.opened i = 0 →
    ∀ res desc after, fileDescriptorNew s.kernel = .ok ((res,desc),after) → res = 0

-- No descriptor of the table is closed.
def StepFits (s : FileRun) : FileAction → Prop
  | .fopen _ _ => True
  | .fclose fd => fileGetDescriptor s.kernel fd = 0

def Invariant (s : FileRun) : Prop := s.fault = none ∧ HeapValid s.kernel ∧ s.kernel.fileDescriptors = s.opened

theorem rejected_of_free {k : Kernel} (free : fileGetDescriptor k fd = 0) (dev : BlockDevice) : Rejected dev k fd := by
  refine ⟨fun size nmemb => ?_,fun offset mode => ?_,?_,?_⟩
  · unfold Files.fread
    by_cases bad : size = 0 ∨ nmemb = 0 ∨ fd < 1
    · rw [if_pos bad]
      rfl
    · rw [if_neg bad,get_bind]
      dsimp only
      rw [if_pos free]
      rfl
  · unfold Files.fseek
    rw [get_bind]
    dsimp only
    rw [if_pos free]
    rfl
  · unfold Files.fstat
    rw [get_bind]
    dsimp only
    rw [if_pos free]
    rfl
  · unfold Files.fclose
    rw [get_bind]
    dsimp only
    rw [if_pos free]
    rfl

theorem getDescriptor_free {k : Kernel} (free : k.fileDescriptors i = 0) : fileGetDescriptor k ((i : Int)+1) = 0 := by
  unfold fileGetDescriptor
  by_cases outside : (i : Int)+1 ≤ 0 ∨ (i : Int)+1 ≥ nutsosMaxFileDescriptors
  · rw [if_pos outside]
  · rw [if_neg outside,Int.add_sub_cancel]
    exact free

theorem getDescriptor_slot {k : Kernel} (present : fileGetDescriptor k fd ≠ 0) :
    ∃ i : Nat, (i : Int)+1 = fd ∧ k.fileDescriptors i ≠ 0 := by
  unfold fileGetDescriptor at present
  by_cases outside : fd ≤ 0 ∨ fd ≥ nutsosMaxFileDescriptors
  · rw [if_pos outside] at present
    exact absurd rfl present
  · rw [if_neg outside] at present
    exact ⟨(fd-1).toNat,by omega,present⟩

theorem fileDescriptorNew_free {k : Kernel} (inside : i < nutsosMaxFileDescriptors) (free : k.fileDescriptors i = 0)
    (ran : fileDescriptorNew k = .ok ((res,desc),after)) : res = 0 := by
  rcases lowest_or_full k with full | ⟨s,lowest⟩
  · exact absurd free (full i inside)
  · have below := lowest.inside
    unfold fileDescriptorNew at ran
    rw [newDescriptorFrom_lowest (Nat.zero_le s) (by omega) lowest.free (fun j _ earlier => lowest.taken j earlier)] at ran
    obtain ⟨ptr,one,allocated,ran⟩ := bind_ok.mp ran
    obtain ⟨found,two,loaded,ran⟩ := bind_ok.mp ran
    cases ran
    rfl

theorem invariant_safe (dev : BlockDevice) (s : FileRun) (valid : Invariant s) : Safe dev s := by
  obtain ⟨alive,_,table⟩ := valid
  refine ⟨alive,table,fun i free => rejected_of_free (getDescriptor_free ?_) dev,fun i inside free res desc after ran => ?_⟩
  · rw [table]
    exact free
  · exact fileDescriptorNew_free inside (by rw [table]; exact free) ran

inductive Opening (k : Kernel) (ptr : Nat) (after : Kernel) : Prop where
  | refused (null : ptr = 0) (table : after.fileDescriptors = k.fileDescriptors)
  | granted (nonnull : ptr ≠ 0) (lowest : Lowest k i)
      (held : after.objs ptr = some (.fileDescriptor ⟨i+1,some .fat16,fprivate,mode,some .disk⟩))
      (table : after.fileDescriptors = fun j => if j = i then ptr else k.fileDescriptors j)

theorem fopen_grown {k : Kernel} (valid : HeapValid k) (ran : fopen dev filename modeStr k = .ok (ptr,after)) :
    FilesGrown k after ∧ Opening k ptr after := by
  obtain ⟨opened,middle,reached,_⟩ := bind_ok.mp ran
  obtain ⟨grown,_⟩ := openPath_grown valid reached
  have same : middle.fileDescriptors = k.fileDescriptors := by rw [grown.rest]
  have errs (e : Int) : FilesGrown k {middle with errno := e} :=
    ⟨grown.valid.congr rfl (fun _ live => live),by rw [grown.rest],grown.volume,grown.kept⟩
  cases opened with
  | error e =>
    rw [fopen_refused reached] at ran
    cases ran
    exact ⟨errs e,.refused rfl same⟩
  | ok fprivate =>
    rw [fopen_opened reached] at ran
    rcases lowest_or_full k with full | ⟨i,lowest⟩
    · rw [(openDescriptor_full grown full fprivate (fileModeFromString modeStr)).1] at ran
      cases ran
      exact ⟨errs (-enomem),.refused rfl same⟩
    · obtain ⟨desc,l,_,⟨_,failed⟩ | ⟨nonnull,_,opened,called,_,_,taken⟩⟩ :=
        openDescriptor_lowest grown lowest fprivate (fileModeFromString modeStr)
      · rw [failed] at ran
        cases ran
      · rw [called] at ran
        cases ran
        exact ⟨(FilesGrown.of_grown grown).trans taken.grown,.granted nonnull lowest taken.held taken.table⟩

def SameTable (k after : Kernel) : Prop := after.fileDescriptors = k.fileDescriptors

theorem table_discipline : TaskDiscipline SameTable := static_discipline Kernel.fileDescriptors (fun _ _ _ _ _ _ _ => rfl)

theorem fclose_table (fd : Int) : Within SameTable (fclose fd) := table_discipline.fclose fd

theorem step_keeps (dev : BlockDevice) (s : FileRun) (action : FileAction) (u : FileRun) (valid : Invariant s)
    (fits : StepFits s action) (step : FileStep dev s action u) : Invariant u := by
  obtain ⟨alive,heap,table⟩ := valid
  cases step with
  | fopen _ ran =>
    obtain ⟨grown,opening⟩ := fopen_grown heap ran
    refine ⟨rfl,grown.valid,?_⟩
    cases opening with
    | refused null same =>
      subst null
      dsimp only
      rw [same,handOut,grown.valid.null]
      exact table
    | @granted i _ _ nonnull lowest held same =>
      simp only [handOut,held]
      rw [same,table]
      funext j
      by_cases here : j = i <;> simp [here]
  | fclose _ ran =>
    rw [(rejected_of_free fits dev).fclose] at ran
    cases ran
    exact ⟨rfl,heap,table⟩
  | faulted _ ran =>
    rw [(rejected_of_free fits dev).fclose] at ran
    cases ran

theorem fclose_ok {k : Kernel} (present : fileGetDescriptor k fd ≠ 0) (ran : fclose fd k = .ok (res,after)) : res = 0 := by
  unfold Files.fclose at ran
  rw [get_bind] at ran
  dsimp only at ran
  rw [if_neg present] at ran
  obtain ⟨found,one,loaded,ran⟩ := bind_ok.mp ran
  obtain ⟨system,two,known,ran⟩ := bind_ok.mp ran
  obtain ⟨done,three,gone,ran⟩ := bind_ok.mp ran
  cases ran
  rfl

-- A descriptor that is closed stays in its slot.
theorem step_breaks (dev : BlockDevice) (s : FileRun) (action : FileAction) (u : FileRun) (valid : Invariant s)
    (unfit : ¬ StepFits s action) (step : FileStep dev s action u) : ¬ Safe dev u := by
  obtain ⟨alive,heap,table⟩ := valid
  cases step with
  | fopen => exact absurd trivial unfit
  | @fclose fd res after _ _ ran =>
    intro safe
    have present : fileGetDescriptor s.kernel fd ≠ 0 := unfit
    have same : after.fileDescriptors = s.kernel.fileDescriptors := fclose_table fd _ _ _ ran
    obtain ⟨i,number,occupied⟩ := getDescriptor_slot present
    have kept := congrFun safe.table i
    dsimp only at kept
    rw [same,fclose_ok present ran,closed,if_pos rfl,if_pos number] at kept
    exact occupied kept
  | faulted =>
    intro safe
    cases safe.alive

theorem file_runs_safe {k : Kernel} (heap : HeapValid k) (empty : ∀ i, k.fileDescriptors i = 0)
    (ran : IsRun (FileStep dev) (.start k) trace) : Always (Safe dev) (.start k) trace ↔ Guarded StepFits (.start k) trace :=
  always_iff_guarded (step_keeps dev) (invariant_safe dev) (step_breaks dev)
    ⟨rfl,heap,funext empty⟩ ran

structure OpenAt (k : Kernel) (desc pos : Nat) (entry : FatDirectoryItem) : Prop where
  held : ∃ index fprivate mode, k.objs desc = some (.fileDescriptor ⟨index,some .fat16,fprivate,mode,some .disk⟩) ∧
    DriverFile k fprivate pos entry

structure OpenFile (k : Kernel) (fd : Int) (pos : Nat) (entry : FatDirectoryItem) : Prop where
  nonnull : fileGetDescriptor k fd ≠ 0
  opened : OpenAt k (fileGetDescriptor k fd) pos entry

theorem fopen_served {k : Kernel} (opened : openPath dev filename modeStr k = .ok (.ok fprivate,middle)) (grown : Grown k middle)
    (lowest : Lowest k i) (room : Room middle.heap (1+rest)) :
    ∃ ptr after, fopen dev filename modeStr k = .ok (ptr,after) ∧ ptr ≠ 0 ∧ FilesGrown middle after ∧
      after.objs ptr = some (.fileDescriptor ⟨i+1,some .fat16,fprivate,fileModeFromString modeStr,some .disk⟩) ∧
      after.fileDescriptors = (fun j => if j = i then ptr else k.fileDescriptors j) ∧ Room after.heap rest := by
  rw [fopen_opened opened]
  obtain ⟨ptr,_,allocated,served⟩ := kzalloc_served 20 _ grown.valid (.fileDescriptor zeroFileDescriptor) (by decide) (by decide) room
  obtain ⟨_,_,allocated',⟨null,_⟩ | ⟨nonnull,_,after,called,heap,_,taken⟩⟩ :=
    openDescriptor_lowest grown lowest fprivate (fileModeFromString modeStr)
  · rw [allocated] at allocated'
    cases allocated'
    exact absurd null served.nonnull
  · rw [allocated] at allocated'
    cases allocated'
    exact ⟨ptr,after,called,nonnull,taken.grown,taken.held,taken.table,by rw [heap]; exact served.room⟩

theorem fopen_file_run (rest : Nat) {k : Kernel} (valid : HeapValid k) (component : Component name) (root : RootFile k (partString name) entry)
    (mounted : k.disk.filesystem ≠ none) (lowest : Lowest k i) (room : Room k.heap (8+rest)) (dev : BlockDevice) :
    ∃ ptr after, fopen dev (pathOf asciiZero name) [charR] k = .ok (ptr,after) ∧ FilesGrown k after ∧ ptr ≠ 0 ∧
      (∃ fprivate, after.objs ptr = some (.fileDescriptor ⟨i+1,some .fat16,fprivate,.read,some .disk⟩) ∧
        DriverFile after fprivate 0 entry) ∧
      after.fileDescriptors = (fun j => if j = i then ptr else k.fileDescriptors j) ∧ Room after.heap rest := by
  rw [show 8+rest = 4+(3+(1+rest)) by omega] at room
  have mode : fileModeFromString [charR] = .read := by decide
  obtain ⟨part,one,first,_,named,roomOne,reached⟩ := openPath_run _ [charR] _ valid component room mounted (by decide) dev
  obtain ⟨fprivate,two,answered,second,_,file,roomTwo⟩ := fat16Open_run first.valid (root.grown first) named roomOne dev
  have opened : openPath dev (pathOf asciiZero name) [charR] k = .ok (.ok fprivate,two) := by
    rw [reached,mode,bind_run answered]
    rfl
  obtain ⟨ptr,after,called,nonnull,third,held,table,left⟩ := fopen_served opened (first.trans second) lowest roomTwo
  rw [mode] at held
  exact ⟨ptr,after,called,(FilesGrown.of_grown (first.trans second)).trans third,nonnull,
    ⟨fprivate,held,file.kept third.kept⟩,table,left⟩

theorem openFile_of_slot {k : Kernel} (inside : i+1 < nutsosMaxFileDescriptors) (nonnull : k.fileDescriptors i ≠ 0)
    (opened : OpenAt k (k.fileDescriptors i) pos entry) : OpenFile k ((i : Int)+1) pos entry := by
  have slot : fileGetDescriptor k ((i : Int)+1) = k.fileDescriptors i := by
    unfold fileGetDescriptor
    rw [if_neg (by omega),Int.add_sub_cancel]
    rfl
  exact ⟨by rw [slot]; exact nonnull,by rw [slot]; exact opened⟩

theorem fclose_run {k : Kernel} (valid : HeapValid k) (opened : OpenFile k fd pos entry) :
    ∃ fprivate item target after, fclose fd k = .ok (0,after) ∧ HeapValid after ∧
      k.objs fprivate = some (.fatFileDescriptor ⟨item,pos⟩) ∧ k.objs item = some (.fatItem ⟨target,.file⟩) ∧
      k.objs target = some (.directoryItems [entry]) ∧
      Frees k after (fun ptr => (ptr = target ∨ ptr = item) ∨ ptr = fprivate) := by
  obtain ⟨index,fprivate,mode,held,file⟩ := opened.opened.held
  obtain ⟨item,target,after,descriptor,heldItem,array,ran,kept,frees⟩ := fat16Close_run valid file
  refine ⟨fprivate,item,target,after,?_,kept,descriptor,heldItem,array,frees⟩
  unfold fclose
  rw [get_bind]
  dsimp only
  rw [if_neg opened.nonnull,bind_run (loadAs_run asFileDescriptor held rfl)]
  show (do
    let _ ← fat16Close fprivate
    return (0 : Int)) k = _
  rw [bind_run ran]
  rfl

theorem sample_opened (dev : BlockDevice) :
    ∃ ptr after, FileStep dev (.start sampleKernel) (.fopen (pathOf asciiZero sampleName) [charR])
        ⟨after,handOut after ptr (fun _ => 0),none⟩ ∧ ptr ≠ 0 ∧ handOut after ptr (fun _ => 0) 0 = ptr ∧
      HeapValid after ∧ OpenFile after 1 0 sampleEntry := by
  obtain ⟨item,valid,root,room,empty,disk⟩ := rootKernel_valid sampleDisk samplePrivate sample_found rfl
  have mounted : sampleKernel.disk.filesystem ≠ none := by
    unfold sampleKernel
    rw [disk]
    simp [sampleDisk,fatDisk]
  obtain ⟨ptr,after,ran,grown,nonnull,⟨fprivate,held,file⟩,table,_⟩ :=
    fopen_file_run (k := sampleKernel) 131063 valid sample_component root mounted (first_lowest empty) room dev
  have slot : after.fileDescriptors 0 = ptr := by
    rw [table]
    rfl
  refine ⟨ptr,after,.fopen rfl ran,nonnull,?_,grown.valid,?_⟩
  · simp only [handOut,held]
    rfl
  · exact openFile_of_slot (i := 0) (by decide) (by rw [slot]; exact nonnull) (by rw [slot]; exact ⟨_,_,_,held,file⟩)

theorem one_open_safe : ∃ s, IsRun (FileStep (fun _ => none)) (.start sampleKernel)
      [(FileAction.fopen (pathOf asciiZero sampleName) [charR],s)] ∧ s.opened 0 ≠ 0 ∧
    Always (Safe (fun _ => none)) (.start sampleKernel) [(FileAction.fopen (pathOf asciiZero sampleName) [charR],s)] := by
  obtain ⟨ptr,after,step,nonnull,out,_⟩ := sample_opened (fun _ => none)
  obtain ⟨valid,empty⟩ := sample_start
  have ran : IsRun (FileStep (fun _ => none)) (.start sampleKernel) [(.fopen (pathOf asciiZero sampleName) [charR],_)] :=
    ⟨step,trivial⟩
  exact ⟨_,ran,out.trans_ne nonnull,(file_runs_safe valid empty ran).mpr ⟨trivial,trivial⟩⟩

theorem closed_file_stays : ∃ s t, IsRun (FileStep (fun _ => none)) (.start sampleKernel)
      [(FileAction.fopen (pathOf asciiZero sampleName) [charR],s),(.fclose 1,t)] ∧
    t.opened 0 = 0 ∧ t.kernel.fileDescriptors 0 ≠ 0 ∧
    ¬ Always (Safe (fun _ => none)) (.start sampleKernel)
      [(FileAction.fopen (pathOf asciiZero sampleName) [charR],s),(.fclose 1,t)] := by
  obtain ⟨ptr,one,opens,nonnull,out,valid,opened⟩ := sample_opened (fun _ => none)
  obtain ⟨_,_,_,two,closes,_⟩ := fclose_run valid opened
  have same : two.fileDescriptors = one.fileDescriptors := fclose_table 1 _ _ _ closes
  have stays : two.fileDescriptors 0 ≠ 0 := by
    rw [same]
    exact opened.nonnull
  refine ⟨_,_,⟨opens,.fclose rfl closes,trivial⟩,rfl,stays,?_⟩
  intro always
  have table := (always.2 _ (List.mem_cons_of_mem _ (List.mem_singleton.mpr rfl))).table
  exact stays (congrFun table 0)

end NutsOS.Files
