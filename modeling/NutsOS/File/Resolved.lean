import NutsOS.Fat16.Stops
import NutsOS.File.Table

-- A file that fopen has opened is the one on the volume that its path leads to.
namespace NutsOS.Files
open Word32 HeapAlloc Fat16 DiskStreams Stdutil Prog

theorem searched_grown {k : Kernel} (root : RootSearch k fprivate table) (grown : Grown k after) : RootSearch after fprivate table :=
  ⟨root.mounted.after grown.volume,root.total,fun some => grown.held (root.held some)⟩

theorem fat16Open_copied {k : Kernel} (valid : HeapValid k) (root : RootSearch k fprivate table) (list : PathList k path names)
    (ran : fat16Open dev path mode k = .ok (ptr,after)) (regular : ¬ IsError ptr)
    (held : after.objs ptr = some (.fatFileDescriptor descriptor)) (file : after.objs descriptor.item = some (.fatItem ⟨target,.file⟩))
    (copy : after.objs target = some (.directoryItems [entry])) : (volumeOf dev k.disk).resolve table names = .ok (some (.file entry)) := by
  unfold fat16Open at ran
  by_cases writes : mode ≠ .read
  · rw [if_pos writes] at ran
    cases ran
    exact absurd (errToPtr_error (.inr (.inr (.inr rfl)))) regular
  rw [if_neg writes] at ran
  obtain ⟨address,one,allocated,ran⟩ := bind_ok.mp ran
  obtain ⟨first,⟨none,_⟩ | ⟨nonnull,fresh,there⟩⟩ := kzalloc_fresh valid (by decide) allocated
  · rw [if_pos none] at ran
    cases ran
    exact absurd (errToPtr_error (.inr (.inr (.inl rfl)))) regular
  rw [if_neg nonnull] at ran
  obtain ⟨item,two,walked,ran⟩ := bind_ok.mp ran
  obtain ⟨⟨⟩,three,stored,ran⟩ := bind_ok.mp ran
  cases stored
  by_cases missing : item = 0
  · rw [if_pos missing] at ran
    obtain ⟨_,_,_,ran⟩ := bind_ok.mp ran
    cases ran
    exact absurd (errToPtr_error (.inl rfl)) regular
  rw [if_neg missing] at ran
  cases ran
  rw [Kernel.place_same] at held
  cases held
  have apart {a : Nat} {obj : Obj} (found : (two.place ptr (.fatFileDescriptor ⟨item,0⟩)).objs a = some obj)
      (other : ∀ d, obj ≠ .fatFileDescriptor d) : two.objs a = some obj := by
    by_cases same : a = ptr
    · rw [same,Kernel.place_same] at found
      cases found
      exact absurd rfl (other _)
    · rwa [Kernel.place_other same] at found
  have resolved := getDirectoryEntry_copied first.valid (searched_grown root first) (list.grown (fun _ _ part => first.held part)) walked missing
    (apart file nofun) (apart copy nofun)
  rwa [← volumeOf_same root.mounted first.volume dev]

-- Where there is a root directory to search, the path leads to this file.
def PathLeads (dev : BlockDevice) (k : Kernel) (filename : List UInt8) (entry : FatDirectoryItem) : Prop :=
  ∀ fprivate table, RootSearch k fprivate table → (volumeOf dev k.disk).resolve table (parts (filename.drop 3)) = .ok (some (.file entry))

def SizedFile (dev : BlockDevice) (k : Kernel) (filename : List UInt8) (size : Nat) : Prop :=
  ∃ entry, size = entry.filesize ∧ PathLeads dev k filename entry

theorem SizedFile.of_grown {k : Kernel} (sized : SizedFile dev after filename size) (grown : Grown k after) : SizedFile dev k filename size := by
  obtain ⟨entry,equal,leads⟩ := sized
  refine ⟨entry,equal,fun fprivate table root => ?_⟩
  rw [← volumeOf_same root.mounted grown.volume dev]
  exact leads fprivate table (searched_grown root grown)

theorem openPath_leads {k : Kernel} (valid : HeapValid k) (ran : openPath dev filename modeStr k = .ok (.ok fprivate,after))
    (regular : ¬ IsError fprivate)
    (held : after.objs fprivate = some (.fatFileDescriptor descriptor)) (file : after.objs descriptor.item = some (.fatItem ⟨target,.file⟩))
    (copy : after.objs target = some (.directoryItems [entry])) : PathLeads dev k filename entry := by
  intro private' table root
  by_cases refused : PathRefused filename
  · rw [openPath_refused refused] at ran
    cases ran
  obtain ⟨path,one,parsed,_⟩ := bind_ok.mp (show (pathparserParse filename >>= _) k = _ from ran)
  obtain ⟨grown,result⟩ := pathparserParse_grown valid parsed
  obtain ⟨_,part,there,⟨_,e,stopped⟩ | ⟨_,asks⟩⟩ := openPath_parsed valid refused parsed dev modeStr
  · rw [stopped] at ran
    cases ran
  rw [asks] at ran
  obtain ⟨_,_,opened,ran⟩ := bind_ok.mp ran
  cases ran
  cases result with
  | refused bad => exact absurd bad refused
  | parsed _ _ _ first here list =>
    cases here.symm.trans there
    have resolved := fat16Open_copied grown.valid (searched_grown root grown) list opened regular held file copy
    rwa [← volumeOf_same root.mounted grown.volume dev]

theorem fopen_leads {k : Kernel} (valid : HeapValid k) (ran : fopen dev filename modeStr k = .ok (ptr,after))
    (held : after.objs ptr = some (.fileDescriptor found)) (private' : after.objs found.fprivate = some (.fatFileDescriptor descriptor))
    (file : after.objs descriptor.item = some (.fatItem ⟨target,.file⟩)) (copy : after.objs target = some (.directoryItems [entry])) :
    PathLeads dev k filename entry := by
  obtain ⟨opened,middle,reached,_⟩ := bind_ok.mp ran
  obtain ⟨grown,result⟩ := openPath_grown valid reached
  have refused {l : Kernel} (same : l.objs = middle.objs) (present : l.objs 0 = some (.fileDescriptor found)) : False := by
    rw [same,grown.valid.null] at present
    cases present
  cases opened with
  | error e =>
    rw [fopen_refused reached] at ran
    cases ran
    exact (refused rfl held).elim
  | ok fprivate =>
    rw [fopen_opened reached] at ran
    rcases lowest_or_full k with full | ⟨i,lowest⟩
    · rw [(openDescriptor_full grown full fprivate (fileModeFromString modeStr)).1] at ran
      cases ran
      exact (refused rfl held).elim
    obtain ⟨desc,l,_,⟨_,failed⟩ | ⟨_,_,opened,called,_,_,taken⟩⟩ := openDescriptor_lowest grown lowest fprivate (fileModeFromString modeStr)
    · rw [failed] at ran
      cases ran
    rw [called] at ran
    cases ran
    cases taken.held.symm.trans held
    have still := taken.grown
    have regular : ¬ IsError fprivate := by
      intro error
      rw [error_unheld still.valid error] at private'
      cases private'
    -- what the descriptor leads to was there when the driver had answered
    obtain ⟨item,found,there,at'⟩ := ((result fprivate rfl).resolve_left regular).item
    cases (still.held there).symm.trans private'
    cases (still.held at'.held).symm.trans file
    cases at'.target with
    | noCopy => cases still.valid.null.symm.trans copy
    | file array =>
      cases (still.held array).symm.trans copy
      exact openPath_leads valid reached regular there at'.held array

end NutsOS.Files
