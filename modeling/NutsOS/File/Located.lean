import NutsOS.Fat16.Located
import NutsOS.File.Table

-- Opening a file of any directory by its path.
namespace NutsOS.Files
open Word32 HeapAlloc Fat16 DiskStreams Prog Stdutil

-- A path that names the one disk, and then these parts.
structure PathTo (path : List UInt8) (names : List (List UInt8)) : Prop where
  short : strlen path ≤ nutsosMaxPath
  valid : pathparserIsPathValid path = true
  drive : diskGet (ctoi (charOf path)) ≠ none
  parts : parts (path.drop 3) = names

theorem openPath_located (rest : Nat) {k : Kernel} (valid : HeapValid k) (path : PathTo filename names)
    (located : Located image k fprivate names entry) (system : k.disk.filesystem ≠ none)
    (room : Room k.heap (2*names.length+2+(1+(3*names.length+rest)))) :
    ∃ fprivate middle, openPath (imageDevice image) filename [charR] k = .ok (.ok fprivate,middle) ∧ Grown k middle ∧
      DriverFile middle fprivate 0 entry ∧ Room middle.heap rest := by
  obtain ⟨root,first,one,parsed,grown,nonnull,held,list,left⟩ := pathparserParse_list filename _ roomStock valid path.short path.valid
    (by rw [path.parts]; exact room)
  rw [path.parts] at list
  obtain ⟨descriptor,two,opened,more,_,file,rest⟩ := fat16Open_located grown.valid (located.kept grown.volume grown.kept) list left
  obtain ⟨_,_,leads⟩ := located.leads
  have live : first ≠ 0 := by
    cases names with
    | nil => exact absurd rfl leads.some
    | cons name names =>
      obtain ⟨_,_,part,_⟩ := list
      exact (grown.valid.low (by simp [part])).1
  refine ⟨descriptor,two,?_,grown.trans more,file,rest⟩
  unfold openPath
  rw [bind_run parsed,if_neg nonnull,bind_run (loadAs_run asPathRoot held rfl)]
  dsimp only
  rw [if_neg live,if_neg path.drive,get_bind,if_neg (by rw [grown.volume.filesystem]; exact system),
    if_neg (show fileModeFromString [charR] ≠ .invalid by decide)]
  show (fat16Open (imageDevice image) first .read >>= _) one = _
  rw [bind_run opened]
  rfl

-- The blocks that fopen takes for a path of that many parts.
def openBlocks (names : List (List UInt8)) : Nat := 5*names.length+4

theorem fopen_located (rest : Nat) {k : Kernel} (valid : HeapValid k) (path : PathTo filename names)
    (located : Located image k fprivate names entry) (system : k.disk.filesystem ≠ none) (lowest : Lowest k i)
    (room : Room k.heap (openBlocks names+rest)) :
    ∃ ptr after, fopen (imageDevice image) filename [charR] k = .ok (ptr,after) ∧ FilesGrown k after ∧ ptr ≠ 0 ∧
      (∃ fprivate, after.objs ptr = some (.fileDescriptor ⟨i+1,some .fat16,fprivate,.read,some .disk⟩) ∧
        DriverFile after fprivate 0 entry) ∧
      after.fileDescriptors = (fun j => if j = i then ptr else k.fileDescriptors j) ∧ Room after.heap rest := by
  have mode : fileModeFromString [charR] = .read := by decide
  rw [show openBlocks names+rest = 2*names.length+2+(1+(3*names.length+(1+rest))) by unfold openBlocks; omega] at room
  obtain ⟨fprivate,two,opened,grown,file,left⟩ := openPath_located _ valid path located system room
  obtain ⟨ptr,after,called,nonnull,last,held,table,left⟩ := fopen_served opened grown lowest left
  rw [mode] at held
  exact ⟨ptr,after,called,(FilesGrown.of_grown grown).trans last,nonnull,⟨fprivate,held,file.kept last.kept⟩,table,left⟩

end NutsOS.Files
