import NutsOS.File.Parsing
import NutsOS.Kernel.Boot
import NutsOS.Process.Load

-- The name of a process, and what strncpy stores for it.
namespace NutsOS.Processes
open Stdutil Files

def terminated (src : List UInt8) : List UInt8 := src.take (strlen src)++[asciiTerm]

theorem terminated_length (src : List UInt8) : (terminated src).length = strlen src+1 := by
  unfold terminated
  rw [List.length_append,List.length_take,List.length_singleton,Nat.min_eq_left (strlen_length src)]

theorem terminated_cons (more : c ≠ asciiTerm) (rest : List UInt8) : terminated (c::rest) = c::terminated rest := by
  unfold terminated
  rw [strlen,if_neg more]
  rfl

-- The counter is tested behind the write: one character more is stored.
theorem strncpy_stores (src : List UInt8) (size : Nat) : strncpy src size = (terminated src).take (size+1) := by
  induction size generalizing src with
  | zero =>
    cases src with
    | nil => rfl
    | cons c rest =>
      by_cases ended : c = asciiTerm
      · rw [ended]
        rfl
      · rw [terminated_cons ended]
        rfl
  | succ size ih =>
    rw [strncpy]
    cases src with
    | nil => rfl
    | cons c rest =>
      by_cases ended : c = asciiTerm
      · rw [ended]
        rfl
      · rw [if_neg (show ¬ charOf (c::rest) = asciiTerm from ended),terminated_cons ended,List.take_succ_cons]
        exact congrArg (c::·) (ih rest)

-- A copy into a buffer of `size` bytes: it stays inside, and stores the longest
-- front of the string.
structure CopyFits (src : List UInt8) (size : Nat) : Prop where
  inside : (strncpy src size).length ≤ size
  longest : strncpy src size = (terminated src).take size

theorem copy_fits_iff (src : List UInt8) (size : Nat) : CopyFits src size ↔ strlen src < size := by
  have length := terminated_length src
  constructor
  · rintro ⟨inside,_⟩
    rw [strncpy_stores,List.length_take] at inside
    omega
  · intro short
    refine ⟨?_,?_⟩
    · rw [strncpy_stores,List.length_take]
      omega
    · rw [strncpy_stores,List.take_of_length_le (by omega),List.take_of_length_le (by omega)]

theorem accepted_short {k : Kernel} (valid : HeapValid k) (ran : pathparserParse path k = .ok (root,after)) (accepted : root ≠ 0) :
    strlen path ≤ nutsosMaxPath := by
  cases (pathparserParse_grown valid ran).2 with
  | refused _ null => exact absurd null accepted
  | parsed short => exact short

theorem strncpy_inside_iff (src : List UInt8) (size : Nat) : (CopyFits src size ↔ strlen src < size) ∧
    ∀ (k : Kernel) (root : Nat) (after : Kernel), HeapValid k → pathparserParse src k = .ok (root,after) → root ≠ 0 →
      ((strncpy src nutsosMaxPath).length ≤ nutsosMaxPath ↔ strlen src < nutsosMaxPath) := by
  refine ⟨copy_fits_iff src size,fun k root after valid ran accepted => ?_⟩
  have length := terminated_length src
  have short := accepted_short valid ran accepted
  rw [strncpy_stores,List.length_take]
  omega

theorem boot_accepts (short : strlen path ≤ nutsosMaxPath) (prefixed : pathparserIsPathValid path = true)
    (few : 2*(parts (path.drop 3)).length+2 ≤ 131072) :
    ∃ root after, pathparserParse path (bootKernel bootEntries noDisk) = .ok (root,after) ∧ root ≠ 0 := by
  obtain ⟨root,_,after,ran,_,nonnull,_⟩ := pathparserParse_list path 0 roomStock (boot_valid bootEntries noDisk rfl) short prefixed
    ((boot_room bootEntries noDisk).less few)
  exact ⟨root,after,ran,nonnull⟩

def shortPath : List UInt8 := [0x30,0x3A,0x2F,0x61]

theorem short_path_inside : CopyFits shortPath 256 ∧ ∃ root after, pathparserParse shortPath (bootKernel bootEntries noDisk) = .ok (root,after) ∧
    root ≠ 0 ∧ (strncpy shortPath nutsosMaxPath).length ≤ nutsosMaxPath := by
  obtain ⟨root,after,ran,accepted⟩ := boot_accepts (show strlen shortPath ≤ nutsosMaxPath by decide) (by decide) (by decide)
  obtain ⟨copy,accepts⟩ := strncpy_inside_iff shortPath 256
  exact ⟨copy.mpr (by decide),root,after,ran,accepted,(accepts _ root after (boot_valid bootEntries noDisk rfl) ran accepted).mpr (by decide)⟩

def longestPath : List UInt8 := shortPath++List.replicate 252 slash

theorem longestPath_length : strlen longestPath = nutsosMaxPath := by
  have clean (count : Nat) : strlen (List.replicate count slash) = count := by
    rw [strlen_clean (fun c member => by rw [List.eq_of_mem_replicate member]; decide),List.length_replicate]
  have front : shortPath.length = 4 := rfl
  unfold longestPath nutsosMaxPath
  rw [strlen_append (by simp [shortPath,asciiTerm]),clean,front]

theorem longest_path_overruns : ¬ CopyFits longestPath nutsosMaxPath ∧ ∃ root after,
    pathparserParse longestPath (bootKernel bootEntries noDisk) = .ok (root,after) ∧ root ≠ 0 ∧
      (strncpy longestPath nutsosMaxPath).length = nutsosMaxPath+1 := by
  have length := longestPath_length
  have single : parts (longestPath.drop 3) = [[0x61]] := by
    have first : partOf (longestPath.drop 3) = [0x61] := rfl
    have behind : afterPart (longestPath.drop 3) = List.replicate 251 slash := rfl
    rw [parts_cons (by rw [first]; simp),first,behind,parts_empty rfl]
  obtain ⟨root,after,ran,accepted⟩ := boot_accepts (Nat.le_of_eq length)
    (pathOf_valid (rfl : isdigit 0x30 = true) (0x61::List.replicate 252 slash)) (by rw [single]; decide)
  refine ⟨?_,root,after,ran,accepted,?_⟩
  · rw [copy_fits_iff,length]
    exact Nat.lt_irrefl _
  · rw [strncpy_stores,List.length_take,terminated_length,length]
    exact Nat.min_self _

end NutsOS.Processes
