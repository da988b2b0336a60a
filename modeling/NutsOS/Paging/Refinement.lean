import NutsOS.Kernel.Boot
import NutsOS.Paging.Chunk

-- A directory of paging_chunk_new as a page map under any sequence of calls.
namespace NutsOS.Paging
open Word32 HeapAlloc WriteLog

inductive PagingCall where
  | map (virt phys flags : Nat)
  | mapRange (virt phys : Nat) (count : Int) (flags : Nat)
  | mapTo (virt phys physEnd flags : Nat)

def PagingCall.run (directory : Nat) : PagingCall → KernelProg Int
  | .map virt phys flags => pagingMap directory virt phys flags
  | .mapRange virt phys count flags => pagingMapRange directory virt phys count flags
  | .mapTo virt phys physEnd flags => pagingMapTo directory virt phys physEnd flags

def runCalls (directory : Nat) : List PagingCall → KernelProg (List Int)
  | [] => pure []
  | call::rest => do
    let res ← call.run directory
    let results ← runCalls directory rest
    return res::results

-- What a call is for: the arguments it takes, and the pages it writes when it
-- takes them, each with its frame and flags.
def PagingCall.Accepted : PagingCall → Prop
  | .map virt phys _ => virt%4096 = 0 ∧ phys%4096 = 0
  | .mapRange virt phys count _ => count ≤ 0 ∨ virt%4096 = 0 ∧ phys%4096 = 0
  | .mapTo virt phys physEnd _ => virt%4096 = 0 ∧ phys%4096 = 0 ∧ physEnd%4096 = 0 ∧ phys ≤ physEnd

instance : DecidablePred PagingCall.Accepted
  | .map virt phys _ => inferInstanceAs (Decidable (virt%4096 = 0 ∧ phys%4096 = 0))
  | .mapRange virt phys count _ => inferInstanceAs (Decidable (count ≤ 0 ∨ virt%4096 = 0 ∧ phys%4096 = 0))
  | .mapTo virt phys physEnd _ =>
    inferInstanceAs (Decidable (virt%4096 = 0 ∧ phys%4096 = 0 ∧ physEnd%4096 = 0 ∧ phys ≤ physEnd))

def PagingCall.pages : PagingCall → List (Nat × (Nat × Nat))
  | .map virt phys flags => rangeWrites virt phys 1 flags
  | .mapRange virt phys count flags => rangeWrites virt phys count.toNat flags
  | .mapTo virt phys physEnd flags => rangeWrites virt phys ((physEnd-phys)/4096) flags

def PagingCall.result (call : PagingCall) : Int := if call.Accepted then 0 else -einvarg
def PagingCall.writes (call : PagingCall) : List (Nat × (Nat × Nat)) := if call.Accepted then call.pages else []

-- The arguments are 32-bit addresses and flags below a page.
def PagingCall.Word : PagingCall → Prop
  | .map virt phys flags => virt < 4294967296 ∧ phys < 4294967296 ∧ flags < 4096
  | .mapRange virt phys _ flags => virt < 4294967296 ∧ phys < 4294967296 ∧ flags < 4096
  | .mapTo virt phys physEnd flags =>
    virt < 4294967296 ∧ phys < 4294967296 ∧ physEnd < 4294967296 ∧ flags < 4096

instance : DecidablePred PagingCall.Word
  | .map virt phys flags => inferInstanceAs (Decidable (virt < 4294967296 ∧ phys < 4294967296 ∧ flags < 4096))
  | .mapRange virt phys _ flags => inferInstanceAs (Decidable (virt < 4294967296 ∧ phys < 4294967296 ∧ flags < 4096))
  | .mapTo virt phys physEnd flags =>
    inferInstanceAs (Decidable (virt < 4294967296 ∧ phys < 4294967296 ∧ physEnd < 4294967296 ∧ flags < 4096))

theorem PagingCall.refused {call : PagingCall} (refused : ¬ call.Accepted) (directory : Nat) (k : Kernel) :
    call.run directory k = .ok (-einvarg,k) := by
  cases call with
  | map virt phys flags => exact pagingMap_unaligned refused directory flags k
  | mapRange virt phys count flags =>
    have positive : 0 < count := Int.not_le.mp (fun none => refused (.inl none))
    exact pagingMapRange_unaligned (fun aligned => refused (.inr aligned)) positive directory flags k
  | mapTo virt phys physEnd flags => exact pagingMapTo_refused refused directory flags k

theorem PagingCall.accepted {call : PagingCall} (accepted : call.Accepted) (word : call.Word)
    (valid : Maps k directory dirFlags table m) :
    ∃ after, call.run directory k = .ok (0,after) ∧ Maps after directory dirFlags table (replay m call.pages) := by
  cases call with
  | map virt phys flags =>
    obtain ⟨virtWord,physWord,small⟩ := word
    obtain ⟨after,ran,mapped,_⟩ := pagingMap_run valid accepted.1 accepted.2 virtWord physWord small
    refine ⟨after,ran,?_⟩
    rw [pages,rangeWrites_succ virtWord physWord]
    exact mapped
  | mapRange virt phys count flags =>
    obtain ⟨virtWord,physWord,small⟩ := word
    rcases accepted with none | ⟨alignedVirt,alignedPhys⟩
    · have zero : count.toNat = 0 := Int.toNat_eq_zero.mpr none
      refine ⟨k,?_,?_⟩
      · simp only [run,pagingMapRange,zero]
        rfl
      · simp only [pages,zero]
        exact valid
    · obtain ⟨after,ran,mapped,_⟩ := pagingMapRange_run valid alignedVirt alignedPhys virtWord physWord small count
      exact ⟨after,ran,mapped⟩
  | mapTo virt phys physEnd flags =>
    obtain ⟨virtWord,_,endWord,small⟩ := word
    obtain ⟨alignedVirt,alignedPhys,alignedEnd,ordered⟩ := accepted
    obtain ⟨after,ran,mapped,_⟩ := pagingMapTo_run valid alignedVirt alignedPhys alignedEnd ordered virtWord endWord small
    exact ⟨after,ran,mapped⟩

theorem PagingCall.refines (call : PagingCall) (word : call.Word) (valid : Maps k directory dirFlags table m) :
    ∃ after, call.run directory k = .ok (call.result,after) ∧
      Maps after directory dirFlags table (replay m call.writes) := by
  unfold result writes
  by_cases accepted : call.Accepted
  · rw [if_pos accepted,if_pos accepted]
    exact PagingCall.accepted accepted word valid
  · rw [if_neg accepted,if_neg accepted]
    exact ⟨k,PagingCall.refused accepted directory k,valid⟩

theorem runCalls_refines (calls : List PagingCall) (word : ∀ call ∈ calls, call.Word)
    (valid : Maps k directory dirFlags table m) :
    ∃ after, runCalls directory calls k = .ok (calls.map PagingCall.result,after) ∧
      Maps after directory dirFlags table (replay m (calls.flatMap PagingCall.writes)) := by
  induction calls generalizing k m with
  | nil => exact ⟨k,rfl,valid⟩
  | cons call rest ih =>
    obtain ⟨middle,ran,mapped⟩ := call.refines (word call List.mem_cons_self) valid
    obtain ⟨after,later,done⟩ := ih (fun c member => word c (List.mem_cons_of_mem _ member)) mapped
    refine ⟨after,?_,?_⟩
    · rw [runCalls,Prog.bind_run ran,Prog.bind_run later]
      rfl
    · rw [List.flatMap_cons,replay_append]
      exact done

theorem paging_refines_page_map (valid : HeapValid k) (small : flags < 256)
    (built : pagingChunkNew 1024 1024 flags k = .ok (chunk,start)) (calls : List PagingCall)
    (word : ∀ call ∈ calls, call.Word) :
    ∃ directory after, start.objs chunk = some (.pagingChunk ⟨directory,1024,1024⟩) ∧
      runCalls directory calls start = .ok (calls.map PagingCall.result,after) ∧
      ∀ virt < 4294967296,
        let page := (lastWrite (calls.flatMap PagingCall.writes) (virt/4096)).getD (virt/4096*4096,flags)
        translate after directory virt = some ⟨page.1,page.2,flags ||| pagingIsWriteable⟩ := by
  rcases pagingChunkNew_run _ valid small with ⟨chunk',start',directory,table,ran,new,_⟩ | ⟨failed,_⟩
  · have same := Except.ok.inj (ran.symm.trans built)
    cases same
    obtain ⟨after,done,mapped⟩ := runCalls_refines calls word new.maps
    refine ⟨directory,after,new.held,done,?_⟩
    intro virt inside
    rw [mapped.translate inside,replay_eq]
    rfl
  · cases failed.symm.trans built

def sampleCalls : List PagingCall := [.mapRange 0xFFFFF000 0x5000 2 7,.mapTo 0 0x8000 0x9000 3,.map 1 0 7]

theorem sample_calls_translated :
    ∃ chunk start directory after,
      pagingChunkNew 1024 1024 5 (bootKernel bootEntries noDisk) = .ok (chunk,start) ∧
      start.objs chunk = some (.pagingChunk ⟨directory,1024,1024⟩) ∧
      runCalls directory sampleCalls start = .ok ([0,0,-einvarg],after) ∧
      translate after directory 0xFFFFF123 = some ⟨0x5000,7,7⟩ ∧
      translate after directory 0x42 = some ⟨0x8000,3,7⟩ ∧
      translate after directory 0x1042 = some ⟨0x1000,5,7⟩ := by
  have room := boot_room bootEntries noDisk
  rcases pagingChunkNew_run 5 (boot_valid bootEntries noDisk rfl) (by decide) with
    ⟨chunk,start,_,_,built,_⟩ | ⟨_,noRoom⟩
  · obtain ⟨directory,after,held,ran,pages⟩ := paging_refines_page_map (boot_valid bootEntries noDisk rfl) (by decide) built
      sampleCalls (by decide)
    exact ⟨chunk,start,directory,after,built,held,ran,pages 0xFFFFF123 (by decide),pages 0x42 (by decide),
      pages 0x1042 (by decide)⟩
  · exact absurd room (noRoom 130046)

end NutsOS.Paging
