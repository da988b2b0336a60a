import NutsOS.File.Sequence

-- A descriptor's own calls decide what they return.
namespace NutsOS.Files
open Word32 Bytes HeapAlloc Fat16 DiskStreams Stdutil Prog

theorem descriptors_independent {k : Kernel} (valid : HeapValid k) (resolved : Resolved k.disk) (files : OpenFiles k fds)
    (within : ∀ event ∈ events, FileEvent.within fds event) (ran : perform dev events k = .ok (answers,after))
    (here : fd ∈ fds) :
    ∃ alone, perform dev (events.filter (FileEvent.ownedBy fd)) k =
        .ok (answers.filter (fun answer => answer.1 == fd),alone) ∧
      ∀ call : FileCall, (call.on dev fd after).map Prod.fst = (call.on dev fd alone).map Prod.fst := by
  obtain ⟨handles,fprivate,together⟩ := files.together valid resolved
  obtain ⟨pos,held⟩ := together.held fd here
  have alike : Alike fprivate k.disk k.disk := ⟨together.volume,together.volume,rfl,together.streams,together.streams⟩
  obtain ⟨alone,performed,twins⟩ := perform_alone together here within ⟨pos,held,held,alike⟩ ran
  exact ⟨alone,performed,fun call => (call_agree dev call after alone twins).value⟩

theorem sample_bytes {k : Kernel} (held : HandleAt k fd h pos) (known : h.entry = sampleEntry) (volume : SampleVolume k.disk item)
    (some : 1 ≤ s) (within : pos+s ≤ 1024) :
    ∃ after, FileCall.on (imageDevice threeImage) fd (.fread s 1) k =
      .ok (.fread 1 (slice (fun p => UInt8.ofNat (p/512+1)) pos s),after) ∧ OnlyDisk k after := by
  have on : FileOn threeImage k.disk (sampleMounted item) h.entry [2,3,4] := by
    rw [known]
    exact sample_on volume
  have size : h.entry.filesize = 1024 := by
    rw [known]
    rfl
  obtain ⟨read,at'⟩ := item_read pos on some (by omega)
  have lands : Landed (sampleMounted item) [2,3,4] pos s := fun p low high => (sample_right k.disk item low (by omega)).1
  have bytes : read.2 = slice (fun p => UInt8.ofNat (p/512+1)) pos s := by
    rw [at'.bytes lands]
    exact slice_congr (fun i small => sample_byte volume (Nat.le_add_right pos i) (by omega))
  have items (i : Nat) (small : i < 1) : ItemAt threeImage k (sampleMounted item) h.entry [2,3,4] (pos+i*s) s read := by
    obtain rfl : i = 0 := by omega
    rw [Nat.zero_mul,Nat.add_zero]
    exact at'
  obtain ⟨after,ran,only⟩ : ∃ after, fread (imageDevice threeImage) s 1 fd k = .ok (deliver (fun _ => read) 1 0,after) ∧ OnlyDisk k after :=
    fread_delivers held on some (Nat.le_refl 1) (by omega) (by omega) items (.refl k)
  refine ⟨after,?_,only⟩
  rw [deliver,if_neg (at'.read.mpr lands),deliver,bytes,List.append_nil] at ran
  exact bind_run ran

theorem perform_fopen {k : Kernel} (opened : fopen dev filename modeStr k = .ok (ptr,one))
    (performed : perform dev rest one = .ok (answers,after)) :
    perform dev (.fopen filename modeStr::rest) k = .ok (answers,after) := by
  rw [perform,bind_run opened]
  exact performed

theorem two_files_independent : ∃ k after alone,
    perform (imageDevice threeImage) [.call 1 (.fread 2 1),.fopen (pathOf asciiZero sampleName) [charR],.call 2 (.fseek 512 .set),
        .call 2 (.fread 3 1),.call 1 (.fread 4 1)] k =
      .ok ([(1,.fread 1 [1,1]),(2,.fseek 0),(2,.fread 1 [2,2,2]),(1,.fread 1 [1,1,1,1])],after) ∧
    perform (imageDevice threeImage) [.call 1 (.fread 2 1),.call 1 (.fread 4 1)] k =
      .ok ([(1,.fread 1 [1,1]),(1,.fread 1 [1,1,1,1])],alone) := by
  obtain ⟨k,item,valid,volume,first,second,files,root,mounted,lowest,room⟩ := twice_opened (imageDevice threeImage)
  have resolved : Resolved k.disk := ⟨_,volume.volume,fun ptr _ => volume.streams ptr⟩
  obtain ⟨h,entry,held⟩ := first.handle
  obtain ⟨g,entry',held'⟩ := second.handle
  have apart : h.fprivate ≠ g.fprivate := by
    intro same
    exact files.apart 2 (by simp) 1 (by simp) (by decide) (by rw [held.privateData,held'.privateData,same])
  obtain ⟨one,readOne,onlyOne⟩ := sample_bytes held entry volume (by decide : 1 ≤ 2) (by decide)
  have validOne : HeapValid one := by
    rw [onlyOne.rest]
    exact valid.congr rfl (fun _ live => live)
  have objs : one.objs = k.objs := by rw [onlyOne.rest]
  have table : one.fileDescriptors = k.fileDescriptors := by rw [onlyOne.rest]
  have heap : one.heap = k.heap := by rw [onlyOne.rest]
  obtain ⟨ptr,two,opened,grown,_,_,_,_⟩ := fopen_file_run (k := one) 0 validOne sample_component
    (root.kept onlyOne.volume (fun a _ => by rw [objs])) (by rw [onlyOne.volume.filesystem]; exact mounted)
    ⟨lowest.inside,by rw [table]; exact lowest.free,fun j earlier => by rw [table]; exact lowest.taken j earlier⟩
    (by rw [heap]; exact room) (imageDevice threeImage)
  have opening := (fopen_grown validOne opened).2
  have heldTwo := (held.only_disk onlyOne).opened grown opening
  have heldTwo' := (held'.only_disk onlyOne).opened grown opening
  have volumeTwo := (volume.after onlyOne.volume).after grown.volume
  have sought : FileCall.on (imageDevice threeImage) 2 (.fseek 512 .set) two =
      .ok (.fseek 0,two.place g.fprivate (.fatFileDescriptor ⟨g.item,512⟩)) := by
    have moved : fseek 2 512 .set two = .ok (0,two.place g.fprivate (.fatFileDescriptor ⟨g.item,512⟩)) := by
      rw [fseek_handle heldTwo',entry']
      rfl
    exact bind_run moved
  have heldThree := heldTwo.moved heldTwo' apart (call_moves grown.valid heldTwo' sought)
  obtain ⟨four,readTwo,onlyTwo⟩ := sample_bytes (heldTwo'.sought 512) entry' (show SampleVolume (two.place g.fprivate _).disk item from volumeTwo)
    (by decide : 1 ≤ 3) (by decide)
  obtain ⟨after,readLast,_⟩ := sample_bytes (heldThree.only_disk onlyTwo) entry (volumeTwo.after onlyTwo.volume) (by decide : 1 ≤ 4) (by decide)
  have performed := perform_call readOne (perform_fopen opened (perform_call sought (perform_call readTwo (perform_call readLast
    (show perform (imageDevice threeImage) [] _ = .ok ([],_) from rfl)))))
  have within : ∀ event ∈ [FileEvent.call 1 (.fread 2 1),.fopen (pathOf asciiZero sampleName) [charR],.call 2 (.fseek 512 .set),
      .call 2 (.fread 3 1),.call 1 (.fread 4 1)], FileEvent.within [2,1] event := by
    simp [FileEvent.within]
  obtain ⟨alone,own,_⟩ := descriptors_independent valid resolved files within performed (show (1 : Int) ∈ [2,1] by simp)
  exact ⟨k,_,alone,performed,own⟩

end NutsOS.Files
