import NutsOS.Process.Loading

-- What a loaded process sees of the memory: its buffers, and the kernel's pages.
namespace NutsOS.Processes
open Word32 HeapAlloc Files Paging Tasks Prog WriteLog

theorem mem_rangeWrites {virt phys count flags page : Nat} {v : Nat × Nat} : (page,v) ∈ rangeWrites virt phys count flags ↔
    ∃ i < count, page = (virt+i*4096)%4294967296/4096 ∧ v = ((phys+i*4096)%4294967296,flags) := by
  unfold rangeWrites
  rw [List.mem_map]
  constructor
  · rintro ⟨i,member,equal⟩
    cases equal
    exact ⟨i,List.mem_range.mp member,rfl,rfl⟩
  · rintro ⟨i,small,rfl,rfl⟩
    exact ⟨i,List.mem_range.mpr small,rfl⟩

theorem range_lookup (virt : Nat) (aligned : virt%4096 = 0) (virtEnd : virt+count*4096 ≤ 4294967296) (physEnd : phys+count*4096 ≤ 4294967296)
    (small : i < count) (flags : Nat) : lastWrite (rangeWrites virt phys count flags) (virt/4096+i) = some (phys+i*4096,flags) := by
  have within (j : Nat) (inside : j < count) : virt+j*4096 < 4294967296 ∧ phys+j*4096 < 4294967296 := by omega
  have written : (virt/4096+i,(phys+i*4096,flags)) ∈ rangeWrites virt phys count flags := by
    refine mem_rangeWrites.mpr ⟨i,small,?_,?_⟩
    · rw [Nat.mod_eq_of_lt (within i small).1]
      omega
    · rw [Nat.mod_eq_of_lt (within i small).2]
  obtain ⟨last,found⟩ := lastWrite_of_mem written
  obtain ⟨j,inside,page,value⟩ := mem_rangeWrites.mp (lastWrite_mem found)
  rw [Nat.mod_eq_of_lt (within j inside).1] at page
  rw [Nat.mod_eq_of_lt (within j inside).2] at value
  obtain rfl : i = j := by omega
  rw [found,value]

theorem range_outside (aligned : virt%4096 = 0) (virtEnd : virt+count*4096 ≤ 4294967296) (phys flags : Nat)
    (outside : page < virt/4096 ∨ virt/4096+count ≤ page) : lastWrite (rangeWrites virt phys count flags) page = none := by
  apply lastWrite_none
  intro v written
  obtain ⟨i,small,equal,_⟩ := mem_rangeWrites.mp written
  rw [Nat.mod_eq_of_lt (by omega)] at equal
  omega

theorem pagesEnd_eq (aligned : ptr%4096 = 0) (fits : ptr+size ≤ 4294963200) : (pagesEnd ptr size-ptr)/4096 = (size+4095)/4096 := by
  unfold pagesEnd pagingAlignAddress pagingPageSize
  rw [toUint32_natCast (by omega)]
  dsimp only
  unfold toUint32
  split <;> omega

section
variable (loaded : Loaded after ptr process directory table)
include loaded

theorem Loaded.stack_writes : stackWrites process = rangeWrites 0x003FB000 process.stack 4 programFlags := by
  obtain ⟨_,aligned,low⟩ := loaded.stackLow
  unfold stackWrites
  rw [pagesEnd_eq aligned (by unfold nutsosUserProgramStackSize; omega)]
  rfl

theorem Loaded.translate (word : p < 4294967296) : Paging.translate after directory p =
    let page := ((lastWrite (stackWrites process) (p/4096)).or (lastWrite (imageWrites process) (p/4096))).getD (identityMap taskFlags (p/4096))
    some ⟨page.1,page.2,taskFlags ||| pagingIsWriteable⟩ := by
  rw [loaded.ready.maps.translate word,replay_eq,lastWrite_append]

theorem Loaded.image_page (inside : process.ptr+process.size ≤ 2147483648) (small : offset < process.size) :
    lastWrite (imageWrites process) (0x400+offset/4096) = some (process.ptr+offset/4096*4096,programFlags) := by
  obtain ⟨_,aligned,_⟩ := loaded.imageLow
  unfold imageWrites
  rw [pagesEnd_eq aligned (by omega)]
  exact range_lookup nutsosProgramVirtualAddress (by decide) (by unfold nutsosProgramVirtualAddress; omega) (by omega) (by omega) _

theorem Loaded.stack_page (small : offset < nutsosUserProgramStackSize) :
    lastWrite (stackWrites process) (0x3FB+offset/4096) = some (process.stack+offset/4096*4096,programFlags) := by
  obtain ⟨_,_,low⟩ := loaded.stackLow
  unfold nutsosUserProgramStackSize at small
  rw [loaded.stack_writes]
  exact range_lookup 0x003FB000 (by decide) (by decide) (by omega) (by omega) _

theorem Loaded.stack_outside (outside : page < 0x3FB ∨ 0x3FF ≤ page) : lastWrite (stackWrites process) page = none := by
  rw [loaded.stack_writes]
  exact range_outside (by decide) (by decide) _ _ outside

end

-- The byte of the process's own buffers that an address stands for.
def ownByte (process : NutsOS.Process) (p : Nat) : Nat :=
  if process.ptrVirt ≤ p ∧ p < process.ptrVirt+process.size then process.ptr+(p-process.ptrVirt)
  else process.stack+(p-process.stackVirt)

-- The page walk ends at the byte, which lies in a buffer of the process, and the
-- page is present, writable and open to user mode on both levels.
structure Reaches (k : Kernel) (process : NutsOS.Process) (directory p byte : Nat) : Prop where
  walk : ∃ t, translate k directory p = some t ∧ t.frame+p%4096 = byte ∧ t.flags &&& programFlags = programFlags ∧
    t.directoryFlags &&& programFlags = programFlags
  own : ∃ buf bytes, (buf = process.ptr ∨ buf = process.stack) ∧ k.objs buf = some (.chars bytes) ∧ buf ≤ byte ∧ byte < buf+bytes.length

theorem Loaded.reaches (loaded : Loaded after ptr process directory table) (inside : process.ptr+process.size ≤ 2147483648)
    (word : p < 4294967296) (accepted : processValidatePointer process p = true) : Reaches after process directory p (ownByte process p) := by
  obtain ⟨stackVirt,stackSize⟩ := loaded.stackWindow
  have virt := loaded.imageWindow
  have walk := loaded.translate word
  unfold nutsosUserProgramStackSize at stackSize
  have bounds : (0x400000 ≤ p ∧ p < 0x400000+process.size) ∨ (0x3FB000 ≤ p ∧ p < 0x3FF000) := by
    unfold processValidatePointer at accepted
    rw [virt,stackVirt,stackSize,toUint32_natCast (by unfold nutsosProgramVirtualAddress; omega),
      toUint32_natCast (show nutsosProgramVirtualStackAddressEnd+16384 < 4294967296 by decide)] at accepted
    simp only [Bool.or_eq_true,Bool.and_eq_true,decide_eq_true_eq] at accepted
    exact accepted
  have writeable : (taskFlags ||| pagingIsWriteable) &&& programFlags = programFlags := by decide
  unfold ownByte
  rw [virt,stackVirt]
  rcases bounds with ⟨low,high⟩ | ⟨low,high⟩
  · obtain ⟨offset,rfl⟩ := Nat.exists_eq_add_of_le low
    have page : (0x400000+offset)/4096 = 0x400+offset/4096 := by omega
    rw [page,loaded.stack_outside (.inr (by omega)),loaded.image_page inside (by omega)] at walk
    obtain ⟨bytes,held,length⟩ := loaded.image
    rw [if_pos ⟨low,high⟩]
    have byte : process.ptr+(0x400000+offset-nutsosProgramVirtualAddress) = process.ptr+offset := by
      rw [nutsosProgramVirtualAddress,Nat.add_sub_cancel_left]
    rw [byte]
    exact ⟨⟨_,walk,by dsimp only [Option.none_or,Option.getD_some]; omega,Nat.and_self _,writeable⟩,process.ptr,bytes,.inl rfl,held,by omega,by omega⟩
  · obtain ⟨offset,rfl⟩ := Nat.exists_eq_add_of_le low
    have page : (0x3FB000+offset)/4096 = 0x3FB+offset/4096 := by omega
    rw [page,loaded.stack_page (by unfold nutsosUserProgramStackSize; omega)] at walk
    obtain ⟨bytes,held,length⟩ := loaded.stack
    have below : ¬ (nutsosProgramVirtualAddress ≤ 0x3FB000+offset ∧ 0x3FB000+offset < nutsosProgramVirtualAddress+process.size) := by
      unfold nutsosProgramVirtualAddress
      omega
    have byte : process.stack+(0x3FB000+offset-nutsosProgramVirtualStackAddressEnd) = process.stack+offset := by
      rw [show nutsosProgramVirtualStackAddressEnd = 0x3FB000 from rfl,Nat.add_sub_cancel_left]
    unfold nutsosUserProgramStackSize at length
    rw [if_neg below,byte]
    exact ⟨⟨_,walk,by dsimp only [Option.some_or,Option.getD_some]; omega,Nat.and_self _,writeable⟩,process.stack,bytes,.inr rfl,held,by omega,by omega⟩

-- The image is taken to lie where the pool does, below 2 GB.
theorem accepted_pointers_reach (valid : HeapValid k) (ran : processLoad dev filename k = .ok ((eok,out),after)) :
    ∃ ptr process directory, out = some ptr ∧ after.objs ptr = some (.process process) ∧
      processDirectory process after = .ok (directory,after) ∧
      (process.ptr+process.size ≤ 2147483648 → ∀ p < 4294967296, processValidatePointer process p = true →
        Reaches after process directory p (ownByte process p)) := by
  obtain ⟨ptr,process,directory,table,rfl,loaded⟩ := processLoad_ok valid ran (by decide)
  exact ⟨ptr,process,directory,rfl,loaded.ready.held,loaded.ready.directory_run,
    fun inside p word accepted => loaded.reaches inside word accepted⟩

-- kernel.c and kernel.asm: the image from 1 MB up to the stack it boots on, and the
-- stack that the TSS gives to a system call.
def kernelAddress : Nat := 0x00100000
def kernelEnd : Nat := 0x00200000
def tssEsp0 : Nat := 0x00600000

-- The kernel's memory while it serves a call that goes down to stackBottom.
def KernelByte (stackBottom addr : Nat) : Prop :=
  (kernelAddress ≤ addr ∧ addr < kernelEnd) ∨ (stackBottom ≤ addr ∧ addr < tssEsp0) ∨
    (nutsosHeapAddress ≤ addr ∧ addr < nutsosHeapAddress+nutsosHeapSizeBytes)

-- It is mapped to itself, and no page of it is writable.
def KernelMapped (k : Kernel) (directory stackBottom : Nat) : Prop :=
  ∀ addr, KernelByte stackBottom addr → ∃ t, translate k directory addr = some t ∧ t.frame+addr%4096 = addr ∧
    t.flags &&& pagingIsWriteable = 0

theorem KernelByte.word (kernel : KernelByte stackBottom addr) : addr < 4294967296 := by
  unfold KernelByte kernelAddress kernelEnd tssEsp0 nutsosHeapAddress nutsosHeapSizeBytes at kernel
  omega

theorem size_whole (word : size < 4294967296) (whole : ¬ heapAlignValueToUpper size < size) : size ≤ 4294963200 := by
  unfold heapAlignValueToUpper nutsosHeapBlockSize toUint32 at whole
  split at whole <;> omega

section
variable (loaded : Loaded after ptr process directory table)
include loaded

-- paging_map_to refuses an end that wraps, so every page of an image is mapped.
theorem Loaded.image_count (word : process.size < 4294967296) :
    process.ptr+process.size ≤ 4294963200 ∧ (pagesEnd process.ptr process.size-process.ptr)/4096 = (process.size+4095)/4096 := by
  obtain ⟨nonnull,aligned,low⟩ := loaded.imageLow
  have size := size_whole word loaded.whole
  have fits : process.ptr+process.size ≤ 4294963200 := by
    have ordered := loaded.ordered
    unfold pagesEnd pagingAlignAddress pagingPageSize toUint32 at ordered
    dsimp only at ordered
    split at ordered <;> omega
  exact ⟨fits,pagesEnd_eq aligned fits⟩

theorem Loaded.image_writable (word : process.size < 4294967296) (low : p < 4294967296) (page : p/4096 = 0x400+i)
    (small : i < (process.size+4095)/4096) :
    ∃ frame, Paging.translate after directory p = some ⟨frame,programFlags,taskFlags ||| pagingIsWriteable⟩ := by
  have written : (p/4096,((process.ptr+i*4096)%4294967296,programFlags)) ∈ imageWrites process++stackWrites process := by
    apply List.mem_append_left
    refine mem_rangeWrites.mpr ⟨i,(loaded.image_count word).2 ▸ small,?_,rfl⟩
    unfold nutsosProgramVirtualAddress
    omega
  obtain ⟨⟨frame,flags⟩,found⟩ := lastWrite_of_mem written
  have flagged : flags = programFlags := by
    rcases List.mem_append.mp (lastWrite_mem found) with member | member
    · obtain ⟨_,_,_,value⟩ := mem_rangeWrites.mp member
      exact (Prod.mk.inj value).2
    · obtain ⟨_,_,_,value⟩ := mem_rangeWrites.mp member
      exact (Prod.mk.inj value).2
  refine ⟨frame,?_⟩
  rw [loaded.ready.maps.translate low,replay_eq,found,flagged]
  rfl

theorem Loaded.image_outside (inside : process.ptr+process.size ≤ 4294963200) (fits : process.size ≤ 0x200000)
    (outside : page < 0x400 ∨ 0x400+(process.size+4095)/4096 ≤ page) : lastWrite (imageWrites process) page = none := by
  obtain ⟨_,aligned,_⟩ := loaded.imageLow
  unfold imageWrites
  rw [pagesEnd_eq aligned inside]
  exact range_outside (by decide) (by unfold nutsosProgramVirtualAddress; omega) _ _ outside

theorem Loaded.kernel_mapped (word : process.size < 4294967296) (used : stackBottom < tssEsp0) :
    KernelMapped after directory stackBottom ↔ nutsosProgramVirtualAddress+process.size ≤ stackBottom/4096*4096 := by
  have positive := loaded.positive
  unfold nutsosProgramVirtualAddress
  constructor
  · intro mapped
    by_contra short
    -- the lowest page of the kernel's stack that the image reaches
    let addr := max stackBottom 0x400000
    have kernel : KernelByte stackBottom addr := .inr (.inl ⟨Nat.le_max_left _ _,by unfold tssEsp0 at *; omega⟩)
    obtain ⟨t,walk,_,locked⟩ := mapped addr kernel
    obtain ⟨frame,open'⟩ := loaded.image_writable (p := addr) (i := addr/4096-0x400) word kernel.word (by omega) (by omega)
    rw [walk] at open'
    cases open'
    exact absurd (show programFlags &&& pagingIsWriteable = 0 from locked) (by decide)
  · intro fits addr kernel
    obtain ⟨inside,_⟩ := loaded.image_count word
    have walk := loaded.translate kernel.word
    unfold KernelByte kernelAddress kernelEnd nutsosHeapAddress nutsosHeapSizeBytes at kernel
    unfold tssEsp0 at *
    rw [loaded.stack_outside (by omega),loaded.image_outside inside (by omega) (by omega)] at walk
    exact ⟨_,walk,Nat.div_add_mod' addr 4096,show taskFlags &&& pagingIsWriteable = 0 by decide⟩

end

theorem kernel_unshadowed_iff (valid : HeapValid k) (ran : processLoad dev filename k = .ok ((eok,some ptr),after))
    (held : after.objs ptr = some (.process process)) (walk : processDirectory process after = .ok (directory,after))
    (word : process.size < 4294967296) (used : stackBottom < tssEsp0) :
    ∃ entry, process.size = entry.filesize ∧ PathLeads dev k filename entry ∧
      (KernelMapped after directory stackBottom ↔ nutsosProgramVirtualAddress+entry.filesize ≤ stackBottom/4096*4096) := by
  obtain ⟨_,_,_,table,same,loaded,_,entry,size,leads⟩ := processLoad_loads valid ran (by decide)
  cases same
  cases loaded.ready.held.symm.trans held
  cases loaded.ready.directory_run.symm.trans walk
  exact ⟨entry,size,leads,size ▸ loaded.kernel_mapped word used⟩

end NutsOS.Processes
