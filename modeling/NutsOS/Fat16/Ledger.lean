import NutsOS.Fat16.Walk
import NutsOS.Fat16.Watched

-- What an open takes from the heap, and that the close gives all of it back.
namespace NutsOS.Fat16
open Word32 HeapAlloc DiskStreams Files Prog

-- The blocks of `base` and, of the objects that came since, just those in
-- `owned`; without these the table is the one of `base`.
structure Ledger (base : Kernel) (owned : List Nat) (k : Kernel) : Prop where
  grown : Grown base k
  saddr : k.heap.saddr = base.heap.saddr
  total : k.heap.table.total = base.heap.table.total
  single : owned.Nodup
  live : ∀ ptr ∈ owned, base.objs ptr = none ∧ (k.objs ptr).isSome
  tiled : ∃ chunks, HeapHolds k chunks ∧
    Tiled base.heap.table.entries base.heap.table.total {c | c ∈ chunks ∧ base.heap.saddr+c.start*4096 ∉ owned}

theorem Ledger.start (valid : HeapValid k) : Ledger k [] k := by
  refine ⟨.refl valid,rfl,rfl,List.nodup_nil,fun _ member => by simp at member,?_⟩
  obtain ⟨chunks,holds⟩ := valid
  refine ⟨chunks,holds,?_⟩
  have all : {c | c ∈ chunks ∧ k.heap.saddr+c.start*4096 ∉ ([] : List Nat)} = chunks := by simp
  rw [all]
  exact holds.tiled

theorem kzalloc_chunk {k : Kernel} (holds : HeapHolds k chunks) (positive : 1 ≤ size) (ran : kzalloc size zero k = .ok (ptr,after))
    (nonnull : ptr ≠ 0) : ∃ c, ptr = k.heap.saddr+c.start*4096 ∧ HeapHolds after (insert c chunks) ∧ ¬ Owns k.heap chunks ptr ∧
      after.heap.saddr = k.heap.saddr ∧ after.heap.table.total = k.heap.table.total := by
  have refused (none : heapMalloc k.heap size = (0,k.heap,[])) : False := by
    unfold kzalloc at ran
    rw [bind_run (kmalloc_run none)] at ran
    cases ran
    exact nonnull rfl
  by_cases short : heapAlignValueToUpper size < size
  · obtain ⟨got,one,_,ran⟩ := bind_ok.mp ran
    by_cases null : got = 0
    · rw [if_pos null] at ran
      cases ran
      exact absurd rfl nonnull
    · rw [if_neg null,if_pos short] at ran
      cases ran
  · have blocks : 0 < blocksFor size := by
      refine Nat.pos_of_ne_zero (fun none => ?_)
      rw [blocksFor_zero none short] at positive
      exact absurd positive (by decide)
    rcases heapMalloc_cases _ k.heap blocks with none | ⟨start,inside,free,granted⟩
    · exact (refused none).elim
    · obtain ⟨allocated,_⟩ := kzalloc_granted _ ⟨chunks,holds⟩ zero blocks short inside free granted
      rw [allocated] at ran
      cases ran
      exact ⟨⟨start,blocksFor size⟩,rfl,holds.granted blocks inside free zero,
        holds.tiled.granted_fresh blocks inside free,rfl,rfl⟩

theorem Ledger.alloc (ledger : Ledger base owned k) (positive : 1 ≤ size) (ran : kzalloc size zero k = .ok (ptr,after))
    (nonnull : ptr ≠ 0) : Ledger base (ptr::owned) after ∧ Grown k after ∧ k.objs ptr = none ∧ after.objs ptr = some zero := by
  obtain ⟨grown,result⟩ := kzalloc_fresh ledger.grown.valid positive ran
  obtain ⟨_,fresh,held⟩ := result.resolve_left (fun none => nonnull none.1)
  obtain ⟨chunks,holds,tiled⟩ := ledger.tiled
  obtain ⟨c,address,holds',unowned,saddr,total⟩ := kzalloc_chunk holds positive ran nonnull
  refine ⟨⟨ledger.grown.trans grown,saddr.trans ledger.saddr,total.trans ledger.total,?_,?_,insert c chunks,holds',?_⟩,
    grown,fresh,held⟩
  · refine List.nodup_cons.mpr ⟨fun member => ?_,ledger.single⟩
    have live := (ledger.live ptr member).2
    rw [fresh] at live
    cases live
  · intro a member
    rcases List.mem_cons.mp member with rfl | old
    · exact ⟨ledger.grown.fresh fresh,by simp [held]⟩
    · obtain ⟨new,live⟩ := ledger.live a old
      exact ⟨new,by rw [grown.kept a live]; exact live⟩
  · have same : {d | d ∈ insert c chunks ∧ base.heap.saddr+d.start*4096 ∉ ptr::owned} =
        {d | d ∈ chunks ∧ base.heap.saddr+d.start*4096 ∉ owned} := by
      rw [ledger.saddr] at address
      ext d
      constructor
      · rintro ⟨rfl | old,other⟩
        · exact absurd (address ▸ List.mem_cons_self) other
        · exact ⟨old,fun member => other (List.mem_cons_of_mem _ member)⟩
      · rintro ⟨old,other⟩
        refine ⟨Set.mem_insert_of_mem _ old,fun member => ?_⟩
        rcases List.mem_cons.mp member with here | later
        · exact unowned ⟨d,old,by rw [ledger.saddr]; exact here.symm⟩
        · exact other later
    rw [same]
    exact tiled

theorem Ledger.free (ledger : Ledger base (front++ptr::rest) k) :
    ∃ after, kfree ptr k = .ok ((),after) ∧ Ledger base (front++rest) after ∧ ∀ a, a ≠ ptr → after.objs a = k.objs a := by
  have here : ptr ∈ front++ptr::rest := List.mem_append_right _ List.mem_cons_self
  obtain ⟨new,live⟩ := ledger.live ptr here
  obtain ⟨chunks,holds,tiled⟩ := ledger.tiled
  obtain ⟨c,member,address⟩ := holds.owned ptr live
  obtain ⟨after,freed,left,frees,saddr,total⟩ := kfree_chunk holds member address
  obtain ⟨grown,_⟩ := ledger.grown.frees new (.object live) freed
  have single : ptr ∉ front++rest ∧ (front++rest).Nodup := by
    have whole := (List.perm_middle.nodup_iff).mp ledger.single
    exact List.nodup_cons.mp whole
  have members {a : Nat} : a ∈ front++ptr::rest ↔ a = ptr ∨ a ∈ front++rest := by
    simp only [List.mem_append,List.mem_cons]
    tauto
  refine ⟨after,freed,⟨grown,saddr.trans ledger.saddr,total.trans ledger.total,single.2,?_,chunks \ {c},left,?_⟩,
    fun a different => frees.kept a different⟩
  · intro a later
    obtain ⟨fresh,live⟩ := ledger.live a (members.mpr (.inr later))
    have different : a ≠ ptr := fun same => single.1 (same ▸ later)
    exact ⟨fresh,by rw [frees.kept a different]; exact live⟩
  · have same : {d | d ∈ chunks \ {c} ∧ base.heap.saddr+d.start*4096 ∉ front++rest} =
        {d | d ∈ chunks ∧ base.heap.saddr+d.start*4096 ∉ front++ptr::rest} := by
      rw [ledger.saddr] at address
      ext d
      constructor
      · rintro ⟨⟨old,other⟩,apart⟩
        refine ⟨old,fun owned => ?_⟩
        rcases members.mp owned with same | later
        · exact other (holds.tiled.start_unique old member (by omega))
        · exact apart later
      · rintro ⟨old,apart⟩
        refine ⟨⟨old,fun same => ?_⟩,fun later => apart (members.mpr (.inr later))⟩
        rw [Set.mem_singleton_iff.mp same] at apart
        exact apart (members.mpr (.inl address.symm))
    rw [same]
    exact tiled

theorem Ledger.place (ledger : Ledger base owned k) (ptr : Nat) (member : ptr ∈ owned) (obj : Obj) : Ledger base owned (k.place ptr obj) := by
  obtain ⟨new,live⟩ := ledger.live ptr member
  refine ⟨ledger.grown.place new live obj,ledger.saddr,ledger.total,ledger.single,fun a old => ?_,?_⟩
  · obtain ⟨fresh,held⟩ := ledger.live a old
    refine ⟨fresh,?_⟩
    by_cases same : a = ptr
    · simp [same]
    · rw [Kernel.place_other same]
      exact held
  · obtain ⟨chunks,holds,tiled⟩ := ledger.tiled
    refine ⟨chunks,⟨holds.pool,holds.tiled,holds.stops,fun a held => holds.owned a ?_⟩,tiled⟩
    by_cases same : a = ptr
    · rw [same]
      exact live
    · rw [Kernel.place_other same] at held
      exact held

theorem Ledger.read {x : DiskProg α} (ledger : Ledger base owned k) (reads : Reads x) (ran : onDisk x k = .ok (a,after)) :
    Ledger base owned after ∧ after.objs = k.objs := by
  obtain ⟨grown,heap,objs⟩ := onDisk_grown reads ledger.grown.valid ran
  refine ⟨⟨ledger.grown.trans grown,by rw [heap]; exact ledger.saddr,by rw [heap]; exact ledger.total,ledger.single,
    by rw [objs]; exact ledger.live,?_⟩,objs⟩
  obtain ⟨chunks,holds,tiled⟩ := ledger.tiled
  exact ⟨chunks,⟨heap ▸ holds.pool,heap ▸ holds.tiled,heap ▸ holds.stops,by rw [objs,heap]; exact holds.owned⟩,tiled⟩

theorem Ledger.perm (ledger : Ledger base owned k) (perm : owned.Perm other) : Ledger base other k := by
  refine ⟨ledger.grown,ledger.saddr,ledger.total,perm.nodup ledger.single,fun ptr member => ledger.live ptr (perm.mem_iff.mpr member),?_⟩
  obtain ⟨chunks,holds,tiled⟩ := ledger.tiled
  simp only [perm.mem_iff] at tiled
  exact ⟨chunks,holds,tiled⟩

theorem Ledger.freeNull (ledger : Ledger base owned k) (freed : kfree 0 k = .ok ((),after)) : Ledger base owned after := by
  have null := ledger.grown.valid.null
  obtain ⟨chunks,holds,tiled⟩ := ledger.tiled
  obtain ⟨heap,written,called,saddr,total,same,stops⟩ := holds.pool.free_null holds.stops
  obtain ⟨freed',frees⟩ := kfree_frees called
  rw [freed'] at freed
  cases freed
  have again : Tiled heap.table.entries heap.table.total chunks := by
    rw [total]
    exact holds.tiled.congr (fun i low _ => same i low)
  have left : HeapHolds ((k.withHeap heap).drop 0) chunks := holds.dropped saddr total again stops (fun d old _ => old)
  obtain ⟨grown,_⟩ := ledger.grown.frees (ledger.grown.fresh null) .null freed'
  refine ⟨grown,saddr.trans ledger.saddr,total.trans ledger.total,ledger.single,fun ptr member => ?_,chunks,left,tiled⟩
  obtain ⟨new,live⟩ := ledger.live ptr member
  have other : ptr ≠ 0 := by
    intro zero
    rw [zero,null] at live
    cases live
  exact ⟨new,by rw [frees.kept ptr other]; exact live⟩

structure SameBlocks (before after : Kernel) : Prop where
  saddr : after.heap.saddr = before.heap.saddr
  total : after.heap.table.total = before.heap.table.total
  entries : ∀ i : Int, 0 ≤ i → i < before.heap.table.total → after.heap.table.entries i = before.heap.table.entries i

theorem Ledger.settled (ledger : Ledger base [] k) : SameBlocks base k := by
  refine ⟨ledger.saddr,ledger.total,fun i low high => ?_⟩
  obtain ⟨chunks,holds,tiled⟩ := ledger.tiled
  have all : {c | c ∈ chunks ∧ base.heap.saddr+c.start*4096 ∉ ([] : List Nat)} = chunks := by simp
  rw [all] at tiled
  have now := holds.tiled
  rw [ledger.total] at now
  exact now.determined tiled low high

end NutsOS.Fat16
