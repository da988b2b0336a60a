import NutsOS.Fat16.Names
import NutsOS.Fat16.Subdirectory

-- Looking up a name in a directory of well-formed entries.
namespace NutsOS.Fat16
open Word32 Bytes HeapAlloc Files DiskStreams Prog Stdutil

-- The entries that the search goes through; the array may be longer.
structure Searched (k : Kernel) (directory : FatDirectory) (items : List FatDirectoryItem) : Prop where
  total : directory.total = items.length
  held : items ≠ [] → ∃ more, k.objs directory.item = some (.directoryItems (items++more))

theorem findItem_find (seen rest more : List FatDirectoryItem) {k : Kernel} (dev : BlockDevice) (query : List UInt8)
    (held : rest ≠ [] → k.objs directory.item = some (.directoryItems (seen++rest++more))) :
    findItem dev directory query rest.length seen.length k =
      match rest.find? (fun entry => entryMatches entry query) with
      | none => .ok (0,k)
      | some entry => fat16NewFatItemForDirectoryItem dev entry k := by
  induction rest generalizing seen with
  | nil => rfl
  | cons entry rest ih =>
    have array := held (List.cons_ne_nil entry rest)
    have here : (seen++entry::rest++more)[seen.length]? = some entry := by simp
    rw [List.length_cons,findItem,bind_run (loadAs_run asDirectoryItems array rfl),here,List.find?_cons]
    dsimp only
    cases found : entryMatches entry query with
    | true => rw [if_pos rfl]
    | false =>
      rw [if_neg (by decide)]
      have next := ih (seen++[entry]) (fun _ => by simpa using array)
      rw [List.length_append] at next
      exact next

theorem Searched.find {k : Kernel} (searched : Searched k directory items) (dev : BlockDevice) (query : List UInt8) :
    fat16FindItemInDirectory dev directory query k =
      match items.find? (fun entry => entryMatches entry query) with
      | none => .ok (0,k)
      | some entry => fat16NewFatItemForDirectoryItem dev entry k := by
  unfold fat16FindItemInDirectory
  rw [searched.total]
  by_cases empty : items = []
  · rw [empty]
    rfl
  · obtain ⟨more,held⟩ := searched.held empty
    exact findItem_find [] items more dev query (fun _ => held)

def TwoBlocks (k : Kernel) : Prop := ∃ item one copy two, kzalloc 8 (.fatItem ⟨0,.directory⟩) k = .ok (item,one) ∧ item ≠ 0 ∧
  kzalloc 32 (.directoryItems [zeroDirectoryItem]) one = .ok (copy,two) ∧ copy ≠ 0

def CopyOf (k : Kernel) (ptr : Nat) (entry : FatDirectoryItem) : Prop :=
  ∃ target, k.objs ptr = some (.fatItem ⟨target,.file⟩) ∧ k.objs target = some (.directoryItems [entry])

theorem CopyOf.nonnull {k : Kernel} (copy : CopyOf k ptr entry) (valid : HeapValid k) : ptr ≠ 0 := by
  obtain ⟨target,held,_⟩ := copy
  intro null
  rw [null,valid.null] at held
  cases held

theorem newFile_copies {k : Kernel} (valid : HeapValid k) (file : FatDirectoryItem.isSubdirectory entry = false)
    (ran : fat16NewFatItemForDirectoryItem dev entry k = .ok (ptr,after)) (copies : CopyOf after ptr other) :
    other = entry ∧ TwoBlocks k := by
  have grown := (newFatItem_grown valid ran).1
  have nonnull := copies.nonnull grown.valid
  obtain ⟨target,item,array⟩ := copies
  have some : target ≠ 0 := by
    intro null
    rw [null,grown.valid.null] at array
    cases array
  obtain ⟨fatItem,one,allocated,ran⟩ := bind_ok.mp ran
  by_cases none : fatItem = 0
  · rw [if_pos none] at ran
    cases ran
    exact absurd rfl nonnull
  rw [if_neg none,if_neg (by simp [file])] at ran
  obtain ⟨copy,two,copied,ran⟩ := bind_ok.mp ran
  obtain ⟨⟨⟩,three,stored,ran⟩ := bind_ok.mp ran
  cases ran
  cases stored
  rw [Kernel.place_same] at item
  cases item
  obtain ⟨address,four,second,copied⟩ := bind_ok.mp copied
  by_cases null : address = 0
  · rw [if_pos null] at copied
    cases copied
    exact absurd rfl some
  rw [if_neg null] at copied
  obtain ⟨⟨⟩,five,written,copied⟩ := bind_ok.mp copied
  cases copied
  cases written
  refine ⟨?_,_,_,_,_,allocated,none,second,null⟩
  by_cases same : target = ptr
  · rw [same,Kernel.place_same] at array
    cases array
  · rw [Kernel.place_other same,Kernel.place_same] at array
    cases array
    rfl

theorem newFile_copied {k : Kernel} (valid : HeapValid k) (file : FatDirectoryItem.isSubdirectory entry = false) (blocks : TwoBlocks k)
    (dev : BlockDevice) : ∃ ptr after, fat16NewFatItemForDirectoryItem dev entry k = .ok (ptr,after) ∧ CopyOf after ptr entry := by
  obtain ⟨item,one,copy,two,first,nonnull,second,some⟩ := blocks
  obtain ⟨grown,result⟩ := kzalloc_fresh valid (by decide) first
  have held := (result.resolve_left (fun none => nonnull none.1)).2.2
  have fresh := ((kzalloc_fresh grown.valid (by decide) second).2.resolve_left (fun none => some none.1)).2.1
  have different : copy ≠ item := by
    intro same
    rw [same,held] at fresh
    cases fresh
  refine ⟨item,(two.place copy (.directoryItems [entry])).place item (.fatItem ⟨copy,.file⟩),?_,copy,Kernel.place_same _ _ _,?_⟩
  · unfold fat16NewFatItemForDirectoryItem fat16CopyDirectoryItem
    rw [bind_run first,if_neg nonnull,if_neg (by simp [file])]
    have copied : (do
        let copy ← kzalloc 32 (.directoryItems [zeroDirectoryItem])
        if copy = 0 then return 0
        store copy (.directoryItems [entry])
        return copy : KernelProg Nat) one = .ok (copy,two.place copy (.directoryItems [entry])) := by
      rw [bind_run second,if_neg some]
      rfl
    rw [bind_run copied]
    rfl
  · rw [Kernel.place_other different]
    exact Kernel.place_same _ _ _

structure LiveFile (entry : FatDirectoryItem) (base ext : List UInt8) : Prop where
  name : ShortName entry base ext
  file : FatDirectoryItem.isSubdirectory entry = false
  live : entry.filename.head? ≠ some nutsosFat16UnusedEntry

-- The name as it is written, without a separator where nothing follows it.
def dosName (base ext : List UInt8) : List UInt8 := if ext = [] then base else base++dot::ext

theorem ShortName.file_matches (name : ShortName entry base ext) (kind : FatDirectoryItem.isSubdirectory entry = false) (query : List UInt8) :
    entryMatches entry query = true ↔ SameCase (base++dot::ext) (cString query) := by
  rw [name.matches_iff]
  unfold spelled
  rw [if_neg (by simp [kind])]

theorem LiveFile.matches_iff (file : LiveFile entry base ext) (query : List UInt8) :
    entryMatches entry query = true ↔ SameCase (base++dot::ext) (cString query) := file.name.file_matches file.file query

-- Two files with one name, but for case.
def SameName (one two : FatDirectoryItem) : Prop :=
  ∃ b e b' e', ShortName one b e ∧ ShortName two b' e' ∧ SameCase b b' ∧ SameCase e e'

theorem LiveFile.sameName (file : LiveFile entry base ext) (other : LiveFile entry' base' ext') :
    SameName entry' entry ↔ SameCase (base'++dot::ext') (base++dot::ext) := by
  rw [SameCase.split_iff (by decide) other.name.no_dot file.name.no_dot]
  constructor
  · rintro ⟨b,e,b',e',one,two,bases,exts⟩
    obtain ⟨rfl,rfl⟩ := one.unique other.name
    obtain ⟨rfl,rfl⟩ := two.unique file.name
    exact ⟨bases,exts⟩
  · rintro ⟨bases,exts⟩
    exact ⟨_,_,_,_,other.name,file.name,bases,exts⟩

-- A blank extension is never matched, since the driver puts the separator there.
theorem blank_unmatched {items : List FatDirectoryItem} (files : ∀ entry ∈ items, ∃ base ext, LiveFile entry base ext) (none : dot ∉ cString query) :
    items.find? (fun entry => entryMatches entry query) = Option.none := by
  rw [List.find?_eq_none]
  intro entry member found
  obtain ⟨base,ext,file⟩ := files entry member
  have same := (file.matches_iff query).mp found
  exact none ((same.mem_iff (by decide)).mp (List.mem_append_right base List.mem_cons_self))

theorem dos_name_found {k : Kernel} (valid : HeapValid k) (searched : Searched k directory (front++entry::back))
    (files : ∀ other ∈ front++entry::back, ∃ base ext, LiveFile other base ext) (distinct : (front++entry::back).Nodup)
    (name : ShortName entry base ext) (query : List UInt8) (asked : SameCase (dosName base ext) (cString query)) (dev : BlockDevice) :
    (∃ ptr after, fat16FindItemInDirectory dev directory query k = .ok (ptr,after) ∧ CopyOf after ptr entry) ↔
      ext ≠ [] ∧ (∀ other ∈ front, ¬ SameName other entry) ∧ TwoBlocks k := by
  rw [searched.find]
  by_cases blank : ext = []
  · have none : dot ∉ cString query := by
      intro member
      refine name.no_dot ?_
      unfold dosName at asked
      rw [if_pos blank] at asked
      exact (asked.mem_iff (by decide)).mpr member
    rw [blank_unmatched files none]
    refine iff_of_false ?_ (fun all => all.1 blank)
    rintro ⟨ptr,after,ran,copies⟩
    cases ran
    exact copies.nonnull valid rfl
  unfold dosName at asked
  rw [if_neg blank] at asked
  have own : LiveFile entry base ext := by
    obtain ⟨b,e,file⟩ := files entry (by simp)
    obtain ⟨rfl,rfl⟩ := file.name.unique name
    exact file
  have answers (other : FatDirectoryItem) (member : other ∈ front++entry::back) :
      entryMatches other query = true ↔ SameName other entry := by
    obtain ⟨b,e,file⟩ := files other member
    rw [file.matches_iff,own.sameName file]
    exact ⟨fun same => same.trans asked.symm,fun same => same.trans asked⟩
  by_cases first : ∀ other ∈ front, ¬ SameName other entry
  · have found : (front++entry::back).find? (fun other => entryMatches other query) = some entry := by
      rw [List.find?_append,List.find?_eq_none.mpr]
      · rw [Option.none_or,List.find?_cons_of_pos]
        exact (own.matches_iff query).mpr asked
      · exact fun other member matched => first other member ((answers other (by simp [member])).mp matched)
    rw [found]
    constructor
    · rintro ⟨ptr,after,ran,copies⟩
      exact ⟨blank,first,(newFile_copies valid own.file ran copies).2⟩
    · exact fun all => newFile_copied valid own.file all.2.2 dev
  · refine iff_of_false ?_ (fun all => first all.2.1)
    rintro ⟨ptr,after,ran,copies⟩
    -- an entry in front answers first, and it is another one
    obtain ⟨other,member,same⟩ : ∃ other ∈ front, SameName other entry := by
      by_contra none
      exact first (fun other member same => none ⟨other,member,same⟩)
    cases found : front.find? (fun other => entryMatches other query) with
    | none =>
      have unmatched := List.find?_eq_none.mp found other member
      exact unmatched ((answers other (by simp [member])).mpr same)
    | some earlier =>
      have listed := List.mem_of_find?_eq_some found
      obtain ⟨b,e,file⟩ := files earlier (by simp [listed])
      rw [List.find?_append,found,Option.some_or] at ran
      have equal := (newFile_copies valid file.file ran copies).1
      rw [List.nodup_append] at distinct
      exact distinct.2.2 earlier listed entry List.mem_cons_self equal.symm

-- An entry as it is written to a disk: a file has an extension, a directory none.
inductive Conventional (entry : FatDirectoryItem) : Prop where
  | file (name : ShortName entry base ext) (some : ext ≠ []) (kind : FatDirectoryItem.isSubdirectory entry = false)
  | directory (name : ShortName entry base []) (kind : FatDirectoryItem.isSubdirectory entry = true)

def FileNamed (b e : List UInt8) (entry : FatDirectoryItem) : Prop :=
  FatDirectoryItem.isSubdirectory entry = false ∧ ∃ base ext, ShortName entry base ext ∧ SameCase base b ∧ SameCase ext e

def DirectoryNamed (b : List UInt8) (entry : FatDirectoryItem) : Prop :=
  FatDirectoryItem.isSubdirectory entry = true ∧ ∃ base, ShortName entry base [] ∧ SameCase base b

theorem ShortName.directory_matches (name : ShortName entry base ext) (kind : FatDirectoryItem.isSubdirectory entry = true) (query : List UInt8) :
    entryMatches entry query = true ↔ SameCase base (cString query) := by
  rw [name.matches_iff]
  unfold spelled
  rw [if_pos kind]

theorem Conventional.file_iff (listed : Conventional entry) (asked : cString query = b++dot::e) (first : dot ∉ b) :
    entryMatches entry query = true ↔ FileNamed b e entry := by
  cases listed with
  | @file base ext name some kind =>
    rw [name.file_matches kind,asked,SameCase.split_iff (by decide) name.no_dot first]
    constructor
    · exact fun same => ⟨kind,base,ext,name,same⟩
    · rintro ⟨_,_,_,other,same⟩
      obtain ⟨rfl,rfl⟩ := name.unique other
      exact same
  | directory name kind =>
    rw [name.directory_matches kind,asked]
    refine iff_of_false (fun same => name.no_dot ?_) (fun named => absurd (kind.symm.trans named.1) (by decide))
    exact (same.mem_iff (by decide)).mpr (List.mem_append_right b List.mem_cons_self)

theorem Conventional.directory_iff (listed : Conventional entry) (none : dot ∉ cString query) :
    entryMatches entry query = true ↔ DirectoryNamed (cString query) entry := by
  cases listed with
  | @file base ext name some kind =>
    rw [name.file_matches kind]
    refine iff_of_false (fun same => none ?_) (fun named => absurd (kind.symm.trans named.1) (by decide))
    exact (same.mem_iff (by decide)).mp (List.mem_append_right base List.mem_cons_self)
  | @directory base name kind =>
    rw [name.directory_matches kind]
    constructor
    · exact fun same => ⟨kind,base,name,same⟩
    · rintro ⟨_,_,other,same⟩
      obtain ⟨rfl,_⟩ := name.unique other
      exact same

theorem Conventional.confused (one : Conventional entry) (two : Conventional other) (first : entryMatches entry query = true)
    (second : entryMatches other query = true) :
    FatDirectoryItem.isSubdirectory entry = FatDirectoryItem.isSubdirectory other ∧ SameName entry other := by
  by_cases separated : dot ∈ cString query
  · obtain ⟨b,e,asked,none⟩ := List.eq_append_cons_of_mem separated
    obtain ⟨kind,base,ext,name,same,sameExt⟩ := (one.file_iff asked none).mp first
    obtain ⟨kind',base',ext',name',same',sameExt'⟩ := (two.file_iff asked none).mp second
    exact ⟨kind.trans kind'.symm,base,ext,base',ext',name,name',same.trans same'.symm,sameExt.trans sameExt'.symm⟩
  · obtain ⟨kind,base,name,same⟩ := (one.directory_iff separated).mp first
    obtain ⟨kind',base',name',same'⟩ := (two.directory_iff separated).mp second
    exact ⟨kind.trans kind'.symm,base,[],base',[],name,name',same.trans same'.symm,.refl []⟩

-- What the search gives when it answers to this predicate: the item of the first
-- entry that has it, or NULL where there is none.
structure Picks (dev : BlockDevice) (k : Kernel) (items : List FatDirectoryItem) (P : FatDirectoryItem → Prop) (ptr : Nat) (after : Kernel) : Prop where
  found : ptr ≠ 0 → ∃ front entry back node, items = front++entry::back ∧ P entry ∧ (∀ other ∈ front, ¬ P other) ∧
    (volumeOf dev k.disk).node entry = .ok node ∧ Grown k after ∧ Holds k after ptr node
  missing : ptr = 0 ↔ ∀ entry ∈ items, ¬ P entry

theorem Searched.picks {k : Kernel} (searched : Searched k directory items) (valid : HeapValid k) (mounted : Mounted k.disk fprivate)
    (dev : BlockDevice) (answers : ∀ entry ∈ items, (entryMatches entry query = true ↔ P entry))
    (enough : ∀ entry ∈ items, newFatItemWith (supplied dev) entry k ≠ .error .full)
    (loads : ∀ entry ∈ items, FatDirectoryItem.isSubdirectory entry = true →
      ∃ list, volumeOf dev k.disk entry.low16BitsFirstCluster = .ok (.ok list)) :
    ∃ ptr after, fat16FindItemInDirectory dev directory query k = .ok (ptr,after) ∧ Picks dev k items P ptr after := by
  rw [searched.find]
  cases found : items.find? (fun entry => entryMatches entry query) with
  | none =>
    have unmatched := List.find?_eq_none.mp found
    refine ⟨0,k,rfl,fun some => absurd rfl some,fun _ entry member named => ?_,fun _ => rfl⟩
    exact unmatched entry member ((answers entry member).mpr named)
  | some entry =>
    have member := List.mem_of_find?_eq_some found
    obtain ⟨matched,front,back,split,others⟩ := List.find?_eq_some_iff_append.mp found
    have named := (answers entry member).mp matched
    have realizes := newFatItem_supplied valid mounted (.refl _) dev entry
    have plainly := newFatItem_watches (supplied_watching dev) entry k
    have room := enough entry member
    generalize newFatItemWith (supplied dev) entry k = result at realizes plainly room
    cases realizes with
    | @ok node ptr after value answer =>
      have ran := plainly.returned rfl
      rw [newFatItemWith_plain] at ran
      obtain ⟨grown,nonnull,holds⟩ := answer
      refine ⟨ptr,after,ran,fun _ => ⟨front,entry,back,node,split,named,fun other listed => ?_,value,grown,holds⟩,
        fun null => absurd null nonnull,fun none => absurd named (none entry member)⟩
      have unmatched := others other listed
      rw [← answers other (by rw [split]; exact List.mem_append_left _ listed)]
      simpa using unmatched
    | fault value =>
      exfalso
      unfold Volume.node at value
      by_cases sub : FatDirectoryItem.isSubdirectory entry = true
      · obtain ⟨list,loaded⟩ := loads entry member sub
        rw [if_pos sub,loaded] at value
        cases value
      · rw [if_neg sub] at value
        cases value
    | stopped reason => exact absurd (congrArg Except.error reason) room

theorem lookup_exact {k : Kernel} (valid : HeapValid k) (mounted : Mounted k.disk fprivate) (searched : Searched k directory items)
    (listed : ∀ entry ∈ items, Conventional entry) (dev : BlockDevice)
    (enough : ∀ entry ∈ items, newFatItemWith (supplied dev) entry k ≠ .error .full)
    (loads : ∀ entry ∈ items, FatDirectoryItem.isSubdirectory entry = true →
      ∃ list, volumeOf dev k.disk entry.low16BitsFirstCluster = .ok (.ok list)) (query : List UInt8) :
    (∀ b e, cString query = b++dot::e → dot ∉ b →
      ∃ ptr after, fat16FindItemInDirectory dev directory query k = .ok (ptr,after) ∧ Picks dev k items (FileNamed b e) ptr after) ∧
    (dot ∉ cString query → ∃ ptr after, fat16FindItemInDirectory dev directory query k = .ok (ptr,after) ∧
      Picks dev k items (DirectoryNamed (cString query)) ptr after) ∧
    ∀ entry ∈ items, ∀ other ∈ items, entryMatches entry query = true → entryMatches other query = true →
      FatDirectoryItem.isSubdirectory entry = FatDirectoryItem.isSubdirectory other ∧ SameName entry other := by
  refine ⟨fun b e asked first => ?_,fun none => ?_,fun entry one other two => (listed entry one).confused (listed other two)⟩
  · exact searched.picks valid mounted dev (fun entry member => (listed entry member).file_iff asked first) enough loads
  · exact searched.picks valid mounted dev (fun entry member => (listed entry member).directory_iff none) enough loads

theorem room_blocks {k : Kernel} (valid : HeapValid k) (room : Room k.heap 2) : TwoBlocks k := by
  obtain ⟨item,one,first,served⟩ := kzalloc_served 8 1 valid (.fatItem ⟨0,.directory⟩) (by decide) (by decide) room
  obtain ⟨copy,two,second,last⟩ := kzalloc_served 32 0 served.grown.valid (.directoryItems [zeroDirectoryItem]) (by decide) (by decide) served.room
  exact ⟨item,one,copy,two,first,served.nonnull,second,last.nonnull⟩

theorem few_searched (items : List FatDirectoryItem) (disk : Disk) : ∃ array k, HeapValid k ∧
    Searched k ⟨array,(items.length : Nat),0,0⟩ items ∧ Room k.heap 131071 ∧ k.disk = disk := by
  obtain ⟨array,k,ran,served⟩ := kzalloc_served 4096 131071 (boot_valid bootEntries disk rfl) (.directoryItems items) (by decide) (by decide)
    (boot_room bootEntries disk)
  refine ⟨array,k,served.grown.valid,⟨rfl,fun _ => ⟨[],?_⟩⟩,served.room,kzalloc_disk ran⟩
  rw [List.append_nil]
  exact served.held

def lettered (c : UInt8) (ext : List UInt8) (attr : UInt8) : FatDirectoryItem :=
  ⟨c::List.replicate 7 asciiSpace,ext++List.replicate (3-ext.length) asciiSpace,attr,2,0⟩

theorem lettered_name (letter : NameChar c) (small : ext.length ≤ 3) (chars : ∀ c ∈ ext, NameChar c) (attr : UInt8) :
    ShortName (lettered c ext attr) [c] ext := by
  refine ⟨rfl,rfl,⟨by rw [List.length_singleton],by rw [List.length_singleton]; decide,small⟩,?_⟩
  intro other member
  rcases List.mem_append.mp member with front | back
  · rw [List.mem_singleton.mp front]
    exact letter
  · exact chars other back

theorem singleton_chars (letter : NameChar c) : ∀ other ∈ [c], NameChar other := by
  intro other member
  rw [List.mem_singleton.mp member]
  exact letter

theorem letterA : NameChar asciiA := by decide

theorem letterB : NameChar 66 := by decide

def fileBA : FatDirectoryItem := lettered 66 [asciiA] 0
def fileAB : FatDirectoryItem := lettered asciiA [66] 0
def fileAA : FatDirectoryItem := lettered asciiA [asciiA] 0
def directoryA : FatDirectoryItem := lettered asciiA [] fatFileSubdirectory

theorem fileBA_live : LiveFile fileBA [66] [asciiA] := ⟨lettered_name letterB (by decide) (singleton_chars letterA) 0,by decide,by decide⟩

theorem fileAB_live : LiveFile fileAB [asciiA] [66] := ⟨lettered_name letterA (by decide) (singleton_chars letterB) 0,by decide,by decide⟩

theorem fileAA_live : LiveFile fileAA [asciiA] [asciiA] := ⟨lettered_name letterA (by decide) (singleton_chars letterA) 0,by decide,by decide⟩

theorem extension_found : ∃ array k ptr after, Searched k ⟨array,3,0,0⟩ [fileBA,fileAB,fileAA] ∧
    fat16FindItemInDirectory (fun _ => none) ⟨array,3,0,0⟩ [97,dot,97] k = .ok (ptr,after) ∧ CopyOf after ptr fileAA := by
  obtain ⟨array,k,valid,searched,room,_⟩ := few_searched [fileBA,fileAB,fileAA] rootDisk
  have split : Searched k ⟨array,3,0,0⟩ ([fileBA,fileAB]++fileAA::[]) := searched
  have files : ∀ other ∈ [fileBA,fileAB]++fileAA::[], ∃ base ext, LiveFile other base ext := by
    intro other member
    simp only [List.cons_append,List.nil_append,List.mem_cons,List.not_mem_nil,or_false] at member
    rcases member with rfl | rfl | rfl
    · exact ⟨_,_,fileBA_live⟩
    · exact ⟨_,_,fileAB_live⟩
    · exact ⟨_,_,fileAA_live⟩
  have others : ∀ other ∈ [fileBA,fileAB], ¬ SameName other fileAA := by
    intro other member
    simp only [List.mem_cons,List.not_mem_nil,or_false] at member
    rcases member with rfl | rfl
    · rw [fileAA_live.sameName fileBA_live]
      decide
    · rw [fileAA_live.sameName fileAB_live]
      decide
  obtain ⟨ptr,after,found⟩ := (dos_name_found valid split files (by decide) fileAA_live.name [97,dot,97] (by decide) (fun _ => none)).mpr
    ⟨by decide,others,room_blocks valid (room.less (by decide))⟩
  exact ⟨array,k,ptr,after,searched,found⟩

theorem only_file_picked : ∃ array k file one directory two,
    fat16FindItemInDirectory (imageDevice listingImage) ⟨array,3,0,0⟩ [97,dot,97] k = .ok (file,one) ∧
    Picks (imageDevice listingImage) k [directoryA,fileBA,fileAA] (FileNamed [97] [97]) file one ∧ file ≠ 0 ∧
    fat16FindItemInDirectory (imageDevice listingImage) ⟨array,3,0,0⟩ [97] k = .ok (directory,two) ∧
    Picks (imageDevice listingImage) k [directoryA,fileBA,fileAA] (DirectoryNamed [97]) directory two ∧ directory ≠ 0 := by
  obtain ⟨array,k,valid,searched,room,disk⟩ := few_searched [directoryA,fileBA,fileAA] listingDisk
  have mounted : Mounted k.disk listingPrivate := by
    rw [disk]
    exact listing_mounted
  have named : ShortName directoryA [asciiA] [] := lettered_name letterA (by decide) (fun _ none => by cases none) fatFileSubdirectory
  have sub : FatDirectoryItem.isSubdirectory directoryA = true := by decide
  obtain ⟨disk',listed⟩ : ∃ after, Listed (imageDevice listingImage) k.disk 2 2 (slice listingImage 1536 64) after := by
    rw [disk]
    exact listing_listed
  have conventional : ∀ entry ∈ [directoryA,fileBA,fileAA], Conventional entry := by
    intro entry member
    simp only [List.mem_cons,List.not_mem_nil,or_false] at member
    rcases member with rfl | rfl | rfl
    · exact .directory named sub
    · exact .file fileBA_live.name (by decide) fileBA_live.file
    · exact .file fileAA_live.name (by decide) fileAA_live.file
  have made {entry : FatDirectoryItem} (file : FatDirectoryItem.isSubdirectory entry = false) : newFatItemWith (supplied (imageDevice listingImage)) entry k ≠ .error .full := by
    obtain ⟨item,target,after,ran,_⟩ := newFatItem_run (supplied_faithful (imageDevice listingImage)) valid file (show Room k.heap (2+131069) from room)
    rw [ran]
    exact nofun
  have all := lookup_exact valid mounted searched conventional (imageDevice listingImage) (fun entry member => by
    simp only [List.mem_cons,List.not_mem_nil,or_false] at member
    rcases member with rfl | rfl | rfl
    · obtain ⟨item,after,ran,_⟩ := newFatItem_directory (supplied_faithful (imageDevice listingImage)) (supplied_loads (imageDevice listingImage))
        valid sub listed (show Room k.heap (3+131068) from room)
      rw [ran]
      exact nofun
    · exact made fileBA_live.file
    · exact made fileAA_live.file) (fun entry member sub => by
    simp only [List.mem_cons,List.not_mem_nil,or_false] at member
    rcases member with rfl | rfl | rfl
    · exact ⟨_,listed.table⟩
    · exact absurd (fileBA_live.file.symm.trans sub) (by decide)
    · exact absurd (fileAA_live.file.symm.trans sub) (by decide))
  obtain ⟨file,one,ran,picks⟩ := (all [97,dot,97]).1 [97] [97] rfl (by decide)
  obtain ⟨directory,two,ran',picks'⟩ := (all [97]).2.1 (by decide)
  refine ⟨array,k,file,one,directory,two,ran,picks,fun null => ?_,ran',picks',fun null => ?_⟩
  · exact picks.missing.mp null fileAA (by simp) ⟨fileAA_live.file,_,_,fileAA_live.name,by decide,by decide⟩
  · exact picks'.missing.mp null directoryA (by simp) ⟨sub,_,named,by decide⟩

theorem blank_extension_missed : ∃ array k, HeapValid k ∧ Room k.heap 2 ∧ Searched k ⟨array,1,0,0⟩ [lettered asciiA [] 0] ∧
    LiveFile (lettered asciiA [] 0) [asciiA] [] ∧
    fat16FindItemInDirectory (fun _ => none) ⟨array,1,0,0⟩ [asciiA] k = .ok (0,k) := by
  obtain ⟨array,k,valid,searched,room,_⟩ := few_searched [lettered asciiA [] 0] rootDisk
  have live : LiveFile (lettered asciiA [] 0) [asciiA] [] :=
    ⟨lettered_name letterA (by decide) (fun _ none => by cases none) 0,by decide,by decide⟩
  have searched' : Searched k ⟨array,1,0,0⟩ [lettered asciiA [] 0] := searched
  refine ⟨array,k,valid,room.less (by decide),searched,live,?_⟩
  rw [searched'.find,blank_unmatched (fun other member => ?_) (by decide)]
  rw [List.mem_singleton.mp member]
  exact ⟨_,_,live⟩

end NutsOS.Fat16
