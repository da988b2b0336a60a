import Mathlib.Data.List.Nodup

-- Doubly linked lists over any kind of node, seen through their two link
-- functions. Nothing here refers to a particular program.
namespace Links

variable {α : Type} {next prev : α → α} {p q : α}

-- The nodes between p and q, linked both ways.
def Segment (next prev : α → α) : α → List α → α → Prop
  | _,[],_ => True
  | p,x::xs,q => prev x = p ∧ next x = xs.headD q ∧ Segment next prev x xs q

theorem getLastD_append_cons {xs ys : List α} {x d : α} : (xs++x::ys).getLastD d = ys.getLastD x := by
  induction xs generalizing d with
  | nil => rw [List.nil_append,List.getLastD_cons]
  | cons a xs ih => rw [List.cons_append,List.getLastD_cons,ih]

-- A list with its two ends; `null` stands behind both of them.
structure Linked (next prev : α → α) (null head tail : α) (xs : List α) : Prop where
  head_eq : head = xs.headD null
  tail_eq : tail = xs.getLastD null
  segment : Segment next prev null xs null
  distinct : xs.Nodup
  nonnull : null ∉ xs

theorem segment_append {xs ys : List α} :
    Segment next prev p (xs++ys) q ↔ Segment next prev p xs (ys.headD q) ∧ Segment next prev (xs.getLastD p) ys q := by
  induction xs generalizing p with
  | nil => simp [Segment]
  | cons x xs ih =>
    have first : (xs++ys).headD q = xs.headD (ys.headD q) := by
      cases xs <;> simp
    rw [List.cons_append,Segment,Segment,ih,first,List.getLastD_cons]
    simp only [and_assoc]

theorem Segment.congr {next' prev' : α → α} {xs : List α} (valid : Segment next prev p xs q)
    (nexts : ∀ x ∈ xs, next' x = next x) (prevs : ∀ x ∈ xs, prev' x = prev x) : Segment next' prev' p xs q := by
  induction xs generalizing p with
  | nil => trivial
  | cons x xs ih =>
    obtain ⟨before,after,rest⟩ := valid
    refine ⟨?_,?_,ih rest ?_ ?_⟩
    · rw [prevs x List.mem_cons_self,before]
    · rw [nexts x List.mem_cons_self,after]
    · exact fun y member => nexts y (List.mem_cons_of_mem _ member)
    · exact fun y member => prevs y (List.mem_cons_of_mem _ member)

theorem Segment.relast {next' prev' : α → α} {xs : List α} {x : α} (valid : Segment next prev p (xs++[x]) q)
    (nexts : ∀ y ∈ xs, next' y = next y) (prevs : ∀ y ∈ xs++[x], prev' y = prev y) (last : next' x = r) :
    Segment next' prev' p (xs++[x]) r := by
  obtain ⟨front,before,_,_⟩ := segment_append.mp valid
  apply segment_append.mpr
  refine ⟨front.congr nexts (fun y member => prevs y (List.mem_append_left _ member)),?_,last,trivial⟩
  rw [prevs x (by simp),before]

theorem Segment.rehead {next' prev' : α → α} {ys : List α} {y : α} (valid : Segment next prev p (y::ys) q)
    (nexts : ∀ x ∈ y::ys, next' x = next x) (prevs : ∀ x ∈ ys, prev' x = prev x) (first : prev' y = r) :
    Segment next' prev' r (y::ys) q := by
  obtain ⟨_,after,rest⟩ := valid
  refine ⟨first,?_,rest.congr (fun x member => nexts x (List.mem_cons_of_mem _ member)) prevs⟩
  rw [nexts y List.mem_cons_self,after]

theorem linked_nil (next prev : α → α) (null : α) : Linked next prev null null null [] :=
  ⟨rfl,rfl,trivial,List.nodup_nil,List.not_mem_nil⟩

theorem linked_singleton {null x : α} (before : prev x = null) (after : next x = null) (some : x ≠ null) :
    Linked next prev null x x [x] :=
  ⟨rfl,rfl,⟨before,after,trivial⟩,List.nodup_singleton x,by simpa using some.symm⟩

theorem Linked.push {next' prev' : α → α} {null head x y : α} {xs : List α}
    (valid : Linked next prev null head y (xs++[y])) (fresh : x ∉ xs++[y]) (some : x ≠ null)
    (nexts : ∀ a ∈ xs, next' a = next a) (prevs : ∀ a ∈ xs++[y], prev' a = prev a)
    (link : next' y = x) (before : prev' x = y) (after : next' x = null) :
    Linked next' prev' null head x (xs++[y]++[x]) := by
  refine ⟨?_,by simp,?_,?_,?_⟩
  · rw [valid.head_eq]
    cases xs <;> simp
  · apply segment_append.mpr
    refine ⟨valid.segment.relast nexts prevs link,?_,after,trivial⟩
    rw [before]
    simp
  · exact List.nodup_append'.mpr ⟨valid.distinct,List.nodup_singleton x,by simpa using fresh⟩
  · intro member
    rcases List.mem_append.mp member with old | new
    · exact valid.nonnull old
    · exact some (List.mem_singleton.mp new).symm

theorem Linked.unlink {next' prev' : α → α} {null head tail w x y : α} {ws ys : List α}
    (valid : Linked next prev null head tail (ws++[w]++x::y::ys))
    (nexts : ∀ a ∈ ws++y::ys, next' a = next a) (prevs : ∀ a ∈ ws++[w]++ys, prev' a = prev a)
    (forth : next' w = y) (back : prev' y = w) :
    Linked next' prev' null head tail (ws++[w]++y::ys) := by
  obtain ⟨head_eq,tail_eq,segment,distinct,nonnull⟩ := valid
  obtain ⟨front,rest⟩ := segment_append.mp segment
  refine ⟨?_,?_,?_,?_,?_⟩
  · rw [head_eq]
    cases ws <;> simp
  · rw [tail_eq]
    cases ys <;> simp
  · apply segment_append.mpr
    refine ⟨front.relast (fun a member => nexts a (List.mem_append_left _ member))
      (fun a member => prevs a (List.mem_append_left _ member)) forth,?_⟩
    refine rest.2.2.rehead (fun a member => nexts a (List.mem_append_right _ member))
      (fun a member => prevs a (List.mem_append_right _ member)) ?_
    rw [back]
    simp
  · exact List.Nodup.sublist (List.Sublist.append (List.Sublist.refl _) (List.sublist_cons_self _ _)) distinct
  · intro member
    apply nonnull
    rcases List.mem_append.mp member with old | new
    · exact List.mem_append_left _ old
    · exact List.mem_append_right _ (List.mem_cons_of_mem _ new)

theorem Linked.inner {null head tail w x y : α} {ws ys : List α} (valid : Linked next prev null head tail (ws++[w]++x::y::ys)) :
    x ≠ head ∧ x ≠ tail := by
  obtain ⟨_,distinct,apart⟩ := List.nodup_append'.mp valid.distinct
  constructor
  · rintro rfl
    have front : x ∈ ws++[w] := by
      rw [valid.head_eq]
      cases ws <;> simp
    exact apart front List.mem_cons_self
  · rintro rfl
    have back : x ∈ y::ys := by
      rw [valid.tail_eq,getLastD_append_cons,List.getLastD_cons]
      exact List.getLastD_mem_cons
    exact (List.nodup_cons.mp distinct).1 back

theorem Linked.at_node {null head tail x : α} (xs ys : List α) (valid : Linked next prev null head tail (xs++x::ys)) :
    prev x = xs.getLastD null ∧ next x = ys.headD null := by
  obtain ⟨_,before,after,_⟩ := segment_append.mp valid.segment
  exact ⟨before,after⟩

theorem Linked.cyclic [DecidableEq α] {null head tail : α} {xs : List α} (valid : Linked next prev null head tail xs)
    (inside : i < xs.length) : (if next xs[i] = null then head else next xs[i]) = xs.getD ((i+1)%xs.length) null := by
  have split : xs = xs.take i++xs[i]::xs.drop (i+1) := by simp
  obtain ⟨_,after⟩ := Linked.at_node (xs.take i) (xs.drop (i+1)) (split ▸ valid)
  by_cases last : i+1 = xs.length
  · rw [List.drop_eq_nil_of_le (Nat.le_of_eq last.symm)] at after
    have none : next xs[i] = null := after
    rw [if_pos none,last,Nat.mod_self,valid.head_eq]
    cases xs <;> rfl
  · have behind : i+1 < xs.length := by omega
    rw [List.drop_eq_getElem_cons behind] at after
    have some : next xs[i] ≠ null := by
      intro none
      rw [none,List.headD_cons] at after
      exact valid.nonnull (after ▸ List.getElem_mem behind)
    rw [if_neg some,after,Nat.mod_eq_of_lt behind,List.getD_eq_getElem?_getD,List.getElem?_eq_getElem behind]
    rfl

end Links
