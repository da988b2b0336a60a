import Mathlib.Data.List.Nodup
import Mathlib.Data.Finset.Card
import Mathlib.Order.Interval.Finset.Nat

-- Chains of a partial successor function that end where it has no value.
namespace Successor

variable {α : Type}

def Terminates (next : α → Option α) : List α → Prop
  | [] => False
  | [c] => next c = none
  | c::d::rest => next c = some d ∧ Terminates next (d::rest)

theorem Terminates.tail {next : α → Option α} (chain : Terminates next (c::d::rest)) :
    Terminates next (d::rest) := chain.2

theorem Terminates.suffix {next : α → Option α} (before : List α)
    (chain : Terminates next (before++c::rest)) : Terminates next (c::rest) := by
  induction before with
  | nil => exact chain
  | cons head before ih =>
    cases before with
    | nil => exact chain.2
    | cons second before => exact ih chain.2

theorem Terminates.unique {next : α → Option α} (one : Terminates next (c::rest))
    (two : Terminates next (c::other)) : rest = other := by
  induction rest generalizing c other with
  | nil =>
    cases other with
    | nil => rfl
    | cons d other => have stop : next c = none := one; rw [two.1] at stop; cases stop
  | cons d rest ih =>
    cases other with
    | nil => have stop : next c = none := two; rw [one.1] at stop; cases stop
    | cons e other =>
      have same : d = e := by have left := one.1; rw [two.1] at left; exact (Option.some.inj left).symm
      subst same
      rw [ih one.2 two.2]

theorem Terminates.nodup {next : α → Option α} {chain : List α} (ends : Terminates next chain) :
    chain.Nodup := by
  induction chain with
  | nil => exact List.nodup_nil
  | cons c rest ih =>
    have fresh : c ∉ rest := by
      intro member
      obtain ⟨before,after,equal⟩ := List.append_of_mem member
      have again : Terminates next (c::after) := by
        have whole : Terminates next ((c::before)++c::after) := by simpa [equal] using ends
        exact whole.suffix
      have lengths := congrArg List.length (ends.unique again)
      simp [equal] at lengths
      omega
    cases rest with
    | nil => exact List.nodup_singleton c
    | cons d rest => exact List.Nodup.cons fresh (ih ends.2)

theorem exists_large {chain : List Nat} (distinct : chain.Nodup) (some : chain ≠ [])
    (low : ∀ c ∈ chain, 2 ≤ c) : ∃ c ∈ chain, chain.length < c := by
  refine Classical.byContradiction (fun bounded => ?_)
  have inside : chain.toFinset ⊆ Finset.Icc 2 chain.length := by
    intro c member
    have listed := List.mem_toFinset.mp member
    have small : c ≤ chain.length := Nat.le_of_not_lt (fun large => bounded ⟨c,listed,large⟩)
    exact Finset.mem_Icc.mpr ⟨low c listed,small⟩
  have count := Finset.card_le_card inside
  rw [List.toFinset_card_of_nodup distinct,Nat.card_Icc] at count
  have positive := List.length_pos_iff.mpr some
  omega

theorem terminates_range {next : Nat → Option Nat} (start count : Nat) (steps : ∀ c, start ≤ c → c < start+count → next c = some (c+1))
    (last : next (start+count) = none) : Terminates next (List.range' start (count+1)) := by
  induction count generalizing start with
  | zero => exact last
  | succ count ih =>
    refine ⟨steps start (Nat.le_refl start) (by omega),ih (start+1) (fun c low high => steps c (by omega) (by omega)) ?_⟩
    rw [← last]
    congr 1
    omega

end Successor
