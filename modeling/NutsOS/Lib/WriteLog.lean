import Mathlib.Logic.Basic

-- A map updated cell by cell, and the history of its writes. Nothing here
-- refers to a particular program.
namespace WriteLog

variable {α β γ : Type} [DecidableEq α]

def write (m : α → β) (entry : α × β) : α → β := fun a => if a = entry.1 then entry.2 else m a

def replay (initial : α → β) (log : List (α × β)) : α → β := log.foldl write initial

-- What the last write to a cell left there.
def lastWrite (log : List (α × β)) (a : α) : Option β :=
  match log with
  | [] => none
  | entry::rest => (lastWrite rest a).or (if a = entry.1 then some entry.2 else none)

@[simp] theorem replay_nil (initial : α → β) : replay initial [] = initial := rfl

@[simp] theorem replay_cons (initial : α → β) (entry : α × β) (rest : List (α × β)) :
    replay initial (entry::rest) = replay (write initial entry) rest := rfl

theorem replay_append (initial : α → β) (one two : List (α × β)) :
    replay initial (one++two) = replay (replay initial one) two := List.foldl_append

theorem replay_eq (initial : α → β) (log : List (α × β)) (a : α) :
    replay initial log a = (lastWrite log a).getD (initial a) := by
  induction log generalizing initial with
  | nil => rfl
  | cons entry rest ih =>
    rw [replay_cons,ih,lastWrite]
    cases lastWrite rest a with
    | some value => rfl
    | none =>
      unfold write
      split <;> rfl

theorem lastWrite_append (one two : List (α × β)) (a : α) : lastWrite (one++two) a = (lastWrite two a).or (lastWrite one a) := by
  induction one with
  | nil =>
    rw [List.nil_append,lastWrite,Option.or_none]
  | cons entry rest ih =>
    rw [List.cons_append,lastWrite,lastWrite,ih,Option.or_assoc]

theorem lastWrite_mem {log : List (α × β)} {a : α} {b : β} (found : lastWrite log a = some b) : (a,b) ∈ log := by
  induction log with
  | nil => cases found
  | cons entry rest ih =>
    rw [lastWrite] at found
    cases later : lastWrite rest a with
    | some value =>
      rw [later] at found
      exact List.mem_cons_of_mem _ (ih (later.trans found))
    | none =>
      rw [later] at found
      by_cases here : a = entry.1
      · rw [if_pos here] at found
        cases found
        rw [here]
        exact List.mem_cons_self
      · rw [if_neg here] at found
        cases found

theorem lastWrite_of_mem {log : List (α × β)} {a : α} {b : β} (written : (a,b) ∈ log) : ∃ last, lastWrite log a = some last := by
  induction log with
  | nil => cases written
  | cons entry rest ih =>
    rw [lastWrite]
    cases written with
    | head =>
      rw [if_pos rfl]
      cases lastWrite rest a with
      | some value => exact ⟨value,rfl⟩
      | none => exact ⟨b,rfl⟩
    | tail _ later =>
      obtain ⟨last,found⟩ := ih later
      rw [found]
      exact ⟨last,rfl⟩

theorem lastWrite_none {log : List (α × β)} {a : α} (unwritten : ∀ b, (a,b) ∉ log) : lastWrite log a = none := by
  cases found : lastWrite log a with
  | none => rfl
  | some b => exact absurd (lastWrite_mem found) (unwritten b)

theorem lastWrite_map (f : β → γ) (log : List (α × β)) (a : α) :
    lastWrite (log.map (fun entry => (entry.1,f entry.2))) a = (lastWrite log a).map f := by
  induction log with
  | nil => rfl
  | cons entry rest ih =>
    rw [List.map_cons,lastWrite,lastWrite,ih]
    cases lastWrite rest a with
    | some value => rfl
    | none =>
      by_cases here : a = entry.1
      · rw [if_pos here,if_pos here]
        rfl
      · rw [if_neg here,if_neg here]
        rfl

theorem replay_filter {σ : Type} {effect : σ → Option (α × β)} {keep : σ → Bool} {steps : List σ} {a : α} (initial : α → β)
    (others : ∀ step ∈ steps, keep step = false → ∀ b, effect step ≠ some (a,b)) :
    replay initial (steps.filterMap effect) a = replay initial ((steps.filter keep).filterMap effect) a := by
  have same : lastWrite (steps.filterMap effect) a = lastWrite ((steps.filter keep).filterMap effect) a := by
    induction steps with
    | nil => rfl
    | cons step rest ih =>
      have later := ih (fun other member => others other (List.mem_cons_of_mem _ member))
      cases kept : keep step with
      | true =>
        rw [List.filter_cons_of_pos kept]
        cases done : effect step with
        | none => rw [List.filterMap_cons_none done,List.filterMap_cons_none done,later]
        | some entry => rw [List.filterMap_cons_some done,List.filterMap_cons_some done,lastWrite,lastWrite,later]
      | false =>
        rw [List.filter_cons_of_neg (by simp [kept])]
        cases done : effect step with
        | none => rw [List.filterMap_cons_none done,later]
        | some entry =>
          have elsewhere : a ≠ entry.1 := by
            intro here
            exact others step List.mem_cons_self kept entry.2 (by rw [done,here])
          rw [List.filterMap_cons_some done,lastWrite,if_neg elsewhere,Option.or_none,later]
  rw [replay_eq,replay_eq,same]

end WriteLog
