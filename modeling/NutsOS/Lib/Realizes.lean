import NutsOS.Lib.Watch

-- A program against a function that says what it computes: it returns a value
-- that stands for the function's value, faults with the function's fault, or
-- stops for a reason of its own. Nothing here refers to a particular program.
namespace Prog

variable {ε η σ α β γ δ : Type}

inductive Realizes (lift : ε → η) (own : η → Prop) (value : Except ε α) (R : α → β → σ → Prop) : Except η (β × σ) → Prop where
  | ok (equal : value = .ok a) (related : R a b t) : Realizes lift own value R (.ok (b,t))
  | fault (equal : value = .error e) : Realizes lift own value R (.error (lift e))
  | stopped (reason : own stop) : Realizes lift own value R (.error stop)

variable {lift : ε → η} {own : η → Prop}

theorem Realizes.bind {value : Except ε α} {g : α → Except ε γ} {R : α → β → σ → Prop} {S : γ → δ → σ → Prop}
    {x : Prog η σ β} {f : β → Prog η σ δ} (first : Realizes lift own value R (x s))
    (rest : ∀ a b t, value = .ok a → R a b t → Realizes lift own (g a) S (f b t)) :
    Realizes lift own (value >>= g) S ((x >>= f) s) := by
  generalize ran : x s = result at first
  cases first with
  | ok equal related =>
    rw [bind_run ran,equal]
    exact rest _ _ _ equal related
  | fault equal =>
    rw [bind_fault ran,equal]
    exact .fault rfl
  | stopped reason =>
    rw [bind_fault ran]
    exact .stopped reason

theorem Realizes.mapped {value : Except ε α} {g : α → γ} {R : α → β → σ → Prop} {S : γ → β → σ → Prop} {result : Except η (β × σ)}
    (first : Realizes lift own value R result) (mapped : ∀ a b t, R a b t → S (g a) b t) : Realizes lift own (value.map g) S result := by
  cases first with
  | ok equal related =>
    rw [equal]
    exact .ok rfl (mapped _ _ _ related)
  | fault equal =>
    rw [equal]
    exact .fault rfl
  | stopped reason => exact .stopped reason

theorem Realizes.map {value : Except ε α} {g : α → γ} {R : α → β → σ → Prop} {S : γ → δ → σ → Prop}
    {x : Prog η σ β} {f : β → Prog η σ δ} (first : Realizes lift own value R (x s))
    (rest : ∀ a b t, R a b t → Ends own (S (g a)) (f b t)) : Realizes lift own (value.map g) S ((x >>= f) s) := by
  generalize ran : x s = result at first
  cases first with
  | @ok a b t equal related =>
    rw [bind_run ran,equal]
    have ends := rest a b t related
    generalize f b t = answer at ends
    cases ends with
    | ok holds => exact .ok rfl holds
    | error reason => exact .stopped reason
  | fault equal =>
    rw [bind_fault ran,equal]
    exact .fault rfl
  | stopped reason =>
    rw [bind_fault ran]
    exact .stopped reason

theorem Realizes.after {value : Except ε γ} {Q : β → σ → Prop} {S : γ → δ → σ → Prop}
    {x : Prog η σ β} {f : β → Prog η σ δ} (first : Ends own Q (x s))
    (rest : ∀ b t, Q b t → Realizes lift own value S (f b t)) : Realizes lift own value S ((x >>= f) s) := by
  generalize ran : x s = result at first
  cases first with
  | ok holds =>
    rw [bind_run ran]
    exact rest _ _ holds
  | error reason =>
    rw [bind_fault ran]
    exact .stopped reason

theorem Realizes.weaken {value : Except ε α} {R S : α → β → σ → Prop} {result : Except η (β × σ)}
    (first : Realizes lift own value R result) (weaker : ∀ a b t, R a b t → S a b t) : Realizes lift own value S result := by
  cases first with
  | ok equal related => exact .ok equal (weaker _ _ _ related)
  | fault equal => exact .fault equal
  | stopped reason => exact .stopped reason

end Prog
