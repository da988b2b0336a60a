import Mathlib.Init

-- Programs over a state of type σ that return a value or stop with a fault.
def Prog (ε σ α : Type) : Type := σ → Except ε (α × σ)

namespace Prog

variable {ε σ τ α β : Type}

instance : Monad (Prog ε σ) where
  pure a := fun s => .ok (a,s)
  bind x f := fun s => match x s with
    | .error e => .error e
    | .ok (a,t) => f a t

def fault (e : ε) : Prog ε σ α := fun _ => .error e
def get : Prog ε σ σ := fun s => .ok (s,s)
def modify (f : σ → σ) : Prog ε σ Unit := fun s => .ok ((),f s)

-- A statement under a condition, with nothing in its place otherwise.
def when (c : Prop) [Decidable c] (x : Prog ε σ Unit) : Prog ε σ Unit := if c then x else pure ()

-- A program over one component of a larger state.
def focus (view : τ → σ) (put : τ → σ → τ) (x : Prog ε σ α) : Prog ε τ α := fun t =>
  match x (view t) with
  | .error e => .error e
  | .ok (a,s) => .ok (a,put t s)

-- Forward rules: running a program whose parts are known.
@[simp] theorem pure_run (a : α) (s : σ) : (pure a : Prog ε σ α) s = .ok (a,s) := rfl
@[simp] theorem fault_run (e : ε) (s : σ) : (fault e : Prog ε σ α) s = .error e := rfl
@[simp] theorem get_run (s : σ) : (get : Prog ε σ σ) s = .ok (s,s) := rfl
@[simp] theorem modify_run (f : σ → σ) (s : σ) : (modify f : Prog ε σ Unit) s = .ok ((),f s) := rfl

theorem bind_run {x : Prog ε σ α} {f : α → Prog ε σ β} (ran : x s = .ok (a,t)) :
    (x >>= f) s = f a t := by
  show (match x s with | Except.error e => Except.error e | Except.ok (a,t) => f a t) = f a t
  rw [ran]

theorem bind_fault {x : Prog ε σ α} {f : α → Prog ε σ β} (failed : x s = .error e) :
    (x >>= f) s = .error e := by
  show (match x s with | Except.error e => Except.error e | Except.ok (a,t) => f a t) = Except.error e
  rw [failed]

@[simp] theorem get_bind (f : σ → Prog ε σ β) (s : σ) : (get >>= f) s = f s s := rfl
@[simp] theorem pure_bind (a : α) (f : α → Prog ε σ β) (s : σ) : (pure a >>= f) s = f a s := rfl
@[simp] theorem fault_bind (e : ε) (f : α → Prog ε σ β) (s : σ) :
    ((fault e : Prog ε σ α) >>= f) s = .error e := rfl
@[simp] theorem modify_bind (g : σ → σ) (f : Unit → Prog ε σ β) (s : σ) :
    (modify g >>= f) s = f () (g s) := rfl

theorem when_true {c : Prop} [Decidable c] (holds : c) (x : Prog ε σ Unit) : when c x = x := if_pos holds
theorem when_false {c : Prop} [Decidable c] (fails : ¬ c) (x : Prog ε σ Unit) : when c x = pure () := if_neg fails

-- Inversion: what a run that returned went through.
theorem bind_ok {x : Prog ε σ α} {f : α → Prog ε σ β} :
    (x >>= f) s = .ok (b,u) ↔ ∃ a t, x s = .ok (a,t) ∧ f a t = .ok (b,u) := by
  constructor
  · intro ran
    cases first : x s with
    | error e => rw [bind_fault first] at ran; cases ran
    | ok result =>
      obtain ⟨a,t⟩ := result
      rw [bind_run first] at ran
      exact ⟨a,t,rfl,ran⟩
  · rintro ⟨a,t,first,rest⟩
    rw [bind_run first]
    exact rest

-- And what a run that stopped went through.
theorem bind_error {x : Prog ε σ α} {f : α → Prog ε σ β} (failed : (x >>= f) s = .error e) :
    x s = .error e ∨ ∃ a t, x s = .ok (a,t) ∧ f a t = .error e := by
  cases first : x s with
  | error other =>
    rw [bind_fault first] at failed
    cases failed
    exact .inl rfl
  | ok result =>
    rw [bind_run first] at failed
    exact .inr ⟨_,_,rfl,failed⟩

theorem focus_run {view : τ → σ} {put : τ → σ → τ} {x : Prog ε σ α} {t : τ}
    (ran : x (view t) = .ok (a,s)) : focus view put x t = .ok (a,put t s) := by
  unfold focus
  rw [ran]

theorem focus_fault {view : τ → σ} {put : τ → σ → τ} {x : Prog ε σ α} {t : τ}
    (failed : x (view t) = .error e) : focus view put x t = .error e := by
  unfold focus
  rw [failed]

theorem focus_ok {view : τ → σ} {put : τ → σ → τ} {x : Prog ε σ α} {t u : τ} :
    focus view put x t = .ok (a,u) ↔ ∃ s, x (view t) = .ok (a,s) ∧ u = put t s := by
  unfold focus
  cases ran : x (view t) with
  | error e => simp
  | ok result =>
    obtain ⟨b,s⟩ := result
    constructor
    · intro equal; cases equal; exact ⟨s,rfl,rfl⟩
    · rintro ⟨s,equal,rfl⟩; cases equal; rfl

end Prog
