import NutsOS.Lib.Prog

-- Two programs run from related states: they fault alike, or return the same
-- value in related states. Nothing here refers to a particular program.
namespace Prog

variable {ε σ τ α β : Type}

inductive Same (S : σ → τ → Prop) : Except ε (α × σ) → Except ε (α × τ) → Prop where
  | ok (a : α) (related : S s t) : Same S (.ok (a,s)) (.ok (a,t))
  | error (e : ε) : Same S (.error e) (.error e)

def Agree (R S : σ → τ → Prop) (x : Prog ε σ α) (y : Prog ε τ α) : Prop := ∀ s t, R s t → Same S (x s) (y t)

variable {R S T : σ → τ → Prop}

theorem Same.weaken {one : Except ε (α × σ)} {two : Except ε (α × τ)} (same : Same S one two)
    (weaker : ∀ s t, S s t → T s t) : Same T one two := by
  cases same with
  | ok a related => exact .ok a (weaker _ _ related)
  | error e => exact .error e

theorem Same.returned {one : Except ε (α × σ)} {two : Except ε (α × τ)} (same : Same S one two) (ran : one = .ok (a,s)) :
    ∃ t, two = .ok (a,t) ∧ S s t := by
  cases same with
  | ok b related =>
    cases ran
    exact ⟨_,rfl,related⟩
  | error e => cases ran

theorem Same.value {one : Except ε (α × σ)} {two : Except ε (α × τ)} (same : Same S one two) :
    one.map Prod.fst = two.map Prod.fst := by
  cases same with
  | ok a related => rfl
  | error e => rfl

theorem agree_strengthen {x : Prog ε σ α} {y : Prog ε τ α} (agree : Agree S T x y) (stronger : ∀ s t, R s t → S s t) :
    Agree R T x y := fun s t related => agree s t (stronger s t related)

theorem agree_pure (a : α) : Agree R R (pure a : Prog ε σ α) (pure a : Prog ε τ α) := fun _ _ related => .ok a related

theorem agree_fault (e : ε) : Agree R S (fault e : Prog ε σ α) (fault e : Prog ε τ α) := fun _ _ _ => .error e

theorem Same.bind {x : Prog ε σ α} {y : Prog ε τ α} {f : α → Prog ε σ β} {g : α → Prog ε τ β}
    (first : Same S (x s) (y t)) (rest : ∀ a, Agree S T (f a) (g a)) : Same T ((x >>= f) s) ((y >>= g) t) := by
  generalize one : x s = left at first
  generalize two : y t = right at first
  cases first with
  | ok a later =>
    rw [bind_run one,bind_run two]
    exact rest a _ _ later
  | error e =>
    rw [bind_fault one,bind_fault two]
    exact .error e

theorem agree_bind {x : Prog ε σ α} {y : Prog ε τ α} {f : α → Prog ε σ β} {g : α → Prog ε τ β}
    (first : Agree R S x y) (rest : ∀ a, Agree S T (f a) (g a)) : Agree R T (x >>= f) (y >>= g) :=
  fun s t related => (first s t related).bind rest

theorem agree_ite {c : Prop} [Decidable c] {x z : Prog ε σ α} {y w : Prog ε τ α} (one : Agree R S x y)
    (two : Agree R S z w) : Agree R S (if c then x else z) (if c then y else w) := by
  by_cases holds : c
  · rw [if_pos holds,if_pos holds]
    exact one
  · rw [if_neg holds,if_neg holds]
    exact two

theorem agree_get {f : σ → Prog ε σ β} {g : τ → Prog ε τ β} (rest : ∀ s t, R s t → Same S (f s s) (g t t)) :
    Agree R S (get >>= f) (get >>= g) := rest

theorem agree_focus {view : τ → σ} {put : τ → σ → τ} {R S : σ → σ → Prop} {Q U : τ → τ → Prop} {x : Prog ε σ α}
    (agree : Agree R S x x) (enter : ∀ s t, Q s t → R (view s) (view t))
    (leave : ∀ s t a b, Q s t → S a b → U (put s a) (put t b)) : Agree Q U (focus view put x) (focus view put x) := by
  intro s t related
  have same := agree (view s) (view t) (enter s t related)
  unfold focus
  generalize x (view s) = left at same
  generalize x (view t) = right at same
  cases same with
  | ok a later => exact .ok a (leave s t _ _ related later)
  | error e => exact .error e

end Prog
