import NutsOS.Lib.Prog

-- Relations that every returning run of a program keeps between the states
-- before and after it, and properties of all it returns. Nothing here refers
-- to a particular program.
namespace Prog

variable {ε σ τ α β : Type} {R : σ → σ → Prop}

def Within (R : σ → σ → Prop) (x : Prog ε σ α) : Prop := ∀ s a t, x s = .ok (a,t) → R s t

theorem within_pure (refl : ∀ s, R s s) (a : α) : Within R (pure a : Prog ε σ α) := by
  intro s b t ran
  cases ran
  exact refl s

theorem within_fault (e : ε) : Within R (fault e : Prog ε σ α) := by
  intro s b t ran
  cases ran

theorem within_get (refl : ∀ s, R s s) : Within R (get : Prog ε σ σ) := by
  intro s b t ran
  cases ran
  exact refl s

theorem within_modify {f : σ → σ} (keeps : ∀ s, R s (f s)) : Within R (modify f : Prog ε σ Unit) := by
  intro s b t ran
  cases ran
  exact keeps s

theorem within_bind (trans : ∀ {s t u}, R s t → R t u → R s u) {x : Prog ε σ α} {f : α → Prog ε σ β}
    (first : Within R x) (rest : ∀ a, Within R (f a)) : Within R (x >>= f) := by
  intro s b u ran
  obtain ⟨a,t,one,two⟩ := bind_ok.mp ran
  exact trans (first s a t one) (rest a t b u two)

theorem within_ite {c : Prop} [Decidable c] {x y : Prog ε σ α} (one : Within R x) (two : Within R y) :
    Within R (if c then x else y) := by
  by_cases holds : c
  · rw [if_pos holds]
    exact one
  · rw [if_neg holds]
    exact two

-- Every value the program returns satisfies P.
def Returns (P : α → Prop) (x : Prog ε σ α) : Prop := ∀ s a t, x s = .ok (a,t) → P a

theorem returns_pure {P : α → Prop} {a : α} (holds : P a) : Returns P (pure a : Prog ε σ α) := by
  intro s b t ran
  cases ran
  exact holds

theorem returns_fault {P : α → Prop} (e : ε) : Returns P (fault e : Prog ε σ α) := by
  intro s b t ran
  cases ran

theorem returns_bind {P : β → Prop} {Q : α → Prop} {x : Prog ε σ α} {f : α → Prog ε σ β}
    (first : Returns Q x) (rest : ∀ a, Q a → Returns P (f a)) : Returns P (x >>= f) := by
  intro s b u ran
  obtain ⟨a,t,one,two⟩ := bind_ok.mp ran
  exact rest a (first s a t one) t b u two

theorem within_bind_returns (trans : ∀ {s t u}, R s t → R t u → R s u) {P : α → Prop} {x : Prog ε σ α} {f : α → Prog ε σ β}
    (first : Within R x) (value : Returns P x) (rest : ∀ a, P a → Within R (f a)) : Within R (x >>= f) := by
  intro s b u ran
  obtain ⟨a,t,one,two⟩ := bind_ok.mp ran
  exact trans (first s a t one) (rest a (value s a t one) t b u two)

theorem returns_focus {P : α → Prop} {view : τ → σ} {put : τ → σ → τ} {x : Prog ε σ α} (returns : Returns P x) :
    Returns P (focus view put x) := by
  intro t a u ran
  obtain ⟨s,one,_⟩ := focus_ok.mp ran
  exact returns _ a s one

theorem returns_any {P : β → Prop} {x : Prog ε σ α} {f : α → Prog ε σ β}
    (rest : ∀ a, Returns P (f a)) : Returns P (x >>= f) :=
  returns_bind (Q := fun _ => True) (fun _ _ _ _ => trivial) (fun a _ => rest a)

theorem returns_ite {P : α → Prop} {c : Prop} [Decidable c] {x y : Prog ε σ α}
    (one : c → Returns P x) (two : ¬ c → Returns P y) : Returns P (if c then x else y) := by
  by_cases holds : c
  · rw [if_pos holds]
    exact one holds
  · rw [if_neg holds]
    exact two holds

end Prog
