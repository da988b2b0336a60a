import NutsOS.Lib.Prog

-- From a state in P every run ends in Q, or stops with a fault in E. Nothing
-- here refers to a particular program.
namespace Prog

variable {ε σ τ α β : Type}

inductive Ends (E : ε → Prop) (Q : α → σ → Prop) : Except ε (α × σ) → Prop where
  | ok (holds : Q a t) : Ends E Q (.ok (a,t))
  | error (admitted : E e) : Ends E Q (.error e)

def Triple (E : ε → Prop) (P : σ → Prop) (x : Prog ε σ α) (Q : α → σ → Prop) : Prop := ∀ s, P s → Ends E Q (x s)

variable {E : ε → Prop} {P : σ → Prop}

theorem Ends.returned {Q : α → σ → Prop} {result : Except ε (α × σ)} (ends : Ends E Q result) (ran : result = .ok (a,t)) : Q a t := by
  cases ends with
  | ok holds =>
    cases ran
    exact holds
  | error => cases ran

theorem Ends.weaken {Q R : α → σ → Prop} {result : Except ε (α × σ)} (ends : Ends E Q result) (weaker : ∀ a s, Q a s → R a s) :
    Ends E R result := by
  cases ends with
  | ok holds => exact .ok (weaker _ _ holds)
  | error admitted => exact .error admitted

theorem Triple.returned {Q : α → σ → Prop} {x : Prog ε σ α} (triple : Triple E P x Q) (pre : P s) (ran : x s = .ok (a,t)) : Q a t :=
  (triple s pre).returned ran

theorem Triple.admitted {Q : α → σ → Prop} {x : Prog ε σ α} (triple : Triple E P x Q) (pre : P s) (failed : x s = .error e) : E e := by
  have ends := triple s pre
  rw [failed] at ends
  cases ends with
  | error admitted => exact admitted

theorem triple_of_ok {Q : α → σ → Prop} {x : Prog ε σ α} (holds : ∀ s a t, P s → x s = .ok (a,t) → Q a t) :
    Triple (fun _ => True) P x Q := by
  intro s pre
  cases ran : x s with
  | error e => exact .error trivial
  | ok result => exact .ok (holds s result.1 result.2 pre ran)

theorem triple_pure {Q : α → σ → Prop} (a : α) (holds : ∀ s, P s → Q a s) : Triple E P (pure a : Prog ε σ α) Q :=
  fun s pre => .ok (holds s pre)

theorem triple_fault {e : ε} (admitted : E e) (Q : α → σ → Prop) : Triple E P (fault e : Prog ε σ α) Q := fun _ _ => .error admitted

theorem Ends.bind {R : α → σ → Prop} {Q : β → σ → Prop} {x : Prog ε σ α} {f : α → Prog ε σ β} (first : Ends E R (x s))
    (rest : ∀ a t, R a t → Ends E Q (f a t)) : Ends E Q ((x >>= f) s) := by
  generalize ran : x s = result at first
  cases first with
  | ok holds =>
    rw [bind_run ran]
    exact rest _ _ holds
  | error admitted =>
    rw [bind_fault ran]
    exact .error admitted

theorem triple_bind {R : α → σ → Prop} {Q : β → σ → Prop} {x : Prog ε σ α} {f : α → Prog ε σ β} (first : Triple E P x R)
    (rest : ∀ a, Triple E (R a) (f a) Q) : Triple E P (x >>= f) Q :=
  fun s pre => (first s pre).bind rest

theorem triple_weaken {Q R : α → σ → Prop} {x : Prog ε σ α} (holds : Triple E P x Q) (weaker : ∀ a s, Q a s → R a s) :
    Triple E P x R := fun s pre => (holds s pre).weaken weaker

theorem triple_ite {Q : α → σ → Prop} {c : Prop} [Decidable c] {x y : Prog ε σ α} (one : c → Triple E P x Q)
    (two : ¬ c → Triple E P y Q) : Triple E P (if c then x else y) Q := by
  by_cases holds : c
  · rw [if_pos holds]
    exact one holds
  · rw [if_neg holds]
    exact two holds

-- A program that keeps P, returns only values in Q, and stops only with faults in E.
def Stays (E : ε → Prop) (P : σ → Prop) (x : Prog ε σ α) (Q : α → Prop) : Prop := Triple E P x (fun a s => P s ∧ Q a)

theorem stays_pure {Q : α → Prop} {a : α} (holds : Q a) : Stays E P (pure a : Prog ε σ α) Q :=
  triple_pure a (fun _ pre => ⟨pre,holds⟩)

theorem stays_fault {e : ε} (admitted : E e) (Q : α → Prop) : Stays E P (fault e : Prog ε σ α) Q := triple_fault admitted _

theorem stays_bind {Q : α → Prop} {R : β → Prop} {x : Prog ε σ α} {f : α → Prog ε σ β} (first : Stays E P x Q)
    (rest : ∀ a, Q a → Stays E P (f a) R) : Stays E P (x >>= f) R :=
  triple_bind first (fun a s pre => rest a pre.2 s pre.1)

theorem stays_ite {Q : α → Prop} {c : Prop} [Decidable c] {x y : Prog ε σ α} (one : c → Stays E P x Q)
    (two : ¬ c → Stays E P y Q) : Stays E P (if c then x else y) Q := triple_ite one two

theorem stays_when {c : Prop} [Decidable c] {x : Prog ε σ Unit} (kept : c → Stays E P x (fun _ => True)) :
    Stays E P (when c x) (fun _ => True) := stays_ite kept (fun _ => stays_pure trivial)

theorem stays_get : Stays E P (get : Prog ε σ σ) P := fun _ pre => .ok ⟨pre,pre⟩

theorem stays_modify {f : σ → σ} (keeps : ∀ s, P s → P (f s)) : Stays E P (modify f : Prog ε σ Unit) (fun _ => True) :=
  fun s pre => .ok ⟨keeps s pre,trivial⟩

theorem stays_focus {view : τ → σ} {put : τ → σ → τ} {Q : α → Prop} (lens : ∀ t s, view (put t s) = s) {x : Prog ε σ α}
    (kept : Stays E P x Q) : Stays E (fun t => P (view t)) (focus view put x) Q := by
  intro t pre
  have ends := kept (view t) pre
  unfold focus
  generalize x (view t) = result at ends
  cases ends with
  | ok holds =>
    refine .ok ⟨?_,holds.2⟩
    show P (view (put t _))
    rw [lens]
    exact holds.1
  | error admitted => exact .error admitted

-- The same when every fault is admitted: only the runs that return count.
def Keeps (P : σ → Prop) (x : Prog ε σ α) (Q : α → Prop) : Prop := Triple (fun _ => True) P x (fun a s => P s ∧ Q a)

theorem keeps_pure {Q : α → Prop} {a : α} (holds : Q a) : Keeps P (pure a : Prog ε σ α) Q := stays_pure holds

theorem keeps_fault (e : ε) (Q : α → Prop) : Keeps P (fault e : Prog ε σ α) Q := stays_fault trivial _

theorem keeps_triple {Q : α → Prop} {x : Prog ε σ α} (kept : Keeps P x Q) : Triple (fun _ => True) P x (fun _ => P) :=
  triple_weaken kept (fun _ _ post => post.1)

theorem keeps_bind {Q : α → Prop} {R : β → Prop} {x : Prog ε σ α} {f : α → Prog ε σ β} (first : Keeps P x Q)
    (rest : ∀ a, Q a → Keeps P (f a) R) : Keeps P (x >>= f) R := stays_bind first rest

theorem keeps_ite {Q : α → Prop} {c : Prop} [Decidable c] {x y : Prog ε σ α} (one : c → Keeps P x Q)
    (two : ¬ c → Keeps P y Q) : Keeps P (if c then x else y) Q := stays_ite one two

theorem keeps_when {c : Prop} [Decidable c] {x : Prog ε σ Unit} (kept : c → Keeps P x (fun _ => True)) :
    Keeps P (when c x) (fun _ => True) := stays_when kept

theorem keeps_get : Keeps P (get : Prog ε σ σ) P := stays_get

theorem keeps_modify {f : σ → σ} (keeps : ∀ s, P s → P (f s)) : Keeps P (modify f : Prog ε σ Unit) (fun _ => True) := stays_modify keeps

theorem keeps_focus {view : τ → σ} {put : τ → σ → τ} {P : τ → Prop} (apart : ∀ t s, P t → P (put t s)) (x : Prog ε σ α) :
    Keeps P (focus view put x) (fun _ => True) := by
  apply triple_of_ok
  intro t a u pre ran
  obtain ⟨s,_,rfl⟩ := focus_ok.mp ran
  exact ⟨apart t s pre,trivial⟩

end Prog
