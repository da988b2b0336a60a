import Mathlib.Logic.Basic

-- Runs of a labelled step relation, as the list of the actions taken and the
-- states they lead to. Nothing here refers to a particular program.
namespace Runs

variable {σ α : Type}

def IsRun (step : σ → α → σ → Prop) : σ → List (α × σ) → Prop
  | _,[] => True
  | s,(a,t)::rest => step s a t ∧ IsRun step t rest

def Always (P : σ → Prop) (s : σ) (trace : List (α × σ)) : Prop :=
  P s ∧ ∀ entry ∈ trace, P entry.2

def Guarded (guard : σ → α → Prop) : σ → List (α × σ) → Prop
  | _,[] => True
  | s,(a,t)::rest => guard s a ∧ Guarded guard t rest

def Each (P : σ → α → σ → Prop) : σ → List (α × σ) → Prop
  | _,[] => True
  | s,(a,t)::rest => P s a t ∧ Each P t rest

def final : σ → List (α × σ) → σ
  | s,[] => s
  | _,(_,t)::rest => final t rest

theorem Always.cons {P : σ → Prop} {s t : σ} {a : α} {rest : List (α × σ)} :
    Always P s ((a,t)::rest) ↔ P s ∧ Always P t rest := by
  simp [Always]

-- The induction every safety result below is an instance of: guarded steps
-- keep the invariant, and the invariant implies the property.
theorem invariant_always {step : σ → α → σ → Prop} {guard : σ → α → Prop} {inv P : σ → Prop}
    (keeps : ∀ s a t, inv s → guard s a → step s a t → inv t) (safe : ∀ s, inv s → P s)
    {s : σ} {trace : List (α × σ)} (start : inv s) (ran : IsRun step s trace)
    (guarded : Guarded guard s trace) : Always P s trace := by
  induction trace generalizing s with
  | nil => exact ⟨safe s start,by simp⟩
  | cons entry rest ih =>
    obtain ⟨a,t⟩ := entry
    exact Always.cons.mpr ⟨safe s start,ih (keeps s a t start guarded.1 ran.1) ran.2 guarded.2⟩

theorem kept_final {step : σ → α → σ → Prop} {inv : σ → Prop} (keeps : ∀ s a t, inv s → step s a t → inv t)
    {s : σ} {trace : List (α × σ)} (start : inv s) (ran : IsRun step s trace) : inv (final s trace) := by
  induction trace generalizing s with
  | nil => exact start
  | cons entry rest ih =>
    obtain ⟨a,t⟩ := entry
    exact ih (keeps s a t start ran.1) ran.2

theorem invariant_each {step : σ → α → σ → Prop} {inv : σ → Prop} {P : σ → α → σ → Prop}
    (keeps : ∀ s a t, inv s → step s a t → inv t) (holds : ∀ s a t, inv s → step s a t → P s a t)
    {s : σ} {trace : List (α × σ)} (start : inv s) (ran : IsRun step s trace) : Each P s trace := by
  induction trace generalizing s with
  | nil => trivial
  | cons entry rest ih =>
    obtain ⟨a,t⟩ := entry
    exact ⟨holds s a t start ran.1,ih (keeps s a t start ran.1) ran.2⟩

theorem kept_always {step : σ → α → σ → Prop} {inv P : σ → Prop} (keeps : ∀ s a t, inv s → step s a t → inv t)
    (safe : ∀ s, inv s → P s) {s : σ} {trace : List (α × σ)} (start : inv s) (ran : IsRun step s trace) : Always P s trace := by
  induction trace generalizing s with
  | nil => exact ⟨safe s start,by simp⟩
  | cons entry rest ih =>
    obtain ⟨a,t⟩ := entry
    exact Always.cons.mpr ⟨safe s start,ih (keeps s a t start ran.1) ran.2⟩

theorem final_split {step : σ → α → σ → Prop} {guard : σ → α → Prop} {one two : σ → Prop}
    (keeps : ∀ s a t, one s → guard s a → step s a t → one t) (turns : ∀ s a t, one s → ¬ guard s a → step s a t → two t)
    (later : ∀ s a t, two s → step s a t → two t) {s : σ} {trace : List (α × σ)} (start : one s) (ran : IsRun step s trace) :
    (Guarded guard s trace ∧ one (final s trace)) ∨ (¬ Guarded guard s trace ∧ two (final s trace)) := by
  induction trace generalizing s with
  | nil => exact .inl ⟨trivial,start⟩
  | cons entry rest ih =>
    obtain ⟨a,t⟩ := entry
    by_cases admitted : guard s a
    · rcases ih (keeps s a t start admitted ran.1) ran.2 with ⟨guarded,holds⟩ | ⟨unguarded,holds⟩
      · exact .inl ⟨⟨admitted,guarded⟩,holds⟩
      · exact .inr ⟨fun guarded => unguarded guarded.2,holds⟩
    · have turned := turns s a t start admitted ran.1
      exact .inr ⟨fun guarded => admitted guarded.1,kept_final (s := t) later turned ran.2⟩

theorem always_iff_guarded {step : σ → α → σ → Prop} {guard : σ → α → Prop} {inv P : σ → Prop}
    (keeps : ∀ s a t, inv s → guard s a → step s a t → inv t) (safe : ∀ s, inv s → P s)
    (breaks : ∀ s a t, inv s → ¬ guard s a → step s a t → ¬ P t)
    {s : σ} {trace : List (α × σ)} (start : inv s) (ran : IsRun step s trace) :
    Always P s trace ↔ Guarded guard s trace := by
  refine ⟨?_,invariant_always keeps safe start ran⟩
  intro always
  induction trace generalizing s with
  | nil => trivial
  | cons entry rest ih =>
    obtain ⟨a,t⟩ := entry
    obtain ⟨_,later⟩ := Always.cons.mp always
    by_cases admitted : guard s a
    · exact ⟨admitted,ih (keeps s a t start admitted ran.1) ran.2 later⟩
    · exact False.elim (breaks s a t start admitted ran.1 later.1)

end Runs
