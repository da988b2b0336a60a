import NutsOS.Lib.Triple

-- A program that watches another one: it stops where a condition is broken,
-- and does otherwise what the plain program does. Nothing here refers to a
-- particular program.
namespace Prog

variable {ε η σ α β : Type}

-- A program without conditions of its own.
def embed (lift : ε → η) (x : Prog ε σ α) : Prog η σ α := fun s =>
  match x s with
  | .error e => .error (lift e)
  | .ok result => .ok result

theorem embed_run {lift : ε → η} {x : Prog ε σ α} (ran : x s = .ok result) : embed lift x s = .ok result := by
  unfold embed
  rw [ran]

theorem embed_fault {lift : ε → η} {x : Prog ε σ α} (failed : x s = .error e) : embed lift x s = .error (lift e) := by
  unfold embed
  rw [failed]

theorem embed_ok {lift : ε → η} {x : Prog ε σ α} (ran : embed lift x s = .ok result) : x s = .ok result := by
  unfold embed at ran
  cases plain : x s with
  | error e =>
    rw [plain] at ran
    cases ran
  | ok other =>
    rw [plain] at ran
    cases ran
    rfl

theorem embed_unstopped {lift : ε → η} {x : Prog ε σ α} (own : ∀ e, stop ≠ lift e) : embed lift x s ≠ .error stop := by
  intro stopped
  unfold embed at stopped
  cases plain : x s with
  | error e =>
    rw [plain] at stopped
    exact own e (Except.error.inj stopped).symm
  | ok result =>
    rw [plain] at stopped
    cases stopped

-- Where it stops, the part without conditions has run.
theorem embed_rest {lift : ε → η} {x : Prog ε σ α} {f : α → Prog η σ β} (own : ∀ e, stop ≠ lift e)
    (stopped : (embed lift x >>= f) s = .error stop) : ∃ a t, x s = .ok (a,t) ∧ f a t = .error stop := by
  rcases bind_error stopped with first | ⟨a,t,ran,rest⟩
  · exact absurd first (embed_unstopped own)
  · exact ⟨a,t,embed_ok ran,rest⟩

theorem check_stopped {lift : ε → η} {x : Prog ε σ α} {c : α → Prop} [DecidablePred c] (own : ∀ e, stop ≠ lift e)
    (stopped : (embed lift x >>= fun a => if c a then fault stop else pure a) s = .error stop) : ∃ a t, x s = .ok (a,t) ∧ c a := by
  obtain ⟨a,t,ran,rest⟩ := embed_rest own stopped
  by_cases holds : c a
  · exact ⟨a,t,ran,holds⟩
  · rw [if_neg holds] at rest
    cases rest

theorem embed_bind (lift : ε → η) (x : Prog ε σ α) (f : α → Prog ε σ β) :
    embed lift (x >>= f) = embed lift x >>= fun a => embed lift (f a) := by
  funext s
  cases ran : x s with
  | error e => rw [bind_fault (embed_fault ran),embed_fault (bind_fault ran)]
  | ok result =>
    rw [bind_run (embed_run ran)]
    unfold embed
    rw [bind_run ran]

theorem bind_follows {lift : ε → η} {x : Prog η σ α} {y : Prog ε σ α} {f : α → Prog η σ β} {g : α → Prog ε σ β}
    (first : x s = embed lift y s) (rest : ∀ a t, y s = .ok (a,t) → f a t = embed lift (g a) t) :
    (x >>= f) s = embed lift (y >>= g) s := by
  cases ran : y s with
  | error e =>
    rw [embed_fault ran] at first
    rw [bind_fault first,embed_fault (bind_fault ran)]
  | ok result =>
    rw [embed_run ran] at first
    rw [bind_run first,rest result.1 result.2 ran]
    unfold embed
    rw [bind_run ran]

theorem ite_follows {lift : ε → η} {c : Prop} [Decidable c] {x z : Prog η σ α} {y w : Prog ε σ α} (one : c → x s = embed lift y s)
    (two : ¬ c → z s = embed lift w s) : (if c then x else z) s = embed lift (if c then y else w) s := by
  by_cases holds : c
  · rw [if_pos holds,if_pos holds]
    exact one holds
  · rw [if_neg holds,if_neg holds]
    exact two holds

theorem when_follows {lift : ε → η} {c : Prop} [Decidable c] {x : Prog η σ Unit} {y : Prog ε σ Unit}
    (follows : c → x s = embed lift y s) : when c x s = embed lift (when c y) s :=
  ite_follows follows (fun _ => rfl)

theorem ends_embed (lift : ε → η) {E : η → Prop} {Q : α → σ → Prop} {x : Prog ε σ α} (admitted : ∀ e, E (lift e))
    (holds : ∀ a t, x s = .ok (a,t) → Q a t) : Ends E Q (embed lift x s) := by
  unfold embed
  cases ran : x s with
  | error e => exact .error (admitted e)
  | ok result => exact .ok (holds result.1 result.2 ran)

inductive Matches (lift : ε → η) : Except η (α × σ) → Except ε (α × σ) → Prop where
  | ok (result : α × σ) : Matches lift (.ok result) (.ok result)
  | error (e : ε) : Matches lift (.error (lift e)) (.error e)
  | stopped (own : ∀ e, stop ≠ lift e) (result : Except ε (α × σ)) : Matches lift (.error stop) result

def Watches (lift : ε → η) (x : Prog η σ α) (y : Prog ε σ α) : Prop := ∀ s, Matches lift (x s) (y s)

variable {lift : ε → η}

theorem Matches.returned {one : Except η (α × σ)} {two : Except ε (α × σ)} (same : Matches lift one two)
    (ran : one = .ok result) : two = .ok result := by
  cases same with
  | ok => cases ran; rfl
  | error => cases ran
  | stopped => cases ran

theorem Matches.faulted {one : Except η (α × σ)} {two : Except ε (α × σ)} (same : Matches lift one two)
    (injective : ∀ a b, lift a = lift b → a = b) (ran : one = .error (lift e)) : two = .error e := by
  cases same with
  | ok => cases ran
  | error other =>
    rw [injective e other (Except.error.inj ran).symm]
  | stopped own => exact absurd (Except.error.inj ran) (own e)

theorem watches_pure (a : α) : Watches lift (pure a : Prog η σ α) (pure a) := fun s => .ok (a,s)

theorem watches_embed (x : Prog ε σ α) : Watches lift (embed lift x) x := by
  intro s
  unfold embed
  cases x s with
  | error e => exact .error e
  | ok result => exact .ok result

theorem watches_stop (own : ∀ e, stop ≠ lift e) (y : Prog ε σ α) : Watches lift (fault stop) y := fun s => .stopped own (y s)

theorem watches_bind {x : Prog η σ α} {y : Prog ε σ α} {f : α → Prog η σ β} {g : α → Prog ε σ β} (first : Watches lift x y)
    (rest : ∀ a, Watches lift (f a) (g a)) : Watches lift (x >>= f) (y >>= g) := by
  intro s
  have same := first s
  generalize one : x s = left at same
  generalize two : y s = right at same
  cases same with
  | ok result =>
    rw [bind_run one,bind_run two]
    exact rest result.1 result.2
  | error e =>
    rw [bind_fault one,bind_fault two]
    exact .error e
  | stopped own =>
    rw [bind_fault one]
    exact .stopped own _

theorem watches_ite {c : Prop} [Decidable c] {x z : Prog η σ α} {y w : Prog ε σ α} (one : Watches lift x y)
    (two : Watches lift z w) : Watches lift (if c then x else z) (if c then y else w) := by
  by_cases holds : c
  · rw [if_pos holds,if_pos holds]
    exact one
  · rw [if_neg holds,if_neg holds]
    exact two

theorem watches_check {x : Prog η σ α} {y : Prog ε σ α} {f : α → Prog η σ α} (first : Watches lift x y)
    (rest : ∀ a, Watches lift (f a) (pure a : Prog ε σ α)) : Watches lift (x >>= f) y := by
  have same : (y >>= fun a => (pure a : Prog ε σ α)) = y := by
    funext s
    cases ran : y s with
    | error e => exact bind_fault ran
    | ok result => exact bind_run ran
  rw [← same]
  exact watches_bind first rest

end Prog
