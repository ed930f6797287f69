import FabricPaths.Proofs.Action

/-!
# Actions side by side

Two actions are run side by side on two states that are related. They come to related results
and leave related states, or both fail. What is asked of failures can be loosened: they may
differ then, and a clock that has run out on either side excuses everything that comes after.
-/

namespace FabricPaths

variable {σ τ α γ : Type}

/-- Two runs came to related ends. -/
inductive Run.Agree (R : σ → τ → Prop) (loose : Prop) (Q : α → γ → Prop) :
    Run σ α → Run τ γ → Prop
  /-- Both succeeded. -/
  | ok {a : α} {b : γ} {s : σ} {t : τ} {log log' : List Log.Entry} (results : Q a b)
    (states : R s t) : Agree R loose Q ⟨.ok a, s, log⟩ ⟨.ok b, t, log'⟩
  /-- Both failed in the same way. -/
  | error {e : Failure} {s : σ} {t : τ} {log log' : List Log.Entry} (states : R s t) :
    Agree R loose Q ⟨.error e, s, log⟩ ⟨.error e, t, log'⟩
  /-- Both failed. -/
  | failed {e e' : Failure} {s : σ} {t : τ} {log log' : List Log.Entry} (hl : loose) :
    Agree R loose Q ⟨.error e, s, log⟩ ⟨.error e', t, log'⟩
  /-- The clock of the first ran out. -/
  | lateLeft {s : σ} {log : List Log.Entry} {r : Run τ γ} (hl : loose) :
    Agree R loose Q ⟨.error .momentOutOfRange, s, log⟩ r
  /-- The clock of the second ran out. -/
  | lateRight {r : Run σ α} {t : τ} {log : List Log.Entry} (hl : loose) :
    Agree R loose Q r ⟨.error .momentOutOfRange, t, log⟩

/-- The actions come to related ends from related states. -/
def Action.Parallel (R : σ → τ → Prop) (loose : Prop) (Q : α → γ → Prop) (x : Action σ α)
    (y : Action τ γ) : Prop := ∀ s t, R s t → (x s).Agree R loose Q (y t)

variable {α' γ' : Type} {R R' : σ → τ → Prop} {loose : Prop} {Q : α → γ → Prop}
  {Q' : α' → γ' → Prop}

namespace Run.Agree

open FabricPaths.Action

/-- Ends that are related are related in less. -/
theorem weaken {r : Run σ α} {r' : Run τ γ} {P : α → γ → Prop} (h : r.Agree R loose Q r')
    (hR : ∀ s t, R s t → R' s t) (hQ : ∀ a b, Q a b → P a b) : r.Agree R' loose P r' := by
  cases h with
  | ok results states => exact .ok (hQ _ _ results) (hR _ _ states)
  | error states => exact .error (hR _ _ states)
  | failed hl => exact .failed hl
  | lateLeft hl => exact .lateLeft hl
  | lateRight hl => exact .lateRight hl

/-- Sequences agree if their first parts do and what follows agrees from where they are. -/
theorem bind_from {x : Action σ α} {y : Action τ γ} {f : α → Action σ α'}
    {g : γ → Action τ γ'} {s : σ} {t : τ} (h : (x s).Agree R loose Q (y t))
    (hfg : ∀ a b, (x s).outcome = .ok a → (y t).outcome = .ok b → Q a b →
      R (x s).state (y t).state → (f a (x s).state).Agree R loose Q' (g b (y t).state)) :
    ((x >>= f) s).Agree R loose Q' ((y >>= g) t) := by
  rcases hx : x s with ⟨outcome, s', log⟩
  rcases hy : y t with ⟨outcome', t', log'⟩
  rw [hx, hy] at h hfg
  cases h with
  | @ok a b _ _ _ _ results states =>
    rw [bind_of_ok hx f, bind_of_ok hy g]
    have hrest := hfg a b rfl rfl results states
    dsimp only at hrest
    generalize f a s' = r at hrest ⊢
    generalize g b t' = r' at hrest ⊢
    cases hrest with
    | ok results states => exact .ok results states
    | error states => exact .error states
    | failed hl => exact .failed hl
    | lateLeft hl => exact .lateLeft hl
    | lateRight hl => exact .lateRight hl
  | error states =>
    rw [bind_of_error hx f, bind_of_error hy g]
    exact .error states
  | failed hl =>
    rw [bind_of_error hx f, bind_of_error hy g]
    exact .failed hl
  | lateLeft hl =>
    rw [bind_of_error hx f]
    exact .lateLeft hl
  | lateRight hl =>
    rw [bind_of_error hy g]
    exact .lateRight hl

/-- Sequences agree if their first parts do and what follows is parallel. -/
theorem bind {x : Action σ α} {y : Action τ γ} {f : α → Action σ α'} {g : γ → Action τ γ'}
    {s : σ} {t : τ} (h : (x s).Agree R loose Q (y t))
    (hfg : ∀ a b, Q a b → Parallel R loose Q' (f a) (g b)) :
    ((x >>= f) s).Agree R loose Q' ((y >>= g) t) :=
  h.bind_from fun a b _ _ hab hst => hfg a b hab _ _ hst

/-- Runs that come to related results in related states agree. -/
theorem of_outcomes {r : Run σ α} {r' : Run τ γ} {a : α} {b : γ} (h : r.outcome = .ok a)
    (h' : r'.outcome = .ok b) (results : Q a b) (states : R r.state r'.state) :
    r.Agree R loose Q r' := by
  rcases r with ⟨outcome, s, log⟩
  rcases r' with ⟨outcome', t, log'⟩
  cases h
  cases h'
  exact .ok results states

/-- What is related exactly has the same outcome, if results do. -/
theorem outcome_eq {r : Run σ α} {r' : Run τ α} (h : r.Agree R False Eq r') :
    r.outcome = r'.outcome := by
  cases h with
  | ok results states => exact congrArg Except.ok results
  | error states => rfl
  | failed hl => exact hl.elim
  | lateLeft hl => exact hl.elim
  | lateRight hl => exact hl.elim

/-- What is related exactly leaves related states. -/
theorem states {r : Run σ α} {r' : Run τ γ} (h : r.Agree R False Q r') : R r.state r'.state := by
  cases h with
  | ok results states => exact states
  | error states => exact states
  | failed hl => exact hl.elim
  | lateLeft hl => exact hl.elim
  | lateRight hl => exact hl.elim

end Run.Agree

namespace Action.Parallel

open FabricPaths.Action

/-- Sequences are parallel if their parts are. -/
theorem bind {x : Action σ α} {y : Action τ γ} {f : α → Action σ α'} {g : γ → Action τ γ'}
    (h : Parallel R loose Q x y) (hfg : ∀ a b, Q a b → Parallel R loose Q' (f a) (g b)) :
    Parallel R loose Q' (x >>= f) (y >>= g) :=
  fun s t hst => (h s t hst).bind hfg

/-- Related results are parallel. -/
theorem pure {a : α} {b : γ} (h : Q a b) :
    Parallel R loose Q (Pure.pure a : Action σ α) (Pure.pure b : Action τ γ) :=
  fun _ _ hst => .ok h hst

/-- The same failure is parallel. -/
theorem fail (e : Failure) :
    Parallel R loose Q (Action.fail e : Action σ α) (Action.fail e : Action τ γ) :=
  fun _ _ hst => .error hst

/-- The same value is parallel, whether it is there or not. -/
theorem ofExcept (x : Except Failure α) :
    Parallel R loose Eq (Action.ofExcept x : Action σ α) (Action.ofExcept x : Action τ α) := by
  intro s t hst
  cases x with
  | ok a => exact .ok rfl hst
  | error e => exact .error hst

/-- What comes after a value is parallel if it is for the value that is there. -/
theorem ofExcept_bind {x : Except Failure α} {f : α → Action σ α'} {g : α → Action τ γ'}
    (h : ∀ a, x = .ok a → Parallel R loose Q' (f a) (g a)) :
    Parallel R loose Q' (Action.ofExcept x >>= f) (Action.ofExcept x >>= g) := by
  cases x with
  | ok a => exact h a rfl
  | error e => exact fail e

/-- What the first ensures of its result can be used of related results. -/
theorem ensuring {P : α → Prop} {x : Action σ α} {y : Action τ γ} (h : Parallel R loose Q x y)
    (hx : Ensures P x) : Parallel R loose (fun a b => Q a b ∧ P a) x y := by
  intro s t hst
  have hagree := h s t hst
  have hensures := hx s
  generalize x s = r at hagree hensures ⊢
  generalize y t = r' at hagree ⊢
  cases hagree with
  | ok results states => exact .ok ⟨results, hensures _ rfl⟩ states
  | error states => exact .error states
  | failed hl => exact .failed hl
  | lateLeft hl => exact .lateLeft hl
  | lateRight hl => exact .lateRight hl

/-- Actions that come to the same outcome and leave related states are parallel. -/
theorem of_outcome {x : Action σ α} {y : Action τ α}
    (h : ∀ s t, R s t → (x s).outcome = (y t).outcome ∧ R (x s).state (y t).state) :
    Parallel R loose Eq x y := by
  intro s t hst
  obtain ⟨houtcome, hstates⟩ := h s t hst
  rcases hx : x s with ⟨outcome, s', log⟩
  rcases hy : y t with ⟨outcome', t', log'⟩
  rw [hx, hy] at houtcome hstates
  cases houtcome
  cases outcome with
  | ok a => exact .ok rfl hstates
  | error e => exact .error hstates

/-- What is done with the states is parallel if it is for each two that are related. -/
theorem get_bind {f : σ → Action σ α} {g : τ → Action τ γ}
    (h : ∀ s t, R s t → (f s s).Agree R loose Q (g t t)) :
    Parallel R loose Q (Action.get >>= f) (Action.get >>= g) := h

/-- Changes that keep states related are parallel. -/
theorem modify {f : σ → σ} {g : τ → τ} (h : ∀ s t, R s t → R (f s) (g t)) :
    Parallel R loose Eq (Action.modify f) (Action.modify g) :=
  fun s t hst => .ok rfl (h s t hst)

end Action.Parallel

end FabricPaths
