import FabricPaths.Action

/-!
# Laws of actions

A sequence of actions is opened one step at a time. Five properties of actions
are carried through sequences: to keep a property of the state, whether the
action stops or not; to be blind to a part of the state, which then has no
influence on the outcome, on the log and on the rest of the state; to
succeed, whatever the state, with a result of some kind; to have no other
result than of some kind, if any; and to fail in some ways only.
-/

namespace FabricPaths

/-- The run with its last state seen through a function. -/
def Run.over {σ τ α : Type} (p : σ → τ) (r : Run σ α) : Run τ α := ⟨r.outcome, p r.state, r.log⟩

/-- A result that is there is the outcome. -/
theorem eq_ok_of_mem_toOption {α : Type} {x : Except Failure α} {a : α} (h : a ∈ x.toOption) :
    x = .ok a := by
  cases x with
  | error e => cases h
  | ok b =>
    cases h
    rfl

/-- What a value was changed into was a value. -/
theorem exists_of_map_eq_ok {α γ : Type} {x : Except Failure α} {f : α → γ} {c : γ}
    (h : x.map f = .ok c) : ∃ a, x = .ok a ∧ f a = c := by
  cases x with
  | error e => cases h
  | ok a => exact ⟨a, rfl, Except.ok.inj h⟩

/-- The failure can be put into words. -/
def Failure.HasWords (e : Failure) : Prop := ∃ text, e.words = .ok text

namespace Action

variable {σ α γ : Type}

/-- Doing nothing leaves the state. -/
@[simp] theorem pure_run (a : α) (s : σ) : (Pure.pure a : Action σ α) s = ⟨.ok a, s, []⟩ := rfl

/-- A sequence goes on from where its first part succeeded. -/
theorem bind_of_ok {x : Action σ α} {s s' : σ} {a : α} {log : List Log.Entry}
    (h : x s = ⟨.ok a, s', log⟩) (f : α → Action σ γ) :
    (x >>= f) s = ⟨(f a s').outcome, (f a s').state, log ++ (f a s').log⟩ := by
  change Action.bind x f s = _
  rw [Action.bind, h]

/-- A sequence ends where its first part stopped. -/
theorem bind_of_error {x : Action σ α} {s s' : σ} {e : Failure} {log : List Log.Entry}
    (h : x s = ⟨.error e, s', log⟩) (f : α → Action σ γ) :
    (x >>= f) s = ⟨.error e, s', log⟩ := by
  change Action.bind x f s = _
  rw [Action.bind, h]

/-- A sequence goes on from the state in which its first part succeeded. -/
theorem bind_of_outcome {x : Action σ α} {s : σ} {a : α} (h : (x s).outcome = .ok a)
    (f : α → Action σ γ) : (x >>= f) s =
      ⟨(f a (x s).state).outcome, (f a (x s).state).state, (x s).log ++ (f a (x s).state).log⟩ := by
  rcases hr : x s with ⟨outcome, s', log⟩
  rw [hr] at h
  cases h
  exact bind_of_ok hr f

/-- A sequence stops where its first part does, or comes to what follows that. -/
theorem bind_cases (x : Action σ α) (f : α → Action σ γ) (s : σ) :
    (∃ e, (x s).outcome = .error e ∧ ((x >>= f) s).outcome = .error e ∧
        ((x >>= f) s).state = (x s).state) ∨
      ∃ a, (x s).outcome = .ok a ∧ ((x >>= f) s).outcome = (f a (x s).state).outcome ∧
        ((x >>= f) s).state = (f a (x s).state).state := by
  rcases hr : x s with ⟨outcome, s', log⟩
  cases outcome with
  | error e =>
    rw [bind_of_error hr f]
    exact .inl ⟨e, rfl, rfl, rfl⟩
  | ok a =>
    rw [bind_of_ok hr f]
    exact .inr ⟨a, rfl, rfl, rfl⟩

/-- A sequence succeeds exactly if its first part does, and what follows that. -/
theorem bind_outcome_eq_ok_iff {x : Action σ α} {f : α → Action σ γ} {s : σ} {c : γ} :
    ((x >>= f) s).outcome = .ok c ↔
      ∃ a, (x s).outcome = .ok a ∧ (f a (x s).state).outcome = .ok c := by
  rcases bind_cases x f s with ⟨e, hx, hbind, -⟩ | ⟨a, hx, hbind, -⟩
  · rw [hbind, hx]
    exact iff_of_false nofun fun ⟨a, ha, _⟩ => by cases ha
  · rw [hbind, hx]
    constructor
    · exact fun h => ⟨a, rfl, h⟩
    · rintro ⟨a', ha, h⟩
      cases ha
      exact h

/-- Sequences can be put together in either order. -/
theorem bind_bind {δ : Type} (x : Action σ α) (f : α → Action σ γ) (g : γ → Action σ δ) :
    (x >>= f) >>= g = x >>= fun a => f a >>= g := by
  funext s
  rcases hx : x s with ⟨e | a, s', log⟩
  · rw [bind_of_error hx, bind_of_error (bind_of_error hx f)]
  rcases hf : f a s' with ⟨e | b, s'', log'⟩
  · have hfirst : (x >>= f) s = ⟨.error e, s'', log ++ log'⟩ := by rw [bind_of_ok hx, hf]
    rw [bind_of_error hfirst, bind_of_ok hx, bind_of_error hf]
  · have hfirst : (x >>= f) s = ⟨.ok b, s'', log ++ log'⟩ := by rw [bind_of_ok hx, hf]
    rw [bind_of_ok hfirst, bind_of_ok hx, bind_of_ok hf, List.append_assoc]

/-- A result is changed where there is one. -/
theorem map_of_ok {x : Action σ α} {s s' : σ} {a : α} {log : List Log.Entry}
    (h : x s = ⟨.ok a, s', log⟩) (f : α → γ) : (f <$> x) s = ⟨.ok (f a), s', log ++ []⟩ :=
  bind_of_ok h _

/-- A failure stays when results are changed. -/
theorem map_of_error {x : Action σ α} {s s' : σ} {e : Failure} {log : List Log.Entry}
    (h : x s = ⟨.error e, s', log⟩) (f : α → γ) : (f <$> x) s = ⟨.error e, s', log⟩ :=
  bind_of_error h _

/-- Reading the state hands it on. -/
@[simp] theorem get_bind (f : σ → Action σ γ) (s : σ) : (get >>= f) s = f s s := rfl

/-- Reading a part of the state hands it on. -/
@[simp] theorem gets_bind (g : σ → α) (f : α → Action σ γ) (s : σ) :
    (gets g >>= f) s = f (g s) s := rfl

/-- Changing the state hands the changed state on. -/
@[simp] theorem modify_bind (g : σ → σ) (f : Unit → Action σ γ) (s : σ) :
    (modify g >>= f) s = f () (g s) := rfl

/-- A value that is there is handed on. -/
@[simp] theorem ofExcept_ok_bind (a : α) (f : α → Action σ γ) (s : σ) :
    (ofExcept (.ok a) >>= f) s = f a s := rfl

/-- A failure ends the sequence. -/
@[simp] theorem ofExcept_error_bind (e : Failure) (f : α → Action σ γ) (s : σ) :
    (ofExcept (.error e) >>= f) s = ⟨.error e, s, []⟩ := rfl

/-- A message comes before what is reported later. -/
@[simp] theorem say_bind (level : Log.Level) (channel text : String) (f : Unit → Action σ γ)
    (s : σ) : (say level channel text >>= f) s =
      ⟨(f () s).outcome, (f () s).state, ⟨level, channel, text⟩ :: (f () s).log⟩ := rfl

/-! ## Properties that sequences have when their parts do -/

/-- A property that results, failures and messages have, that sequences have when
their parts do, and that is not lost by going on after a failure. -/
structure Compositional (C : (α : Type) → Action σ α → Prop) : Prop where
  /-- A result alone has it. -/
  pure : ∀ {α : Type} (a : α), C α (Pure.pure a)
  /-- A failure alone has it. -/
  fail : ∀ {α : Type} (e : Failure), C α (Action.fail e)
  /-- A message has it. -/
  say : ∀ (level : Log.Level) (channel text : String), C Unit (Action.say level channel text)
  /-- A sequence has it when its parts do. -/
  bind : ∀ {α γ : Type} {x : Action σ α} {f : α → Action σ γ},
    C α x → (∀ a, C γ (f a)) → C γ (x >>= f)
  /-- An action that goes on after a failure has it when the action does. -/
  attempt : ∀ {α : Type} {x : Action σ α}, C α x → C (Except Failure α) (Action.attempt x)

/-- A value that may be there has it. -/
theorem Compositional.ofExcept {C : (α : Type) → Action σ α → Prop} (hC : Compositional C)
    (x : Except Failure α) : C α (Action.ofExcept x) := by
  cases x with
  | ok a => exact hC.pure a
  | error e => exact hC.fail e

/-! ## Keeping a property of the state -/

/-- The action leaves states with the property in states with the property,
whether it stops or not. -/
def Keeps (I : σ → Prop) (x : Action σ α) : Prop := ∀ s, I s → I (x s).state

namespace Keeps

variable {I : σ → Prop}

/-- A change of the state keeps what the change keeps. -/
theorem modify {g : σ → σ} (h : ∀ s, I s → I (g s)) : Keeps I (Action.modify g) := h

/-- What comes after a value is kept if it is kept for the value that is there. -/
theorem ofExcept_bind {x : Except Failure γ} {f : γ → Action σ α}
    (h : ∀ a, x = .ok a → Keeps I (f a)) : Keeps I (ofExcept x >>= f) := by
  intro s hs
  cases x with
  | ok a => exact h a rfl s hs
  | error e => exact hs

/-- What a sequence has come to in its first part, it keeps if the rest does. -/
theorem bind_from {x : Action σ α} {f : α → Action σ γ} {s : σ} (hx : I (x s).state)
    (hf : ∀ a, Keeps I (f a)) : I ((x >>= f) s).state := by
  rcases hr : x s with ⟨outcome, s', log⟩
  rw [hr] at hx
  cases outcome with
  | ok a =>
    rw [bind_of_ok hr f]
    exact hf a s' hx
  | error e =>
    rw [bind_of_error hr f]
    exact hx

/-- What parts keep, sequences keep. -/
theorem compositional : Compositional (σ := σ) fun _ => Keeps I where
  pure := fun _ _ hs => hs
  fail := fun _ _ hs => hs
  say := fun _ _ _ _ hs => hs
  bind := fun hx hf s hs => bind_from (hx s hs) hf
  attempt := fun hx => hx

end Keeps

/-! ## Blindness to a part of the state -/

/-- The action does the same to states that `p` makes equal. -/
def Blind (p : σ → σ) (x : Action σ α) : Prop := ∀ s, x (p s) = (x s).over p

namespace Blind

variable {p : σ → σ}

/-- A sequence is blind where its parts are. -/
theorem bind {x : Action σ α} {f : α → Action σ γ} (hx : Blind p x)
    (hf : ∀ a, Blind p (f a)) : Blind p (x >>= f) := by
  intro s
  have hp := hx s
  rcases hr : x s with ⟨outcome, s', log⟩
  rw [hr] at hp
  cases outcome with
  | ok a =>
    rw [bind_of_ok hp f, bind_of_ok hr f, hf a s']
    rfl
  | error e =>
    rw [bind_of_error hp f, bind_of_error hr f]
    rfl

/-- What is done with the state is blind if it treats equal states alike. -/
theorem get_bind {f : σ → Action σ γ} (h : ∀ s, f (p s) (p s) = (f s s).over p) :
    Blind p (get >>= f) := h

/-- A result alone is blind. -/
theorem pure (a : α) : Blind p (Pure.pure a : Action σ α) := fun _ => rfl

/-- Stopping is blind. -/
theorem fail (e : Failure) : Blind p (Action.fail e : Action σ α) := fun _ => rfl

/-- A message is blind. -/
theorem say (level : Log.Level) (channel text : String) :
    Blind p (Action.say level channel text) := fun _ => rfl

/-- A change of the state is blind if it goes through `p`. -/
theorem modify {g : σ → σ} (h : ∀ s, g (p s) = p (g s)) : Blind p (Action.modify g) := by
  intro s
  change (⟨.ok (), g (p s), []⟩ : Run σ Unit) = ⟨.ok (), p (g s), []⟩
  rw [h s]

/-- What parts are blind to, sequences are blind to. -/
theorem compositional : Compositional (σ := σ) fun _ => Blind p where
  pure := pure
  fail := fail
  say := say
  bind := bind
  attempt := by
    intro α x hx s
    change (⟨.ok (x (p s)).outcome, (x (p s)).state, (x (p s)).log⟩ : Run σ (Except Failure α)) = _
    rw [hx s]
    rfl

end Blind

/-! ## Results of some kind, if any -/

/-- If the action succeeds, its result has the property. -/
def Ensures (P : α → Prop) (x : Action σ α) : Prop := ∀ s a, (x s).outcome = .ok a → P a

namespace Ensures

variable {P : α → Prop} {Q : γ → Prop}

/-- The result of a sequence is that of its last part. -/
theorem bind {x : Action σ γ} {f : γ → Action σ α} (hx : Ensures Q x)
    (hf : ∀ c, Q c → Ensures P (f c)) : Ensures P (x >>= f) := by
  intro s a ha
  rcases hr : x s with ⟨outcome, s', log⟩
  cases outcome with
  | error e =>
    rw [bind_of_error hr f] at ha
    cases ha
  | ok c =>
    rw [bind_of_ok hr f] at ha
    refine hf c (hx s c ?_) s' a ha
    rw [hr]

/-- The result of a sequence is that of its last part, whatever the first part does. -/
theorem bind_last {x : Action σ γ} {f : γ → Action σ α} (hf : ∀ c, Ensures P (f c)) :
    Ensures P (x >>= f) :=
  bind (Q := fun _ => True) (fun _ _ _ => trivial) fun c _ => hf c

/-- A result of some kind is one of each kind that includes it. -/
theorem mono {Q : α → Prop} {x : Action σ α} (hx : Ensures Q x) (h : ∀ a, Q a → P a) :
    Ensures P x :=
  fun s a ha => h a (hx s a ha)

/-- A result of two kinds is one of both. -/
theorem and {Q : α → Prop} {x : Action σ α} (hx : Ensures P x) (hx' : Ensures Q x) :
    Ensures (fun a => P a ∧ Q a) x :=
  fun s a ha => ⟨hx s a ha, hx' s a ha⟩

/-- A result of the kind is one. -/
theorem pure {a : α} (h : P a) : Ensures P (Pure.pure a : Action σ α) := by
  rintro s _ ⟨⟩
  exact h

/-- Stopping has no result. -/
theorem fail (e : Failure) : Ensures P (Action.fail e : Action σ α) := nofun

/-- What comes after a value comes after the value that is there. -/
theorem ofExcept_bind {x : Except Failure γ} {f : γ → Action σ α}
    (h : ∀ c, x = .ok c → Ensures P (f c)) : Ensures P (Action.ofExcept x >>= f) := by
  cases x with
  | ok c => exact h c rfl
  | error e => exact fail e

/-- The result of work on another state is that of the work. -/
theorem apart {τ : Type} {start : τ} {x : Action τ α} {P : α × τ → Prop}
    (h : ∀ a, (x start).outcome = .ok a → P (a, (x start).state)) :
    Ensures P (Action.apart start x : Action σ (α × τ)) := by
  rintro s ⟨a, t⟩ ha
  unfold Action.apart at ha
  dsimp only at ha
  cases hx : (x start).outcome with
  | error e =>
    rw [hx] at ha
    cases ha
  | ok a' =>
    rw [hx] at ha
    cases ha
    exact h a hx

end Ensures

/-! ## Failures of some kind, if any -/

/-- If the action fails, its failure has the property. -/
def Risks (P : Failure → Prop) (x : Action σ α) : Prop := ∀ s e, (x s).outcome = .error e → P e

namespace Risks

variable {P : Failure → Prop}

/-- A sequence fails as one of its parts does. -/
theorem bind {x : Action σ γ} {f : γ → Action σ α} (hx : Risks P x) (hf : ∀ c, Risks P (f c)) :
    Risks P (x >>= f) := by
  intro s e he
  rcases bind_cases x f s with ⟨e', hx', hbind, -⟩ | ⟨c, -, hbind, -⟩
  · rw [hbind] at he
    cases he
    exact hx s e hx'
  · rw [hbind] at he
    exact hf c _ e he

/-- A result does not fail. -/
theorem pure (a : α) : Risks P (Pure.pure a : Action σ α) := nofun

/-- A message does not fail. -/
theorem say (level : Log.Level) (channel text : String) :
    Risks P (Action.say level channel text : Action σ Unit) := nofun

/-- A value that is not there fails, and one that is there is handed on. -/
theorem ofExcept_bind {x : Except Failure γ} {f : γ → Action σ α} (hx : ∀ e, x = .error e → P e)
    (hf : ∀ c, x = .ok c → Risks P (f c)) : Risks P (Action.ofExcept x >>= f) := by
  cases x with
  | ok c => exact hf c rfl
  | error e =>
    rintro s _ ⟨⟩
    exact hx e rfl

/-- What cannot fail in any way succeeds. -/
theorem succeeds {x : Action σ α} (h : Risks (fun _ => False) x) (s : σ) :
    ∃ a, (x s).outcome = .ok a := by
  cases hx : (x s).outcome with
  | ok a => exact ⟨a, rfl⟩
  | error e => exact (h s e hx).elim

end Risks

/-! ## Failures in words -/

/-- Does something and reports a failure in words. -/
def reporting (level : Log.Level) (channel : String) (text : String → String)
    (x : Action σ Unit) : Action σ Unit := do
  if let .error e ← attempt x then
    say level channel (text (← ofExcept e.words))

/-- What is reported of an action makes no difference to what it leaves. It ends well unless the
action fails without words. -/
theorem reporting_run (level : Log.Level) (channel : String) (text : String → String)
    (x : Action σ Unit) (s : σ) : (reporting level channel text x s).state = (x s).state ∧
      ((reporting level channel text x s).outcome = .ok () ∨
        ∃ failure e, (x s).outcome = .error failure ∧ failure.words = .error e ∧
          (reporting level channel text x s).outcome = .error e) := by
  rcases hr : x s with ⟨outcome, t, log⟩
  have hattempt : attempt x s = ⟨.ok outcome, t, log⟩ := by
    change (⟨.ok (x s).outcome, (x s).state, (x s).log⟩ : Run σ _) = _
    rw [hr]
  unfold reporting
  rw [bind_of_ok hattempt]
  cases outcome with
  | ok _ => exact ⟨rfl, .inl rfl⟩
  | error failure =>
    dsimp only
    cases hwords : failure.words with
    | ok text => exact ⟨rfl, .inl rfl⟩
    | error e => exact ⟨rfl, .inr ⟨failure, e, rfl, hwords, rfl⟩⟩

/-- An action that fails in words only ends well once its failure is reported. -/
theorem reporting_outcome {x : Action σ Unit} {s : σ}
    (h : ∀ e, (x s).outcome = .error e → e.HasWords) (level : Log.Level) (channel : String)
    (text : String → String) : (reporting level channel text x s).outcome = .ok () := by
  rcases (reporting_run level channel text x s).2 with hok | ⟨failure, e, he, hwords, -⟩
  · exact hok
  · obtain ⟨words, hsaid⟩ := h failure he
    cases hwords.symm.trans hsaid

end Action

end FabricPaths
