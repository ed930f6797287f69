import FabricPaths.Failure
import FabricPaths.Log

/-!
# Actions

Work on a state that may stop with a failure and that reports what it does. A
failure keeps the state as it was when the work stopped, and the log up to
then.
-/

namespace FabricPaths

/-- What an action left behind. -/
structure Run (σ α : Type) where
  /-- The result, or why the action stopped. -/
  outcome : Except Failure α
  /-- The state at the end. -/
  state : σ
  /-- What was reported, in order. -/
  log : List Log.Entry

/-- Work on a state of type `σ` with a result of type `α`. -/
def Action (σ α : Type) : Type := σ → Run σ α

namespace Action

variable {σ τ α γ : Type}

/-- Does nothing. -/
def pure (a : α) : Action σ α := fun s => ⟨.ok a, s, []⟩

/-- Does one thing after another, unless the first fails. -/
def bind (x : Action σ α) (f : α → Action σ γ) : Action σ γ := fun s =>
  match x s with
  | ⟨.ok a, s', log⟩ =>
    let r := f a s'
    ⟨r.outcome, r.state, log ++ r.log⟩
  | ⟨.error e, s', log⟩ => ⟨.error e, s', log⟩

instance : Monad (Action σ) where
  pure := Action.pure
  bind := Action.bind

/-- The state. -/
def get : Action σ σ := fun s => ⟨.ok s, s, []⟩

/-- A part of the state. -/
def gets (f : σ → α) : Action σ α := fun s => ⟨.ok (f s), s, []⟩

/-- Changes the state. -/
def modify (f : σ → σ) : Action σ Unit := fun s => ⟨.ok (), f s, []⟩

/-- Stops. -/
def fail (e : Failure) : Action σ α := fun s => ⟨.error e, s, []⟩

/-- Stops if the value is a failure. -/
def ofExcept (x : Except Failure α) : Action σ α := fun s => ⟨x, s, []⟩

/-- Reports a message. -/
def say (level : Log.Level) (channel text : String) : Action σ Unit := fun s =>
  ⟨.ok (), s, [⟨level, channel, text⟩]⟩

/-- Reports several messages. -/
def sayAll (entries : List Log.Entry) : Action σ Unit := fun s => ⟨.ok (), s, entries⟩

/-- Goes on after a failure, with the failure as the result. -/
def attempt (x : Action σ α) : Action σ (Except Failure α) := fun s =>
  let r := x s
  ⟨.ok r.outcome, r.state, r.log⟩

/-- Does something on a part of the state. -/
def within (part : σ → τ) (put : τ → σ → σ) (x : Action τ α) : Action σ α := fun s =>
  let r := x (part s)
  ⟨r.outcome, put r.state s, r.log⟩

/-- Does something on a state of its own, whose last value is returned too. -/
def apart (start : τ) (x : Action τ α) : Action σ (α × τ) := fun s =>
  let r := x start
  ⟨r.outcome.map fun a => (a, r.state), s, r.log⟩

/-- Does something for each member of a list, in order. -/
def forEach (xs : List γ) (f : γ → Action σ Unit) : Action σ Unit :=
  match xs with
  | [] => pure ()
  | x :: rest => bind (f x) fun _ => forEach rest f

end Action

end FabricPaths
