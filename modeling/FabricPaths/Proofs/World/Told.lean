import FabricPaths.Proofs.World.Frame

/-!
# What is told

An observer who takes every event keeps them in order. What an action tells is what it adds to
them: the parts of a sequence tell one after another, and what has nothing to do with the
observer tells nothing.
-/

namespace FabricPaths

/-- The observer who takes every event. -/
def Observer.recorder : Observer := fun _ _ => none

namespace World

variable {α γ σ : Type}

/-- The observer who takes every event never fails. -/
theorem articulate_recorder : Articulate (some Observer.recorder) := by
  rintro o ⟨⟩ n e failure ⟨⟩

/-- If the action succeeds, its result and the events that it told are related in this way. -/
def Tells (P : α → List Event → Prop) (x : Action World α) : Prop :=
  ∀ w a, (x w).outcome = .ok a → ∃ es, (x w).state.told = w.told ++ es ∧ P a es

/-- The action tells nothing. -/
def Silent (x : Action World α) : Prop := ∀ es, Action.Keeps (fun w => w.told = es) x

namespace Tells

variable {P : α → List Event → Prop} {Q : γ → List Event → Prop}

/-- A sequence tells what its first part tells, and then what the rest tells. -/
theorem bind {x : Action World α} {f : α → Action World γ} (hx : Tells P x)
    (hf : ∀ a es, P a es → Tells (fun b es' => Q b (es ++ es')) (f a)) : Tells Q (x >>= f) := by
  intro w b hb
  rcases Action.bind_cases x f w with ⟨e, -, he, -⟩ | ⟨a, ha, houtcome, hstate⟩
  · cases hb.symm.trans he
  obtain ⟨es, htold, hP⟩ := hx w a ha
  obtain ⟨es', htold', hQ⟩ := hf a es hP (x w).state b (houtcome.symm.trans hb)
  refine ⟨es ++ es', ?_, hQ⟩
  rw [hstate, htold', htold, List.append_assoc]

/-- What has been done in silence leaves the telling to the rest. -/
theorem after {R : α → Prop} {x : Action World α} {f : α → Action World γ} (silent : Silent x)
    (hx : Action.Ensures R x) (hf : ∀ a, R a → Tells Q (f a)) : Tells Q (x >>= f) := by
  refine bind (P := fun a es => R a ∧ es = []) ?_ ?_
  · intro w a ha
    refine ⟨[], ?_, hx w a ha, rfl⟩
    rw [List.append_nil]
    exact silent w.told w rfl
  · rintro a _ ⟨ha, rfl⟩
    exact hf a ha

/-- What has been done in silence, whatever its result, leaves the telling to the rest. -/
theorem after_any {x : Action World α} {f : α → Action World γ} (silent : Silent x)
    (hf : ∀ a, Tells Q (f a)) : Tells Q (x >>= f) :=
  after (R := fun _ => True) silent (fun _ _ _ => trivial) fun a _ => hf a

/-- A result alone tells nothing. -/
theorem pure {a : α} (h : P a []) : Tells P (Pure.pure a) := by
  rintro w _ ⟨⟩
  exact ⟨[], (List.append_nil _).symm, h⟩

/-- What comes after a value comes after the value that is there. -/
theorem ofExcept_bind {x : Except Failure α} {f : α → Action World γ}
    (h : ∀ a, x = .ok a → Tells Q (f a)) : Tells Q (Action.ofExcept x >>= f) := by
  cases x with
  | ok a => exact h a rfl
  | error e => exact nofun

/-- What is told can be told of in other words. -/
theorem mono {P' : α → List Event → Prop} {x : Action World α} (hx : Tells P x)
    (h : ∀ a es, P a es → P' a es) : Tells P' x := by
  intro w a ha
  obtain ⟨es, htold, hP⟩ := hx w a ha
  exact ⟨es, htold, h a es hP⟩

/-- What is known of the result is known besides what is told. -/
theorem ensuring {R : α → Prop} {x : Action World α} (hx : Tells P x) (h : Action.Ensures R x) :
    Tells (fun a es => P a es ∧ R a) x := by
  intro w a ha
  obtain ⟨es, htold, hP⟩ := hx w a ha
  exact ⟨es, htold, hP, h w a ha⟩

/-- A log tells nothing. -/
theorem logging {x : Action World α} (hx : Tells P x) : Tells P (World.logging x) := by
  intro w a ha
  obtain ⟨es, htold, hP⟩ := hx w a ha
  refine ⟨es, ?_, hP⟩
  have hlog : ∀ (log : List Log.Entry) (w : World), (log.foldl afterEntry w).told = w.told := by
    intro log
    induction log with
    | nil => exact fun _ => rfl
    | cons e rest ih => exact fun w => ih (w.afterEntry e)
  exact (hlog _ _).trans htold

/-- What an observer who takes every event is told of is told. -/
theorem notify (e : Event) :
    Tells (fun _ es => es = [e]) (World.notify (some Observer.recorder) e) := by
  rintro w ⟨⟩ -
  exact ⟨[e], rfl, rfl⟩

/-- An event is told. -/
theorem configNotify {c : Extract.Config} (ho : c.observer = some Observer.recorder) (e : Event) :
    Tells (fun _ es => es = [e]) (c.notify e) := by
  unfold Extract.Config.notify
  rw [ho]
  exact (notify e).logging

end Tells

/-- What was told has nothing to do with what is shown and logged. -/
theorem quiet_told (es : List Event) : Quiet fun w => w.told = es :=
  ⟨fun _ _ h => h, fun _ _ h => h⟩

end World

end FabricPaths
