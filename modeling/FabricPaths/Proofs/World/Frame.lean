import FabricPaths.Extract.Config
import FabricPaths.Proofs.Action
import FabricPaths.Proofs.Storage.Overlay

/-!
# What is shown, told and logged

Much of what a run does is to show its progress, to tell its observer of events and to write
its log. None of this has an influence on what is kept of a world when the two output streams,
what the observer was told and the files of the log are left aside.
-/

namespace FabricPaths

open Storage

namespace Log

/-- If the handler writes to a file, it is one of the given places. -/
def Handler.WritesTo (places : Location → Prop) (h : Handler) : Prop :=
  ∀ l offset, h.sink = .file l offset → places l

variable {places : Location → Prop}

/-- An entry that one handler writes changes its file at most. -/
theorem emitWith_overlaid (e : Entry) (out : Output) {h : Handler} (hh : h.WritesTo places) :
    Overlaid ⟨places, False⟩ out.storage (emitWith e out h).1.storage ∧
      (emitWith e out h).2.WritesTo places := by
  unfold emitWith
  split
  · exact ⟨.refl _ _, hh⟩
  · split
    · exact ⟨.refl _ _, hh⟩
    · exact ⟨.refl _ _, hh⟩
    · rename_i l offset hsink
      refine ⟨.of_writeAt (hh l offset hsink) _ _, ?_⟩
      intro l' offset' hsink'
      cases hsink'
      exact hh l offset hsink

/-- An entry that handlers write changes their files at most. -/
theorem emitAll_overlaid (e : Entry) (out : Output) {hs : List Handler}
    (hhs : ∀ h ∈ hs, h.WritesTo places) :
    Overlaid ⟨places, False⟩ out.storage (emitAll e out hs).1.storage ∧
      ∀ h ∈ (emitAll e out hs).2, h.WritesTo places := by
  induction hs generalizing out with
  | nil => exact ⟨.refl _ _, hhs⟩
  | cons h rest ih =>
    obtain ⟨hfirst, hh⟩ := emitWith_overlaid e out (hhs h List.mem_cons_self)
    obtain ⟨hrest, hhs'⟩ := ih (emitWith e out h).1 fun h' hh' =>
      hhs h' (List.mem_cons_of_mem _ hh')
    exact ⟨hfirst.trans hrest, List.forall_mem_cons.mpr ⟨hh, hhs'⟩⟩

/-- An entry changes the files of the log at most. -/
theorem emit_overlaid (e : Entry) (out : Output) {hs : List Handler}
    (hhs : ∀ h ∈ hs, h.WritesTo places) :
    Overlaid ⟨places, False⟩ out.storage (emit hs out e).1.storage ∧
      ∀ h ∈ (emit hs out e).2, h.WritesTo places := by
  unfold emit
  split
  · exact emitAll_overlaid e out hhs
  · refine ⟨?_, hhs⟩
    unfold emitBare
    split
    · exact .refl _ _
    · exact .refl _ _

end Log

namespace World

variable {α σ : Type}

/-- The files of the log are at some of the given places. -/
def LogsTo (places : Location → Prop) (w : World) : Prop :=
  ∀ h ∈ w.handlers, h.WritesTo places

/-- The world without its output streams and without what its observer was told. -/
def core (w : World) : World := { w with output := "", errors := "", toldCount := 0, told := [] }

/-- What the core of a world says of the world. -/
theorem of_core_eq {w w' : World} (h : w'.core = w.core) : w'.storage = w.storage ∧
    w'.workingDir = w.workingDir ∧ w'.clock = w.clock ∧ w'.handlers = w.handlers ∧
    w'.report = w.report := by
  have hstorage : w'.core.storage = w.core.storage := by rw [h]
  have hdir : w'.core.workingDir = w.core.workingDir := by rw [h]
  have hclock : w'.core.clock = w.core.clock := by rw [h]
  have hhandlers : w'.core.handlers = w.core.handlers := by rw [h]
  have hreport : w'.core.report = w.core.report := by rw [h]
  exact ⟨hstorage, hdir, hclock, hhandlers, hreport⟩

/-- The property has nothing to do with what is shown and logged. -/
structure Quiet (I : World → Prop) : Prop where
  /-- Logging keeps it. -/
  entry : ∀ w e, I w → I (w.afterEntry e)
  /-- Showing keeps it. -/
  shown : ∀ w errors, I w → I { w with errors }

/-- The property has nothing to do with what is shown, told and logged. -/
structure Aloof (I : World → Prop) : Prop extends Quiet I where
  /-- Showing and telling keep it. -/
  core : ∀ w w' : World, w'.core = w.core → I w → I w'

namespace Quiet

variable {I : World → Prop}

/-- Writing log entries keeps the property. -/
theorem entries (hI : Quiet I) {w : World} (h : I w) (log : List Log.Entry) :
    I (log.foldl afterEntry w) := by
  induction log generalizing w with
  | nil => exact h
  | cons e rest ih => exact ih (hI.entry w e h)

/-- An action keeps the property if it does so without its log. -/
theorem keeps_logging (hI : Quiet I) {x : Action World α} (h : Action.Keeps I x) :
    Action.Keeps I (logging x) :=
  fun w hw => hI.entries (h w hw) _

/-- A message keeps the property. -/
theorem keeps_say (hI : Quiet I) (level : Log.Level) (channel text : String) :
    Action.Keeps I (say level channel text) :=
  hI.keeps_logging fun _ hw => hw

/-- Work on another state keeps the property. -/
theorem keeps_apart (hI : Quiet I) (start : σ) (x : Action σ α) :
    Action.Keeps I (World.apart start x) :=
  hI.keeps_logging fun _ hw => hw

/-- Showing the progress keeps the property. -/
theorem keeps_showProgress (hI : Quiet I) (c : Extract.Config) (s : String) :
    Action.Keeps I (c.showProgress s) := by
  unfold Extract.Config.showProgress
  split
  · exact fun w hw => hI.shown w _ hw
  · exact fun _ hw => hw

end Quiet

/-- Reporting how an observer ended makes no difference to what telling it leaves. -/
theorem notify_state (o : Observer) (e : Event) (w : World) :
    (World.notify (some o) e w).state = (tell o e w).state :=
  (Action.reporting_run .debug Log.extract (fun text => s!"Event callback error: {text}")
    (tell o e) w).1

namespace Aloof

variable {I : World → Prop}

/-- What has nothing to do with what is told is not shown either. -/
theorem of_core (entry : ∀ w e, I w → I (w.afterEntry e))
    (core : ∀ w w' : World, w'.core = w.core → I w → I w') : Aloof I :=
  ⟨⟨entry, fun w _ hw => core w _ rfl hw⟩, core⟩

/-- Telling an observer keeps the property. -/
theorem keeps_notify (hI : Aloof I) (observer : Option Observer) (e : Event) :
    Action.Keeps I (World.notify observer e) := by
  intro w hw
  cases observer with
  | none => exact hw
  | some o =>
    rw [notify_state]
    refine hI.core w _ ?_ hw
    unfold tell
    dsimp only
    split
    · rfl
    · rfl

/-- An event keeps the property. -/
theorem keeps_configNotify (hI : Aloof I) (c : Extract.Config) (e : Event) :
    Action.Keeps I (c.notify e) :=
  hI.keeps_logging (hI.keeps_notify c.observer e)

end Aloof

/-- The observer, if there is one, fails in words only. -/
def Articulate (observer : Option Observer) : Prop :=
  ∀ o ∈ observer, ∀ n e failure, o n e = some failure → failure.HasWords

/-- Telling an observer who fails in words only succeeds. -/
theorem notify_outcome {observer : Option Observer} (h : Articulate observer) (e : Event)
    (w : World) : (World.notify observer e w).outcome = .ok () := by
  cases observer with
  | none => rfl
  | some o =>
    refine Action.reporting_outcome (x := tell o e) (fun failure hfailure => ?_) .debug Log.extract
      fun text => s!"Event callback error: {text}"
    refine h o rfl w.toldCount e failure ?_
    unfold tell at hfailure
    cases ho : o w.toldCount e with
    | none =>
      rw [ho] at hfailure
      cases hfailure
    | some failure' =>
      rw [ho] at hfailure
      cases hfailure
      rfl

/-- An event is told of with success to an observer who fails in words only. -/
theorem configNotify_outcome {c : Extract.Config} (h : Articulate c.observer) (e : Event)
    (w : World) : (c.notify e w).outcome = .ok () := notify_outcome h e w

/-- The progress is shown with success. -/
theorem showProgress_outcome (c : Extract.Config) (s : String) (w : World) :
    (c.showProgress s w).outcome = .ok () := by
  unfold Extract.Config.showProgress
  split
  · rfl
  · rfl

/-- Reading the clock changes nothing but the clock. -/
theorem now_run (w : World) :
    World.now w = ⟨w.clock.read.1, { w with clock := w.clock.read.2 }, []⟩ := rfl

/-- The clock shows the time, or has run out. -/
theorem now_cases (w : World) :
    (∃ m, World.now w = ⟨.ok m, { w with clock := w.clock.read.2 }, []⟩) ∨
      World.now w = ⟨.error .momentOutOfRange, { w with clock := w.clock.read.2 }, []⟩ := by
  have hread : (∃ m, w.clock.read.1 = .ok m) ∨ w.clock.read.1 = .error .momentOutOfRange := by
    unfold Clock.read Moment.later
    dsimp only
    split
    · exact .inl ⟨_, rfl⟩
    · exact .inr rfl
  rw [now_run]
  rcases hread with ⟨m, hm⟩ | hm
  · exact .inl ⟨m, by rw [hm]⟩
  · exact .inr (by rw [hm])

/-- The result of work on another state is that of the work. -/
theorem ensures_apart {start : σ} {x : Action σ α} {P : α × σ → Prop}
    (h : ∀ a, (x start).outcome = .ok a → P (a, (x start).state)) :
    Action.Ensures P (World.apart start x) :=
  fun w r hr => Action.Ensures.apart h w r hr

/-- The world has the storage of an earlier one, but for some files, among them those of the
log. -/
structure Calm (m : Slack) (t : Tree) (dir : Location) (w : World) : Prop where
  /-- The storages differ in these files at most. -/
  storage : Overlaid m t w.storage
  /-- The working directory is the same. -/
  workingDir : w.workingDir = dir
  /-- The files of the log are among them. -/
  logsTo : w.LogsTo m.places

/-- A log entry changes the files of the log at most. -/
theorem afterEntry_calm {places : Location → Prop} {w : World} (h : w.LogsTo places)
    (e : Log.Entry) : Calm ⟨places, False⟩ w.storage w.workingDir (w.afterEntry e) := by
  obtain ⟨hstorage, hhandlers⟩ := Log.emit_overlaid e
    ⟨w.clock.start.clockText, w.storage, w.errors⟩ h
  exact ⟨hstorage, rfl, hhandlers⟩

/-- A world keeps its storage, but for the files of the log, whatever is shown, told and
logged. -/
theorem aloof_calm (m : Slack) (t : Tree) (dir : Location) : Aloof (Calm m t dir) := by
  refine .of_core ?_ ?_
  · intro w e hw
    have hentry := afterEntry_calm hw.logsTo e
    exact ⟨hw.storage.trans hentry.storage.of_files, hentry.workingDir.trans hw.workingDir,
      hentry.logsTo⟩
  · intro w w' hcore hw
    obtain ⟨hstorage, hdir, -, hhandlers, -⟩ := of_core_eq hcore
    refine ⟨?_, hdir.trans hw.workingDir, ?_⟩
    · rw [hstorage]
      exact hw.storage
    · unfold LogsTo
      rw [hhandlers]
      exact hw.logsTo

/-- The storage does not depend on the clock. -/
theorem Calm.tick {m : Slack} {t : Tree} {dir : Location} (w : World) (clock : Clock)
    (h : Calm m t dir w) : Calm m t dir { w with clock } :=
  ⟨h.storage, h.workingDir, h.logsTo⟩

/-- A later storage can be compared with the first. -/
theorem Calm.since {m : Slack} {t t' : Tree} {dir : Location} {w : World}
    (h : Calm m t' dir w) (hbefore : Overlaid m t t') : Calm m t dir w :=
  ⟨hbefore.trans h.storage, h.workingDir, h.logsTo⟩

end World

end FabricPaths
