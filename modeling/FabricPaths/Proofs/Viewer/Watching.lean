import FabricPaths.Proofs.Extract.Ending
import FabricPaths.Proofs.Viewer.Exchange
import FabricPaths.Proofs.Viewer.Untimed

/-!
# A viewer beside a run

A viewer takes events in while the run goes on, one at each look into the queue that finds one.
Whatever the turns of the two, it comes to know what it would know after a replay of the events up
to the end of the run, and no look fails.
-/

namespace FabricPaths

/-- What is on the way can be shown. -/
theorem Event.Underway.showable {e : Event} (h : e.Underway) : e.Showable := ⟨h.status, h.legible⟩

namespace Viewer

open State (Took)

variable {c : Extract.Config} {w : World} {events : List Event} {viewer : State}

/-! ## What a run emits -/

/-- The events that a watched run puts into the queue: those that it tells, and one more if it
fails. -/
def emitted [Memory] (c : Extract.Config) (w : World) : List Event :=
  (Extract.run (watched c) w).state.told.drop w.told.length ++
    match (Extract.run (watched c) w).outcome with
    | .ok _ => []
    | .error e => [Event.runFailed e]

/-- The messages of a run are the events that it emits, with the mark behind them. -/
theorem messages_eq [Memory] (c : Extract.Config) (w : World) :
    messages ((Extract.run (watched c) w).state.told.drop w.told.length)
      (Extract.run (watched c) w).outcome = (emitted c w).map some ++ [none] := by
  unfold messages emitted
  rw [List.map_append]
  cases (Extract.run (watched c) w).outcome with
  | ok report => rfl
  | error e => rfl

/-- What a run emits: events on the way, and then its end. A run whose report is lost tells first
that it is done, and then that it failed. -/
theorem emitted_cases [Memory] (c : Extract.Config) (w : World) :
    ∃ es, (∀ e ∈ es, e.Underway) ∧ ((∃ report, (Extract.run (watched c) w).outcome = .ok report ∧
        emitted c w = es ++ [.runDone report] ∧ ¬ Extract.ReportLost (watched c) w) ∨
      ∃ e, (Extract.run (watched c) w).outcome = .error e ∧
        (emitted c w = es ++ [.runFailed e] ∧ ¬ Extract.ReportLost (watched c) w ∨
          ∃ report, emitted c w = es ++ [.runDone report, .runFailed e] ∧
            Extract.ReportLost (watched c) w)) := by
  obtain ⟨es, hes, hcases⟩ := Extract.run_tells (c := watched c) rfl w
  refine ⟨es, hes, ?_⟩
  unfold emitted
  rcases hcases with ⟨e, he, htold, hkept⟩ |
    ⟨report, htold, ⟨hok, hkept⟩ | ⟨⟨e, he⟩, hlost⟩⟩
  · rw [he, htold, List.drop_left]
    exact .inr ⟨e, rfl, .inl ⟨rfl, hkept⟩⟩
  · rw [hok, htold, List.append_assoc, List.drop_left]
    exact .inl ⟨report, rfl, List.append_nil _, hkept⟩
  · rw [he, htold, List.append_assoc, List.drop_left]
    exact .inr ⟨e, rfl, .inr ⟨report, List.append_assoc _ _ _, hlost⟩⟩

/-- The end of a run can be shown. -/
theorem showable_runDone (report : RunReport) : (Event.runDone report).Showable :=
  ⟨nofun, by simp [Event.Legible, Event.subnetFigures, Event.runDone]⟩

/-- The failure of a run can be shown. -/
theorem showable_runFailed (e : Failure) : (Event.runFailed e).Showable :=
  ⟨nofun, by simp [Event.Legible, Event.subnetFigures, Event.runFailed]⟩

/-- All that a run emits can be shown. -/
theorem showable_of_emitted [Memory] {e : Event} (he : e ∈ emitted c w) : e.Showable := by
  have hshowable : ∀ {es ends : List Event}, (∀ e ∈ es, e.Underway) →
      (∀ e ∈ ends, e.Showable) → e ∈ es ++ ends → e.Showable := by
    intro es ends hes hends hmem
    rcases List.mem_append.mp hmem with hmem | hmem
    · exact (hes e hmem).showable
    · exact hends e hmem
  obtain ⟨es, hes, ⟨report, -, hemitted, -⟩ |
    ⟨failure, -, ⟨hemitted, -⟩ | ⟨report, hemitted, -⟩⟩⟩ := emitted_cases c w
  · rw [hemitted] at he
    exact hshowable hes (by simp [showable_runDone]) he
  · rw [hemitted] at he
    exact hshowable hes (by simp [showable_runFailed]) he
  · rw [hemitted] at he
    exact hshowable hes (by simp [showable_runDone, showable_runFailed]) he

/-! ## A viewer at work -/

/-- A run and a viewer at work beside each other. -/
structure Scene where
  /-- The run and the queue, with what was taken from it. -/
  exchange : Exchange
  /-- The viewer. -/
  viewer : State
  /-- Why the viewer broke off, if it did. -/
  broken : Option Failure := none

/-- The turns of a run and a viewer: both get theirs again and again, and the viewer can read its
clock at each of its turns. -/
structure Schedule where
  /-- The turns. -/
  turns : Nat → Turn
  /-- Both get theirs again and again. -/
  fair : Fair turns
  /-- An event can be taken in at each look into the queue. -/
  clocks : ∀ n clock, turns n = .poll clock → clock.Lasts 2

namespace Scene

/-- A watched run and a viewer, before their first turns. -/
def start [Memory] (c : Extract.Config) (w : World) (viewer : State) : Scene :=
  let r := Extract.run (watched c) w
  { exchange := { pending := messages (r.state.told.drop w.told.length) r.outcome }, viewer }

/-- The viewer looks into the queue by a clock and takes in what it takes from there. A viewer
that broke off looks no more. -/
def poll (clock : Clock) (x : Scene) : Scene :=
  match x.broken with
  | some _ => x
  | none =>
    let exchange := x.exchange.poll
    let r := State.processAll (exchange.taken.drop x.exchange.taken.length) { x.viewer with clock }
    { exchange, viewer := r.state
      broken := match r.outcome with
        | .ok _ => none
        | .error e => some e }

/-- A turn is taken. -/
def turn (x : Scene) : Turn → Scene
  | .put => { x with exchange := x.exchange.put }
  | .poll clock => x.poll clock

/-- The first turns are taken. -/
def after (turns : Nat → Turn) (x : Scene) : Nat → Scene
  | 0 => x
  | n + 1 => (x.after turns n).turn (turns n)

/-- The viewer has taken in what it took from the queue. -/
structure Follows (viewer : State) (x : Scene) : Prop where
  /-- It did not break off. -/
  unbroken : x.broken = none
  /-- It has taken in the events. -/
  took : Took x.exchange.taken viewer x.viewer

/-- A look into the queue is followed by taking in what was taken from there. -/
theorem Follows.poll {x : Scene} (h : Follows viewer x) (hviewer : viewer.Legible)
    {clock : Clock} (hclock : clock.Lasts 2) (hshowable : ∀ e ∈ x.exchange.poll.taken, e.Showable) :
    Follows viewer (x.poll clock) ∧ (x.poll clock).exchange = x.exchange.poll := by
  have htook : ∃ s', State.processAll (x.exchange.poll.taken.drop x.exchange.taken.length)
      { x.viewer with clock } = ⟨.ok (), s', []⟩ ∧ Took x.exchange.poll.taken viewer s' := by
    rcases x.exchange.poll_taken with hsame | ⟨e, hmore⟩
    · rw [hsame, List.drop_length]
      exact ⟨_, rfl, h.took.lend clock⟩
    · rw [hmore, List.drop_left]
      have hnew : ∀ e' ∈ [e], e'.Showable := fun e' he' =>
        hshowable e' (by rw [hmore]; exact List.mem_append_right _ he')
      have hlegible : x.viewer.Legible := h.took.legible hviewer
      obtain ⟨s', hrun, hs'⟩ :=
        State.took_processAll (s := { x.viewer with clock }) hnew hlegible hclock
      exact ⟨s', hrun, h.took.trans hs'.of_lent⟩
  obtain ⟨s', hrun, htook⟩ := htook
  unfold Scene.poll
  rw [h.unbroken]
  dsimp only
  rw [hrun]
  exact ⟨⟨rfl, htook⟩, rfl⟩

/-- At every moment the exchange is in order, and the viewer has taken in what was taken. -/
theorem follows_after [Memory] (schedule : Schedule) (hviewer : viewer.Legible) (n : Nat) :
    let x := (start c w viewer).after schedule.turns n
    x.exchange.Stands (emitted c w) ∧ Follows viewer x ∧
      x.exchange = (start c w viewer).exchange.after schedule.turns n := by
  induction n with
  | zero =>
    refine ⟨?_, ⟨rfl, .refl viewer⟩, rfl⟩
    change Exchange.Stands _ { pending := messages _ _ }
    rw [messages_eq]
    exact .start _
  | succ n ih =>
    obtain ⟨hstands, hfollows, hexchange⟩ := ih
    have hnext := hstands.turn (schedule.turns n)
    dsimp only [after, Exchange.after]
    rw [← hexchange]
    generalize (start c w viewer).after schedule.turns n = x at hstands hfollows hnext ⊢
    cases hturn : schedule.turns n with
    | put =>
      rw [hturn] at hnext
      have htook : Took x.exchange.put.taken viewer x.viewer := by
        rw [x.exchange.put_taken]
        exact hfollows.took
      exact ⟨hnext, ⟨hfollows.unbroken, htook⟩, rfl⟩
    | poll clock =>
      rw [hturn] at hnext
      have hshowable : ∀ e ∈ x.exchange.poll.taken, e.Showable := fun e he =>
        showable_of_emitted ((hnext.taken_initial.trans (upToEnd_initial _)).subset he)
      obtain ⟨hpolled, hsame⟩ := hfollows.poll hviewer
        (schedule.clocks n clock hturn) hshowable
      refine ⟨?_, hpolled, hsame⟩
      change (x.poll clock).exchange.Stands _
      rw [hsame]
      exact hnext

/-- The viewer is done at last. -/
theorem exists_done [Memory] (c : Extract.Config) (w : World) (hviewer : viewer.Legible)
    (schedule : Schedule) :
    ∃ n, ((start c w viewer).after schedule.turns n).exchange.done = true := by
  have hstands := (follows_after (c := c) (w := w) schedule hviewer 0).1
  obtain ⟨n, hdone⟩ := hstands.exists_done schedule.fair
  refine ⟨n, ?_⟩
  rw [(follows_after schedule hviewer n).2.2]
  exact hdone

end Scene

/-- What the viewer shows is what it would show after a replay of the events, by any clock that
lasts for it. -/
def SameAsReplay (events : List Event) (viewer s : State) : Prop :=
  ∀ clock : Clock, clock.Lasts (2 * events.length) → ∃ replayed,
    State.processAll events { viewer with clock } = ⟨.ok (), replayed, []⟩ ∧
      s.untimed = replayed.untimed

/-- A viewer that took in what can be shown is as after a replay. -/
theorem sameAsReplay_of_took {s : State} (hviewer : viewer.Legible) (h : Took events viewer s)
    (hshowable : ∀ e ∈ events, e.Showable) : SameAsReplay events viewer s := by
  intro clock hclock
  obtain ⟨replayed, hrun, htook⟩ :=
    State.took_processAll (s := { viewer with clock }) hshowable hviewer hclock
  refine ⟨replayed, hrun, ?_⟩
  rw [h.untimed_eq, htook.of_lent.untimed_eq]

/-- Whatever the turns of a run and a viewer, at every moment the viewer has taken in the first of
the events that the run emits up to its end, in order and without breaking off. It is done at last,
and when it is, it has taken in all of them and shows what a replay of them shows. If no event but
the last ends the run, these are all that the run emits. They are also the events that a viewer is
presented with at once. -/
theorem live_equals_replay [Memory] (c : Extract.Config) (w : World) {viewer : State}
    (hviewer : viewer.Legible) (schedule : Schedule) :
    (∀ n, let x := (Scene.start c w viewer).after schedule.turns n
      x.broken = none ∧ x.exchange.taken <+: upToEnd (emitted c w) ∧
        x.viewer.history.map Prod.fst = viewer.history.map Prod.fst ++ x.exchange.taken ∧
        (viewer.PaneWritten → x.viewer.PaneWritten)) ∧
      (∃ n, ((Scene.start c w viewer).after schedule.turns n).exchange.done = true) ∧
      (∀ n, let x := (Scene.start c w viewer).after schedule.turns n
        x.exchange.done = true → x.exchange.taken = upToEnd (emitted c w) ∧
          SameAsReplay (upToEnd (emitted c w)) viewer x.viewer) ∧
      (upToEnd (emitted c w) = emitted c w ↔ ∀ e ∈ (emitted c w).dropLast, e.kind ≠ .runDone) ∧
      (watch c w).1 = upToEnd (emitted c w) := by
  refine ⟨?_, Scene.exists_done c w hviewer schedule, ?_, upToEnd_eq_self_iff _, ?_⟩
  · intro n
    obtain ⟨hstands, hfollows, -⟩ := Scene.follows_after (c := c) (w := w) schedule hviewer n
    exact ⟨hfollows.unbroken, hstands.taken_initial, hfollows.took.history_eq,
      hfollows.took.pane_written⟩
  · intro n x hdone
    obtain ⟨hstands, hfollows, -⟩ := Scene.follows_after (c := c) (w := w) schedule hviewer n
    have htaken : x.exchange.taken = upToEnd (emitted c w) := hstands.taken_of_done hdone
    have htook : Took (upToEnd (emitted c w)) viewer x.viewer := by
      rw [← htaken]
      exact hfollows.took
    have hshowable : ∀ e ∈ upToEnd (emitted c w), e.Showable := fun e he =>
      showable_of_emitted ((upToEnd_initial _).subset he)
    exact ⟨htaken, sameAsReplay_of_took hviewer htook hshowable⟩
  · unfold watch
    dsimp only
    rw [messages_eq]
    exact Exchange.settle_taken _

/-- A clock that stands still at the start of a year. -/
def still : Clock := { start := .ofParts 2024 1 1 0 0 0 0 }

/-- The clock can be read again and again. -/
theorem still_lasts (n : Nat) : still.Lasts n := Clock.lasts_of_still (by decide +kernel) n 0

/-- The run and the viewer take turns. -/
def turnByTurn : Schedule where
  turns n := if n % 2 = 0 then .put else .poll still
  fair := by
    constructor
    case puts => exact fun n => ⟨2 * n, by omega, if_pos (by omega)⟩
    case polls => exact fun n => ⟨2 * n + 1, by omega, still, if_neg (by omega)⟩
  clocks := by
    intro n clock hpoll
    split at hpoll
    · cases hpoll
    · cases hpoll
      exact still_lasts 2

/-- A viewer that is just started by that clock. -/
def fresh : State := { clock := still, started := still.start }

/-- It has no result yet. -/
theorem fresh_legible : fresh.Legible := State.legible_of_none rfl

/-- A viewer that takes turns with the extraction of two hosts takes in seven events, and ends up
as after a replay of them. -/
theorem twoHosts_live :
    ∃ n, let x := (Scene.start Extract.recording Extract.twoHosts fresh).after turnByTurn.turns n
      x.exchange.done = true ∧ x.viewer.PaneWritten ∧ x.exchange.taken.map (·.kind) =
          [.subnetStart, .path, .path, .partition, .partition, .subnetDone, .runDone] ∧
        ∃ replayed, x.viewer.untimed = replayed.untimed ∧
          State.processAll x.exchange.taken fresh = ⟨.ok (), replayed, []⟩ := by
  obtain ⟨hmoments, ⟨n, hdone⟩, hend, -, -⟩ :=
    live_equals_replay Extract.recording Extract.twoHosts fresh_legible turnByTurn
  obtain ⟨htaken, hreplay⟩ := hend n hdone
  obtain ⟨replayed, hrun, hsame⟩ := hreplay still (still_lasts _)
  have hkinds : (upToEnd (emitted Extract.recording Extract.twoHosts)).map (·.kind) =
      [.subnetStart, .path, .path, .partition, .partition, .subnetDone, .runDone] := by
    decide +kernel
  refine ⟨n, hdone, (hmoments n).2.2.2 rfl, ?_, replayed, hsame, ?_⟩
  · rw [htaken, hkinds]
  · rw [htaken]
    exact hrun

end Viewer

end FabricPaths
