import FabricPaths.Proofs.Viewer.Untimed
import Mathlib.Data.List.Induction

/-!
# What the log pane shows

The lines of a new event are written behind those that are there, and a key that chooses a level
of detail has the pane cleared and written anew. Either way the pane shows the lines of all events
at the chosen level, each with the time at which its event was taken in, unless an event came whose
label cannot be written: its lines are missing until the pane is written anew.
-/

namespace FabricPaths

/-- The lines of an event at a level of detail. Where an event has no lines for a level, those for
the next lower level stand in. -/
def Event.linesAt (e : Event) : Viewer.Detail → List String
  | .basic => e.logBasic
  | .verbose => if e.logVerbose ≠ [] then e.logVerbose else e.logBasic
  | .debug =>
    if e.logDebug ≠ [] then e.logDebug
    else if e.logVerbose ≠ [] then e.logVerbose
    else e.logBasic

/-- The label that an event asks for cannot be written, since a figure in it is too long: that of a
partition, or that of a subnet that was begun before. -/
def Event.Unlabelled (before : List Event) (e : Event) : Prop :=
  e.kind = .partition ∧ e.partitionIndex.TooLong ∨
    e.kind = .subnetDone ∧ (∃ b ∈ before, b.kind = .subnetStart ∧ b.subnet = e.subnet) ∧
      ∃ f ∈ e.subnetFigures, f.TooLong

namespace Viewer

/-! ## The lines on the pane -/

namespace PaneChange

/-- The lines on the pane once something more happened to it. -/
def after (lines : List String) : PaneChange → List String
  | cleared => []
  | line text => lines ++ [text]

/-- The lines on the pane: those that were written since it was cleared last. -/
def visible (pane : List PaneChange) : List String := pane.foldl after []

/-- Lines that are written stand behind those on the pane. -/
theorem visible_append_lines (pane : List PaneChange) (texts : List String) :
    visible (pane ++ texts.map line) = visible pane ++ texts := by
  unfold visible
  rw [List.foldl_append, List.foldl_map]
  generalize pane.foldl after [] = before
  induction texts generalizing before with
  | nil => exact (List.append_nil _).symm
  | cons text rest ih =>
    rw [List.foldl_cons, ih]
    exact List.append_assoc _ _ _

/-- Lines that are written on a cleared pane are all that is on it. -/
theorem visible_append_cleared (pane : List PaneChange) (texts : List String) :
    visible (pane ++ cleared :: texts.map line) = texts := by
  have hcleared : visible (pane ++ [cleared]) = [] := by
    unfold visible
    rw [List.foldl_append]
    rfl
  rw [List.append_cons, visible_append_lines, hcleared, List.nil_append]

end PaneChange

open PaneChange (visible)

/-- A line of an event with the time at which the event was taken in. -/
def timedLine (t : Moment) (line : String) : String := s!"[#555555]{t.clockText}[/] {line}"

/-- The log of some events at a level of detail. -/
def logAt (d : Detail) (told : List (Event × Moment)) : List String :=
  told.flatMap fun e => (e.1.linesAt d).map (timedLine e.2)

/-- Levels without lines fall back on the levels below. -/
theorem Detail.lines_eq (d : Detail) (e : Event) : d.lines e = e.linesAt d := by
  cases d with
  | basic => rfl
  | verbose => simp [lines, firstFilled, Event.linesAt]
  | debug => simp [lines, firstFilled, Event.linesAt]

namespace State

/-- What is written for an event are its timed lines. -/
theorem eventLines_eq (d : Detail) (e : Event × Moment) :
    eventLines d e = (logAt d [e]).map PaneChange.line := by
  unfold eventLines logAt
  rw [Detail.lines_eq, List.flatMap_singleton, List.map_map]
  rfl

/-- What is written for events is their log. -/
theorem flatMap_eventLines (d : Detail) (told : List (Event × Moment)) :
    told.flatMap (eventLines d) = (logAt d told).map PaneChange.line := by
  unfold logAt
  rw [List.map_flatMap]
  congr 1
  funext e
  rw [eventLines_eq, logAt, List.flatMap_singleton]

/-- A pane that is written anew shows the log of all events at the level of the viewer. -/
theorem visible_redrawLog (s : State) : visible s.redrawLog.pane = logAt s.detail s.history := by
  unfold redrawLog
  rw [flatMap_eventLines]
  exact PaneChange.visible_append_cleared _ _

end State

/-! ## A viewer at work -/

/-- The level of detail that the key chooses, if it does. -/
def Key.chosen? : Key → Option Detail
  | .detail d => some d
  | .quit => none

/-- What comes to a viewer. -/
inductive Input
  /-- An event; of a walk it is told how it ended. -/
  | event (e : Event) (status : e.kind = .path → e.status.isSome)
  /-- A key that is pressed. -/
  | key (k : Key)

/-- An input with the clock by which it is handled, which can be read as often as that needs. -/
structure Arrival where
  /-- The clock. -/
  clock : Clock
  /-- It is read twice at most. -/
  lasts : clock.Lasts 2
  /-- The input. -/
  input : Input

namespace Arrival

/-- The event that comes, if one does, with the time that the clock shows. -/
def told? (x : Arrival) : Option (Event × Moment) :=
  match x.input with
  | .event e _ => x.clock.read.1.toOption.map fun t => (e, t)
  | .key _ => none

/-- The event that comes, if one does. -/
def event? (x : Arrival) : Option Event :=
  match x.input with
  | .event e _ => some e
  | .key _ => none

/-- The level of detail that a key chooses, if one does. -/
def chosen? (x : Arrival) : Option Detail :=
  match x.input with
  | .event _ _ => none
  | .key k => k.chosen?

/-- The level of detail that was chosen last. -/
def lastChosen (d : Detail) (xs : List Arrival) : Detail :=
  xs.foldl (fun d x => x.chosen?.getD d) d

/-- Every event that comes has a time. -/
theorem map_fst_told? (x : Arrival) : x.told?.map Prod.fst = x.event? := by
  obtain ⟨clock, lasts, input⟩ := x
  cases input with
  | key k => rfl
  | event e status =>
    obtain ⟨⟨t, ht⟩, -⟩ := lasts
    unfold told? event?
    dsimp only
    rw [ht]
    rfl

end Arrival

/-- An event came whose label cannot be written, and no level of detail was chosen since. -/
def Missed (xs : List Arrival) (e : Event × Moment) : Prop :=
  ∃ before x later, xs = before ++ x :: later ∧ x.told? = some e ∧
    e.1.Unlabelled (before.filterMap Arrival.event?) ∧ ∀ y ∈ later, y.chosen? = none

/-- What comes last is missed if it asks for such a label; what was missed before still is, unless a
level is chosen. -/
theorem missed_concat {xs : List Arrival} {x : Arrival} {e : Event × Moment} :
    Missed (xs ++ [x]) e ↔ Missed xs e ∧ x.chosen? = none ∨
      x.told? = some e ∧ e.1.Unlabelled (xs.filterMap Arrival.event?) := by
  constructor
  · rintro ⟨before, y, later, hsplit, htold, hlabel, hlater⟩
    rcases List.eq_nil_or_concat later with rfl | ⟨later, z, rfl⟩
    · obtain ⟨rfl, hlast⟩ := List.append_inj' hsplit rfl
      cases hlast
      exact .inr ⟨htold, hlabel⟩
    · rw [List.concat_eq_append, ← List.cons_append, ← List.append_assoc] at hsplit
      obtain ⟨rfl, hlast⟩ := List.append_inj' hsplit rfl
      cases hlast
      rw [List.concat_eq_append, List.forall_mem_append] at hlater
      exact .inl ⟨⟨before, y, later, rfl, htold, hlabel, hlater.1⟩,
        hlater.2 _ List.mem_cons_self⟩
  · rintro (⟨⟨before, y, later, rfl, htold, hlabel, hlater⟩, hchosen⟩ | ⟨htold, hlabel⟩)
    · refine ⟨before, y, later ++ [x], by rw [List.append_assoc, List.cons_append], htold, hlabel,
        List.forall_mem_append.mpr ⟨hlater, List.forall_mem_singleton.mpr hchosen⟩⟩
    · exact ⟨xs, x, [], rfl, htold, hlabel, List.forall_mem_nil _⟩

/-- When an event comes, all that is missed has a property if what was missed before has it and the
event has it unless its label can be written. -/
theorem forall_missed_concat {xs : List Arrival} {x : Arrival} {e : Event × Moment}
    (htold : x.told? = some e) (hchosen : x.chosen? = none) {P : Event × Moment → Prop} :
    (∀ e', Missed (xs ++ [x]) e' → P e') ↔
      (∀ e', Missed xs e' → P e') ∧ (e.1.Unlabelled (xs.filterMap Arrival.event?) → P e) := by
  simp only [missed_concat, hchosen, and_true, htold, Option.some.injEq, or_imp, forall_and]
  refine and_congr_right fun _ => ⟨fun hall hlabel => hall e ⟨rfl, hlabel⟩, ?_⟩
  rintro hlast _ ⟨rfl, hlabel⟩
  exact hlast hlabel

/-- What is part of a list is the list with more behind it just if it is the list and nothing is
behind. -/
theorem eq_append_iff_of_sublist {α : Type} {as bs cs : List α} (h : as.Sublist bs) :
    as = bs ++ cs ↔ as = bs ∧ cs = [] := by
  constructor
  · intro hall
    have hlength := h.length_le
    rw [hall, List.length_append] at hlength
    have hnone : cs = [] := List.eq_nil_of_length_eq_zero (by omega)
    rw [hnone, List.append_nil] at hall
    exact ⟨hall, hnone⟩
  · rintro ⟨rfl, rfl⟩
    exact (List.append_nil _).symm

namespace State

variable {s : State}

/-! ## One input -/

/-- A label that cannot be written is not set. -/
theorem setLabel_of_error {i : ItemId} {label : Except Failure Label} {e : Failure}
    (h : label = .error e) (s : State) : setLabel i label s = ⟨.error e, s, []⟩ := by
  subst h
  rfl

/-- An event can be taken in exactly if the label that it asks for can be written. -/
theorem absorb_cases {e : Event} (status : e.kind = .path → e.status.isSome) {before : List Event}
    (hbegun : (s.subnetItems.get? e.subnet).isSome ↔
      ∃ b ∈ before, b.kind = .subnetStart ∧ b.subnet = e.subnet) :
    (absorb e s).outcome = .ok () ∧ ¬ e.Unlabelled before ∨
      (∃ f, (absorb e s).outcome = .error f) ∧ e.Unlabelled before := by
  unfold absorb Event.Unlabelled
  cases hkind : e.kind with
  | path =>
    obtain ⟨st, hst⟩ := Option.isSome_iff_exists.mp (status hkind)
    rw [hst]
    exact .inl ⟨rfl, by simp⟩
  | partition =>
    dsimp only
    unfold labelPartition
    rw [Action.get_bind]
    generalize s.partitionItem e.subnet e.partition = r
    rcases Label.partitionFound_cases e with ⟨hlong, hl⟩ | ⟨hshort, l, hl⟩
    · refine .inr ⟨⟨.numberTooLong, ?_⟩, .inl ⟨rfl, hlong⟩⟩
      exact congrArg Run.outcome (setLabel_of_error hl r.1)
    · refine .inl ⟨congrArg Run.outcome (setLabel_of_ok hl r.1), ?_⟩
      simpa using hshort
  | subnetDone =>
    dsimp only
    unfold labelSubnet
    rw [Action.get_bind]
    cases hitem : s.subnetItems.get? e.subnet with
    | none =>
      rw [hitem] at hbegun
      refine .inl ⟨rfl, ?_⟩
      rintro (⟨hother, -⟩ | ⟨-, hfound, -⟩)
      · cases hother
      · exact absurd (hbegun.mpr hfound) Bool.false_ne_true
    | some i =>
      rw [hitem] at hbegun
      rcases Label.subnetDone_cases e with ⟨hlong, hl⟩ | ⟨hshort, l, hl⟩
      · refine .inr ⟨⟨.numberTooLong, ?_⟩, .inr ⟨rfl, hbegun.mp rfl, hlong⟩⟩
        exact congrArg Run.outcome (setLabel_of_error hl s)
      · refine .inl ⟨congrArg Run.outcome (setLabel_of_ok hl s), ?_⟩
        rintro (⟨hother, -⟩ | ⟨-, -, f, hf, hlong⟩)
        · cases hother
        · exact hshort f hf hlong
  | subnetStart => exact .inl ⟨rfl, by simp⟩
  | runDone => exact .inl ⟨rfl, by simp⟩
  | other name => exact .inl ⟨rfl, by simp⟩

/-- If the subnets that were begun have items, they still do when one more event is taken in. -/
theorem begun_absorb {before : List Event} (h : ∀ a, (s.subnetItems.get? a).isSome ↔
      ∃ b ∈ before, b.kind = .subnetStart ∧ b.subnet = a) (e : Event) (a : String) :
    ((absorb e s).state.subnetItems.get? a).isSome ↔
      ∃ b ∈ before ++ [e], b.kind = .subnetStart ∧ b.subnet = a := by
  rw [(absorb_keeps e s).1]
  simp only [List.mem_append, List.mem_singleton, or_and_right, exists_or, exists_eq_left]
  rw [← h a]
  by_cases hstart : e.kind = .subnetStart
  · rw [if_pos hstart, OrderedMap.get?_insert]
    by_cases ha : a = e.subnet
    · simp [hstart, ha]
    · simp [ha, Ne.symm ha]
  · simp [hstart]

/-- Showing a status line changes nothing else, whether it can be written or not. -/
theorem updateStatus_state (s : State) :
    ∃ clock status, (updateStatus s).state = { s with clock, status } := by
  unfold updateStatus
  rcases hread : s.clock.read with ⟨e | t, c⟩
  · have hnow : now s = ⟨.error e, { s with clock := c }, []⟩ := by
      unfold now
      rw [hread]
    rw [Action.bind_of_error hnow]
    exact ⟨c, s.status, rfl⟩
  · rw [Action.bind_of_ok (now_run hread), Action.get_bind]
    cases ({ s with clock := c } : State).statusLine t with
    | error e => exact ⟨c, s.status, rfl⟩
    | ok line => exact ⟨c, s.status ++ [line], rfl⟩

/-- An event is kept with its time, and its lines are written if what it changes can be. -/
theorem process_cases {t : Moment} {c : Clock} (h : s.clock.read = (.ok t, c)) (e : Event) :
    let s' := (process e s).state
    s'.history = s.history ++ [(e, t)] ∧ s'.detail = s.detail ∧
      s'.subnetItems = (absorb e s).state.subnetItems ∧
      ((absorb e s).outcome = .ok () → s'.pane = s.pane ++ eventLines s.detail (e, t)) ∧
      ∀ f, (absorb e s).outcome = .error f → s'.pane = s.pane := by
  have hblind := blind_absorb
    ⟨c, s.started, s.history ++ [(e, t)], s.detail, s.pane, s.status, s.hasQuit⟩ e s
  have habsorb : absorb e { s with clock := c, history := s.history ++ [(e, t)] } =
      (absorb e s).over (within
        ⟨c, s.started, s.history ++ [(e, t)], s.detail, s.pane, s.status, s.hasQuit⟩) := hblind
  rw [process_eq h]
  rcases hr : absorb e s with ⟨f | _, s₁, log⟩
  · rw [hr] at habsorb
    rw [Action.bind_of_error habsorb]
    exact ⟨rfl, rfl, rfl, nofun, fun _ _ => rfl⟩
  · rw [hr] at habsorb
    obtain ⟨clock, status, hstatus⟩ := updateStatus_state (writeLines (e, t) (within
      ⟨c, s.started, s.history ++ [(e, t)], s.detail, s.pane, s.status, s.hasQuit⟩ s₁))
    rw [Action.bind_of_ok habsorb, Action.modify_bind]
    dsimp only
    rw [hstatus]
    exact ⟨rfl, rfl, rfl, fun _ => rfl, nofun⟩

/-- Handles what comes. -/
def handle (x : Arrival) : Action State Unit := do
  Action.modify fun s => { s with clock := x.clock }
  match x.input with
  | .event e _ => process e
  | .key k => press k

/-- The viewer when one thing after another has come. Where it breaks off, it goes on with the next
thing. -/
def afterAll (xs : List Arrival) (s : State) : State := xs.foldl (fun s x => (handle x s).state) s

/-! ## All inputs -/

/-- The viewer keeps the events that came with their times. Its log pane shows their log at the
level that was chosen last, but for the lines of the events that were missed. -/
structure Shows (xs : List Arrival) (s : State) : Prop where
  /-- The events are kept. -/
  history_eq : s.history = xs.filterMap Arrival.told?
  /-- The level is the chosen one. -/
  detail_eq : s.detail = Arrival.lastChosen .basic xs
  /-- The subnets that were begun have items. -/
  begun_iff : ∀ a, (s.subnetItems.get? a).isSome ↔
    ∃ b ∈ xs.filterMap Arrival.event?, b.kind = .subnetStart ∧ b.subnet = a
  /-- Nothing else is shown than the log. -/
  sublist : (visible s.pane).Sublist (logAt s.detail s.history)
  /-- All of it is shown exactly if nothing was missed that has lines. -/
  visible_iff : visible s.pane = logAt s.detail s.history ↔
    ∀ e, Missed xs e → e.1.linesAt s.detail = []

variable {xs : List Arrival}

/-- One more event that is logged comes behind the log. -/
theorem logAt_concat (d : Detail) (told : List (Event × Moment)) (e : Event × Moment) :
    logAt d (told ++ [e]) = logAt d told ++ logAt d [e] := List.flatMap_append

/-- An event without lines has no log. -/
theorem logAt_singleton_eq_nil_iff (d : Detail) (e : Event × Moment) :
    logAt d [e] = [] ↔ e.1.linesAt d = [] := by
  unfold logAt
  rw [List.flatMap_singleton, List.map_eq_nil_iff]

/-- When an event comes, its lines are shown, or it is missed. -/
theorem Shows.event (h : Shows xs s) {e : Event} (status : e.kind = .path → e.status.isSome)
    {clock : Clock} (lasts : clock.Lasts 2) :
    Shows (xs ++ [⟨clock, lasts, .event e status⟩]) (process e { s with clock }).state := by
  obtain ⟨t, c, -, -, hread, -, -⟩ := lasts.read_twice
  have htold : (⟨clock, lasts, .event e status⟩ : Arrival).told? = some (e, t) := by
    unfold Arrival.told?
    dsimp only
    rw [hread]
    rfl
  have hevent : (⟨clock, lasts, .event e status⟩ : Arrival).event? = some e := rfl
  have hchosen : (⟨clock, lasts, .event e status⟩ : Arrival).chosen? = none := rfl
  generalize (⟨clock, lasts, .event e status⟩ : Arrival) = x at htold hevent hchosen
  obtain ⟨hhistory, hdetail, hitems, hok, herror⟩ :=
    process_cases (s := { s with clock }) hread e
  have hcases := absorb_cases (s := { s with clock }) status (h.begun_iff e.subnet)
  generalize (process e { s with clock }).state = s' at *
  have hlines : visible (s.pane ++ eventLines s.detail (e, t)) =
      visible s.pane ++ logAt s.detail [(e, t)] := by
    rw [eventLines_eq, PaneChange.visible_append_lines]
  constructor
  case history_eq =>
    rw [hhistory, List.filterMap_append, List.filterMap_cons_some htold, ← h.history_eq]
    rfl
  case detail_eq =>
    rw [hdetail, Arrival.lastChosen, List.foldl_append, List.foldl_cons, List.foldl_nil, hchosen]
    exact h.detail_eq
  case begun_iff =>
    intro a
    rw [hitems, List.filterMap_append, List.filterMap_cons_some hevent]
    exact begun_absorb (s := { s with clock }) h.begun_iff e a
  case sublist =>
    rw [hdetail, hhistory]
    change (visible s'.pane).Sublist (logAt s.detail (s.history ++ [(e, t)]))
    rw [logAt_concat]
    rcases hcases with ⟨hdone, -⟩ | ⟨⟨f, hfailed⟩, -⟩
    · rw [hok hdone]
      exact hlines ▸ h.sublist.append_right _
    · rw [herror f hfailed]
      exact h.sublist.trans (List.sublist_append_left _ _)
  case visible_iff =>
    rw [hdetail, hhistory]
    change visible s'.pane = logAt s.detail (s.history ++ [(e, t)]) ↔ _
    rw [logAt_concat, forall_missed_concat htold hchosen]
    refine Iff.trans ?_ (and_congr_left' h.visible_iff)
    rcases hcases with ⟨hdone, hlabelled⟩ | ⟨⟨f, hfailed⟩, hunlabelled⟩
    · rw [hok hdone]
      change visible (s.pane ++ eventLines s.detail (e, t)) = _ ↔ _
      rw [hlines, List.append_left_inj]
      exact (and_iff_left fun hmissed => absurd hmissed hlabelled).symm
    · rw [herror f hfailed]
      refine (eq_append_iff_of_sublist h.sublist).trans (and_congr_right fun _ => ?_)
      rw [logAt_singleton_eq_nil_iff]
      exact ⟨fun hnone _ => hnone, fun hall => hall hunlabelled⟩

/-- When a key is pressed that chooses a level, the log is shown at that level. -/
theorem Shows.key (h : Shows xs s) (k : Key) {clock : Clock} (lasts : clock.Lasts 2) :
    Shows (xs ++ [⟨clock, lasts, .key k⟩]) (press k { s with clock }).state := by
  have htold : (⟨clock, lasts, .key k⟩ : Arrival).told? = none := rfl
  have hevent : (⟨clock, lasts, .key k⟩ : Arrival).event? = none := rfl
  have hchosen : (⟨clock, lasts, .key k⟩ : Arrival).chosen? = k.chosen? := rfl
  generalize (⟨clock, lasts, .key k⟩ : Arrival) = x at htold hevent hchosen
  have hhistory : (xs ++ [x]).filterMap Arrival.told? = xs.filterMap Arrival.told? := by
    rw [List.filterMap_append, List.filterMap_cons_none htold]
    exact List.append_nil _
  have hevents : (xs ++ [x]).filterMap Arrival.event? = xs.filterMap Arrival.event? := by
    rw [List.filterMap_append, List.filterMap_cons_none hevent]
    exact List.append_nil _
  have hlast : Arrival.lastChosen .basic (xs ++ [x]) =
      k.chosen?.getD (Arrival.lastChosen .basic xs) := by
    rw [Arrival.lastChosen, List.foldl_append, List.foldl_cons, List.foldl_nil, hchosen]
    rfl
  have hmissed : ∀ e, Missed (xs ++ [x]) e ↔ Missed xs e ∧ k.chosen? = none := by
    intro e
    rw [missed_concat, htold, hchosen]
    exact or_iff_left nofun
  cases k with
  | quit =>
    refine ⟨h.history_eq.trans hhistory.symm, h.detail_eq.trans hlast.symm, ?_, h.sublist, ?_⟩
    · rw [hevents]
      exact h.begun_iff
    · simp only [hmissed, Key.chosen?, and_true]
      exact h.visible_iff
  | detail d =>
    obtain ⟨clock', status, hstate⟩ :=
      updateStatus_state { ({ s with clock } : State) with detail := d }.redrawLog
    have hpress : (press (.detail d) { s with clock }).state =
        { { ({ s with clock } : State) with detail := d }.redrawLog with
          clock := clock', status } := hstate
    have hvisible : visible { ({ s with clock } : State) with detail := d }.redrawLog.pane =
        logAt d s.history := visible_redrawLog { ({ s with clock } : State) with detail := d }
    rw [hpress]
    refine ⟨h.history_eq.trans hhistory.symm, hlast.symm, ?_, hvisible ▸ List.Sublist.refl _,
      iff_of_true hvisible ?_⟩
    · rw [hevents]
      exact h.begun_iff
    · intro e he
      cases ((hmissed e).mp he).2

/-- Whatever comes, the viewer keeps the events and shows their log, but for what was missed. -/
theorem Shows.handle (h : Shows xs s) (x : Arrival) :
    Shows (xs ++ [x]) (State.handle x s).state := by
  obtain ⟨clock, lasts, input⟩ := x
  cases input with
  | event e status => exact h.event status lasts
  | key k => exact h.key k lasts

/-- So it does after one thing after another. -/
theorem shows_afterAll (clock : Clock) (started : Moment) (status : List String)
    (xs : List Arrival) : Shows xs (afterAll xs { clock, started, status }) := by
  induction xs using List.reverseRecOn with
  | nil =>
    refine ⟨rfl, rfl, fun a => ?_, List.Sublist.refl _, iff_of_true rfl ?_⟩
    · exact iff_of_false nofun fun ⟨b, hb, _⟩ => absurd hb List.not_mem_nil
    · rintro e ⟨before, x, later, hsplit, -⟩
      exact absurd hsplit (List.append_ne_nil_of_right_ne_nil _ (List.cons_ne_nil _ _)).symm
  | append_singleton xs x ih =>
    have hnext : afterAll (xs ++ [x]) { clock, started, status } =
        (State.handle x (afterAll xs { clock, started, status })).state := List.foldl_append
    rw [hnext]
    exact ih.handle x

/-- Whatever events come to a viewer that was just started, and whatever keys are pressed between
them, the viewer keeps the events with the times at which it was told of them. When the pane is
written anew, it shows the log of these events at the level that was chosen last. At every moment
the lines on the pane are among those of this log, and they are all of them exactly if each event
that was missed since a level was chosen last has no lines at the level. So two viewers that were
told of the same events at the same times show the same if the last choice of both was the same,
whatever was chosen before, unless lines were missed. -/
theorem log_as_written_anew (clock : Clock) (started : Moment) (status : List String)
    (xs : List Arrival) :
    let s := afterAll xs { clock, started, status }
    s.history = xs.filterMap Arrival.told? ∧
      s.history.map Prod.fst = xs.filterMap Arrival.event? ∧
      s.detail = Arrival.lastChosen .basic xs ∧
      visible s.redrawLog.pane = logAt s.detail s.history ∧
      (visible s.pane).Sublist (visible s.redrawLog.pane) ∧
      (visible s.pane = visible s.redrawLog.pane ↔
        ∀ e, Missed xs e → e.1.linesAt s.detail = []) ∧
      ∀ ys : List Arrival, ys.filterMap Arrival.told? = xs.filterMap Arrival.told? →
        Arrival.lastChosen .basic ys = Arrival.lastChosen .basic xs →
        (∀ e, Missed xs e ∨ Missed ys e → e.1.linesAt s.detail = []) →
        visible (afterAll ys { clock, started, status }).pane = visible s.pane := by
  intro s
  have hshows := shows_afterAll clock started status xs
  refine ⟨hshows.history_eq, ?_, hshows.detail_eq, visible_redrawLog s, ?_, ?_, ?_⟩
  · rw [hshows.history_eq, List.map_filterMap]
    congr 1
    funext x
    exact x.map_fst_told?
  · rw [visible_redrawLog]
    exact hshows.sublist
  · rw [visible_redrawLog]
    exact hshows.visible_iff
  · intro ys htold hchosen hmissed
    have hshows' := shows_afterAll clock started status ys
    have hdetail := hshows'.detail_eq.trans (hchosen.trans hshows.detail_eq.symm)
    have hall := hshows.visible_iff.mpr fun e he => hmissed e (.inl he)
    have hall' := hshows'.visible_iff.mpr fun e he => by
      rw [hdetail]
      exact hmissed e (.inr he)
    rw [hall', hall, hdetail, hshows'.history_eq, hshows.history_eq, htold]

/-- The end of a subnet that was begun, with a number of nodes of 4301 digits. -/
def farCount : List Arrival :=
  let clock : Clock := ⟨.ofParts 2024 1 1 0 0 0 0, 0, 0⟩
  have lasts : clock.Lasts 2 := Clock.lasts_of_still (by decide +kernel) 2 0
  [⟨clock, lasts, .event { kind := .subnetStart, subnet := "s", logBasic := ["begun"] } nofun⟩,
    ⟨clock, lasts, .event { kind := .subnetDone, subnet := "s", logBasic := ["done"]
                            nodes := .given Text.numberLimit } nofun⟩]

/-- The lines of that end are missing on the pane, but there when it is written anew. -/
theorem farCount_not_logged :
    let s := afterAll farCount { clock := ⟨.ofParts 2024 1 1 0 0 0 0, 0, 0⟩
                                 started := .ofParts 2024 1 1 0 0 0 0 }
    (visible s.pane).length = 1 ∧ (visible s.redrawLog.pane).length = 2 := by
  decide +kernel

end State

end Viewer

end FabricPaths
