import FabricPaths.Proofs.Action
import FabricPaths.Proofs.Viewer.Labels
import FabricPaths.Viewer.State

/-!
# What a viewer comes to know, whatever the time

A viewer takes in an event between two looks at the clock. The times that it reads are kept and
shown, but have no influence on the tree, the counts, the result and the order of events. So two
viewers that take in the same events know the same afterwards, whatever their clocks showed.
-/

namespace FabricPaths

namespace Clock

/-- The clock can be read so many times. -/
def Lasts : Nat → Clock → Prop
  | 0, _ => True
  | n + 1, c => (∃ t, c.read.1 = .ok t) ∧ Lasts n c.read.2

/-- A clock that can be read so many times can be read and read again. -/
theorem Lasts.read_twice {n : Nat} {c : Clock} (h : c.Lasts (n + 2)) :
    ∃ t c' t' c'', c.read = (.ok t, c') ∧ c'.read = (.ok t', c'') ∧ c''.Lasts n := by
  obtain ⟨⟨t, ht⟩, ⟨t', ht'⟩, hlasts⟩ := h
  exact ⟨t, c.read.2, t', c.read.2.read.2, Prod.ext ht rfl, Prod.ext ht' rfl, hlasts⟩

/-- A clock that stands still at a time in the calendar can be read again and again. -/
theorem lasts_of_still {t : Moment} (h : t.micros < Moment.endOfCalendar) (n readings : Nat) :
    Lasts n ⟨t, 0, readings⟩ := by
  induction n generalizing readings with
  | zero => trivial
  | succ n ih =>
    have hwithin : 0 ≤ (t.micros : Int) ∧ (t.micros : Int) < Moment.endOfCalendar :=
      ⟨Int.natCast_nonneg _, Int.ofNat_lt.mpr h⟩
    refine ⟨⟨t, ?_⟩, ih (readings + 1)⟩
    unfold read Moment.later
    dsimp only
    rw [Int.zero_mul, Int.add_zero, if_pos hwithin, Int.toNat_natCast]

end Clock

/-- A viewer can show the event: it shows of a walk how it ended, and it shows figures. -/
structure Event.Showable (e : Event) : Prop where
  /-- A walk is told of with the way it ended. -/
  status : e.kind = .path → e.status.isSome
  /-- The figures can be written. -/
  legible : e.Legible

namespace Viewer.State

/-- What a viewer has besides what events change: they neither read nor change it. -/
structure Surroundings where
  /-- The clock. -/
  clock : Clock
  /-- When the viewer was started. -/
  started : Moment
  /-- The events with their times. -/
  history : List (Event × Moment)
  /-- How much the log pane shows. -/
  detail : Detail
  /-- What was written into the log pane. -/
  pane : List PaneChange
  /-- The status lines. -/
  status : List String
  /-- Whether the viewer was left. -/
  hasQuit : Bool

/-- The surroundings of what events change. -/
def surroundings (s : State) : Surroundings :=
  ⟨s.clock, s.started, s.history, s.detail, s.pane, s.status, s.hasQuit⟩

/-- The viewer in other surroundings. -/
def within (r : Surroundings) (s : State) : State :=
  { s with
    clock := r.clock, started := r.started, history := r.history, detail := r.detail
    pane := r.pane, status := r.status, hasQuit := r.hasQuit }

/-- The surroundings without clock and times, and without what was written, which shows times. The
events are kept in order. -/
def Surroundings.untimed (r : Surroundings) : Surroundings :=
  { r with
    clock := ⟨⟨0⟩, 0, 0⟩, started := ⟨0⟩, history := r.history.map fun e => (e.1, ⟨0⟩)
    pane := [], status := [] }

/-- What a viewer knows, whatever the time. -/
def untimed (s : State) : State := s.within s.surroundings.untimed

variable {s : State} {e : Event}

/-- The item of a partition does not depend on the surroundings. -/
theorem partitionItem_within (r : Surroundings) (s : State) (subnet name : String) :
    (s.within r).partitionItem subnet name =
      ((s.partitionItem subnet name).1.within r, (s.partitionItem subnet name).2) := by
  have hsame : (s.within r).partitionItems = s.partitionItems := rfl
  unfold partitionItem
  rw [hsame]
  cases s.partitionItems.get? (subnet, name) with
  | some i => rfl
  | none => rfl

/-- The item of a host does not depend on the surroundings. -/
theorem hostItem_within (r : Surroundings) (s : State) (subnet host : String) :
    (s.within r).hostItem subnet host =
      ((s.hostItem subnet host).1.within r, (s.hostItem subnet host).2) := by
  have hsame : (s.within r).hostItems = s.hostItems := rfl
  unfold hostItem
  rw [partitionItem_within, hsame]
  cases s.hostItems.get? (subnet, host) with
  | some i => rfl
  | none => rfl

/-- Whether and how an item is labelled does not depend on the surroundings. -/
theorem blind_setLabel (r : Surroundings) (i : ItemId) (label : Except Failure Label) :
    Action.Blind (within r) (setLabel i label) := by
  have hC := Action.Blind.compositional (p := within r)
  unfold setLabel
  exact hC.bind (hC.ofExcept label) fun l => Action.Blind.modify fun _ => rfl

/-- Nor does it for a partition. -/
theorem blind_labelPartition (r : Surroundings) (e : Event) :
    Action.Blind (within r) (labelPartition e) := by
  intro s
  unfold labelPartition
  rw [Action.get_bind, Action.get_bind, partitionItem_within]
  rcases s.partitionItem e.subnet e.partition with ⟨s', i⟩
  dsimp only
  rw [Action.modify_bind, Action.modify_bind]
  exact blind_setLabel r i _ s'

/-- Nor for a subnet. -/
theorem blind_labelSubnet (r : Surroundings) (e : Event) :
    Action.Blind (within r) (labelSubnet e) := by
  intro s
  have hsame : (s.within r).subnetItems = s.subnetItems := rfl
  unfold labelSubnet
  rw [Action.get_bind, Action.get_bind, hsame]
  cases s.subnetItems.get? e.subnet with
  | some i => exact blind_setLabel r i _ s
  | none => rfl

/-- What an event changes does not depend on the surroundings. -/
theorem blind_absorb (r : Surroundings) (e : Event) : Action.Blind (within r) (absorb e) := by
  unfold absorb
  cases e.kind with
  | subnetStart => exact Action.Blind.modify fun _ => rfl
  | partition => exact blind_labelPartition r e
  | path =>
    cases e.status with
    | none => exact Action.Blind.fail _
    | some status =>
      refine Action.Blind.modify fun s => ?_
      unfold addWalk
      rw [hostItem_within]
      rfl
  | subnetDone => exact blind_labelSubnet r e
  | runDone => exact Action.Blind.modify fun _ => rfl
  | other name => exact Action.Blind.pure ()

/-- A label that can be written is set. -/
theorem setLabel_of_ok {i : ItemId} {label : Except Failure Label} {l : Label}
    (h : label = .ok l) (s : State) :
    setLabel i label s = ⟨.ok (), { s with tree := s.tree.setLabel i l }, []⟩ := by
  subst h
  rfl

/-- A label that is set can be written. -/
theorem exists_of_setLabel {i : ItemId} {label : Except Failure Label} {s' : State}
    (h : setLabel i label s = ⟨.ok (), s', []⟩) :
    ∃ l, label = .ok l ∧ s' = { s with tree := s.tree.setLabel i l } := by
  cases label with
  | ok l =>
    cases h
    exact ⟨l, rfl, rfl⟩
  | error e => cases h

/-- An event that can be shown can be taken in. -/
theorem absorb_ok (he : e.Showable) (s : State) : ∃ s', absorb e s = ⟨.ok (), s', []⟩ := by
  unfold absorb
  cases hkind : e.kind with
  | path =>
    obtain ⟨status, hstatus⟩ := Option.isSome_iff_exists.mp (he.status hkind)
    rw [hstatus]
    exact ⟨_, rfl⟩
  | subnetStart => exact ⟨_, rfl⟩
  | partition =>
    have hindex : ¬ e.partitionIndex.TooLong := he.legible _ List.mem_cons_self
    obtain ⟨l, hl⟩ := ((Label.partitionFound_cases e).resolve_left fun h => hindex h.1).2
    dsimp only
    unfold labelPartition
    rw [Action.get_bind]
    rcases s.partitionItem e.subnet e.partition with ⟨s', i⟩
    exact ⟨_, setLabel_of_ok hl s'⟩
  | subnetDone =>
    have hfigures : ∀ f ∈ e.subnetFigures, ¬ f.TooLong := fun f hf =>
      he.legible f (List.mem_cons_of_mem _ (List.mem_cons_of_mem _ hf))
    obtain ⟨l, hl⟩ := ((Label.subnetDone_cases e).resolve_left
      fun ⟨⟨f, hf, hlong⟩, _⟩ => hfigures f hf hlong).2
    dsimp only
    unfold labelSubnet
    rw [Action.get_bind]
    cases s.subnetItems.get? e.subnet with
    | some i => exact ⟨_, setLabel_of_ok hl s⟩
    | none => exact ⟨_, rfl⟩
  | runDone => exact ⟨_, rfl⟩
  | other name => exact ⟨_, rfl⟩

/-- A label, set or not, changes neither the items of subnets nor the result. -/
theorem setLabel_keeps (i : ItemId) (label : Except Failure Label) (s : State) :
    (setLabel i label s).state.subnetItems = s.subnetItems ∧
      (setLabel i label s).state.result = s.result := by
  cases label with
  | ok l => exact ⟨rfl, rfl⟩
  | error e => exact ⟨rfl, rfl⟩

/-- Nor does the item of a partition. -/
theorem partitionItem_keeps (s : State) (subnet name : String) :
    (s.partitionItem subnet name).1.subnetItems = s.subnetItems ∧
      (s.partitionItem subnet name).1.result = s.result := by
  unfold partitionItem
  cases s.partitionItems.get? (subnet, name) with
  | some i => exact ⟨rfl, rfl⟩
  | none => exact ⟨rfl, rfl⟩

/-- Nor does the item of a host. -/
theorem hostItem_keeps (s : State) (subnet host : String) :
    (s.hostItem subnet host).1.subnetItems = s.subnetItems ∧
      (s.hostItem subnet host).1.result = s.result := by
  unfold hostItem
  cases s.hostItems.get? (subnet, host) with
  | some i => exact ⟨rfl, rfl⟩
  | none => exact partitionItem_keeps s subnet _

/-- Only the beginning of a subnet adds an item for one, and only the end of a run is a result. -/
theorem absorb_keeps (e : Event) (s : State) :
    (absorb e s).state.subnetItems = (if e.kind = .subnetStart then
        s.subnetItems.insert e.subnet s.tree.next else s.subnetItems) ∧
      (absorb e s).state.result = if e.kind = .runDone then some e else s.result := by
  unfold absorb
  cases e.kind with
  | subnetStart => exact ⟨rfl, rfl⟩
  | path =>
    cases e.status with
    | none => exact ⟨rfl, rfl⟩
    | some status => exact hostItem_keeps s e.subnet e.source
  | partition =>
    have hkept := partitionItem_keeps s e.subnet e.partition
    dsimp only
    unfold labelPartition
    rw [Action.get_bind]
    generalize s.partitionItem e.subnet e.partition = r at hkept ⊢
    have hlabel := setLabel_keeps r.2 (Label.partitionFound e) r.1
    exact ⟨hlabel.1.trans hkept.1, hlabel.2.trans hkept.2⟩
  | subnetDone =>
    dsimp only
    unfold labelSubnet
    rw [Action.get_bind]
    cases s.subnetItems.get? e.subnet with
    | some i => exact setLabel_keeps i _ s
    | none => exact ⟨rfl, rfl⟩
  | runDone => exact ⟨rfl, rfl⟩
  | other name => exact ⟨rfl, rfl⟩

/-! ## The status line -/

/-- The result that the viewer keeps, if it keeps one, can be shown. -/
def Legible (s : State) : Prop := ∀ r ∈ s.result, r.Legible

/-- A viewer without a result keeps none that could not be shown. -/
theorem legible_of_none (h : s.result = none) : s.Legible := by
  intro r hr
  rw [h] at hr
  cases hr

/-- A result that can be shown stays one. -/
theorem Legible.absorb (hs : s.Legible) (he : e.Legible) : (absorb e s).state.Legible := by
  intro r hr
  rw [(absorb_keeps e s).2] at hr
  split at hr
  · cases hr
    exact he
  · exact hs r hr

/-- The status line can be written if the result can be shown. -/
theorem Legible.statusLine (hs : s.Legible) (t : Moment) : ∃ line, s.statusLine t = .ok line := by
  unfold State.statusLine
  cases hresult : s.result with
  | none => exact ⟨_, rfl⟩
  | some r =>
    have hr : ∀ f ∈ [r.subnets, r.pathsComplete, r.pathsMissing], ¬ f.TooLong := by
      intro f hf
      refine hs r hresult f ?_
      simp only [List.mem_cons, List.not_mem_nil, or_false] at hf
      rcases hf with rfl | rfl | rfl <;> simp [Event.subnetFigures]
    obtain ⟨subnets, hsubnets⟩ := Figure.exists_text (hr r.subnets (by simp))
    obtain ⟨paths, hpaths⟩ := Figure.exists_text (hr r.pathsComplete (by simp))
    obtain ⟨missing, hmissing⟩ := Figure.exists_text (hr r.pathsMissing (by simp))
    dsimp only
    unfold endLine
    rw [hsubnets, hpaths, hmissing]
    exact ⟨_, rfl⟩

/-! ## Taking events in -/

/-- A look at the clock is a reading of it. -/
theorem now_run {t : Moment} {c : Clock} (h : s.clock.read = (.ok t, c)) :
    now s = ⟨.ok t, { s with clock := c }, []⟩ := by
  unfold now
  rw [h]

/-- A status line that can be written is shown. -/
theorem updateStatus_run {t : Moment} {c : Clock} (h : s.clock.read = (.ok t, c)) {line : String}
    (hline : s.statusLine t = .ok line) : updateStatus s =
      ⟨.ok (), { s with clock := c, status := s.status ++ [line] }, []⟩ := by
  have hkept : ({ s with clock := c } : State).statusLine t = .ok line := hline
  unfold updateStatus
  rw [Action.bind_of_ok (now_run h), Action.get_bind, hkept]
  rfl

/-- An event is kept with its time before anything else is done about it. -/
theorem process_eq {t : Moment} {c : Clock} (h : s.clock.read = (.ok t, c)) (e : Event) :
    process e s = (absorb e >>= fun _ => Action.modify (writeLines (e, t)) >>= fun _ =>
      updateStatus) { s with clock := c, history := s.history ++ [(e, t)] } := by
  unfold process
  rw [Action.bind_of_ok (now_run h), Action.modify_bind]
  rfl

/-- An event that can be shown is taken in between two looks at the clock. -/
theorem process_run (he : e.Showable) (hs : s.Legible) {n : Nat}
    (hclock : s.clock.Lasts (n + 2)) :
    ∃ s₁ c t t' line, absorb e s = ⟨.ok (), s₁, []⟩ ∧ s.clock.read.1 = .ok t ∧ c.Lasts n ∧
      s₁.Legible ∧ (s₁.within s.surroundings).statusLine t' = .ok line ∧
      process e s = ⟨.ok (), s₁.within
      { s.surroundings with
        clock := c
        history := s.history ++ [(e, t)]
        pane := s.pane ++ eventLines s.detail (e, t)
        status := s.status ++ [line] }, []⟩ := by
  obtain ⟨t, c, t', c', hread, hread', hlasts⟩ := hclock.read_twice
  obtain ⟨s₁, habsorb⟩ := absorb_ok he s
  have habsorbed : absorb e { s with clock := c, history := s.history ++ [(e, t)] } =
      ⟨.ok (), s₁.within ⟨c, s.started, s.history ++ [(e, t)], s.detail, s.pane, s.status,
        s.hasQuit⟩, []⟩ := by
    have hblind := blind_absorb
      ⟨c, s.started, s.history ++ [(e, t)], s.detail, s.pane, s.status, s.hasQuit⟩ e s
    rw [habsorb] at hblind
    exact hblind
  have hlegible : s₁.Legible := by
    have hkept := hs.absorb he.legible
    rw [habsorb] at hkept
    exact hkept
  have hwithin : (s₁.within s.surroundings).Legible := hlegible
  obtain ⟨line, hline⟩ := hwithin.statusLine t'
  refine ⟨s₁, c', t, t', line, habsorb, congrArg Prod.fst hread, hlasts, hlegible, hline, ?_⟩
  have hstatus := updateStatus_run (s := writeLines (e, t) (s₁.within ⟨c, s.started,
    s.history ++ [(e, t)], s.detail, s.pane, s.status, s.hasQuit⟩)) hread' hline
  rw [process_eq hread, Action.bind_of_ok habsorbed, Action.modify_bind, hstatus]
  rfl

/-- What a viewer knows when it has taken in one more event. -/
def learn (s : State) (e : Event) : State :=
  { (absorb e s).state with history := s.history ++ [(e, ⟨0⟩)] }

/-- The log pane shows the lines of all events, at the level of detail. -/
def PaneWritten (s : State) : Prop := s.pane = s.history.flatMap (eventLines s.detail)

/-- The latest status line is one for what the viewer knows. -/
def StatusCurrent (s : State) : Prop :=
  ∃ t line, s.statusLine t = .ok line ∧ s.status.getLast? = some line

/-- What a viewer has taken in from another on: the events in order, with their lines in the log
pane and nothing else changed but what the events tell. -/
structure Took (events : List Event) (s s' : State) : Prop where
  /-- It knows what the events tell. -/
  untimed_eq : s'.untimed = events.foldl learn s.untimed
  /-- It keeps the events in order. -/
  history_eq : s'.history.map Prod.fst = s.history.map Prod.fst ++ events
  /-- The log pane stays complete. -/
  pane_written : s.PaneWritten → s'.PaneWritten
  /-- The latest event is in the status line. -/
  status_current : events ≠ [] ∨ s.StatusCurrent → s'.StatusCurrent
  /-- A result that is kept can be shown. -/
  legible : s.Legible → s'.Legible

/-- Taking in no event leaves a viewer as it is. -/
theorem Took.refl (s : State) : Took [] s s :=
  ⟨rfl, (List.append_nil _).symm, id, fun h => h.resolve_left fun hne => hne rfl, id⟩

/-- Taking in events in two goes is taking them all in. -/
theorem Took.trans {events events' : List Event} {s s' s'' : State} (h : Took events s s')
    (h' : Took events' s' s'') : Took (events ++ events') s s'' := by
  refine ⟨?_, ?_, fun hs => h'.pane_written (h.pane_written hs), fun hs => ?_,
    fun hs => h'.legible (h.legible hs)⟩
  · rw [h'.untimed_eq, h.untimed_eq, List.foldl_append]
  · rw [h'.history_eq, h.history_eq, List.append_assoc]
  · by_cases hlater : events' = []
    · rw [hlater, List.append_nil] at hs
      exact h'.status_current (.inr (h.status_current hs))
    · exact h'.status_current (.inl hlater)

/-- What is taken in does not depend on the clock that is lent to the viewer. -/
theorem Took.of_lent {events : List Event} {s s' : State} {clock : Clock}
    (h : Took events { s with clock } s') : Took events s s' :=
  ⟨h.untimed_eq, h.history_eq, h.pane_written, h.status_current, h.legible⟩

/-- Lending a viewer another clock changes nothing of what it took in. -/
theorem Took.lend {events : List Event} {s s' : State} (h : Took events s s') (clock : Clock) :
    Took events s { s' with clock } :=
  ⟨h.untimed_eq, h.history_eq, h.pane_written, h.status_current, h.legible⟩

/-- An event that can be shown is taken in while the clock lasts. -/
theorem took_process (he : e.Showable) (hs : s.Legible) {n : Nat}
    (hclock : s.clock.Lasts (n + 2)) :
    ∃ s', process e s = ⟨.ok (), s', []⟩ ∧ s'.clock.Lasts n ∧ Took [e] s s' := by
  obtain ⟨s₁, c, t, t', line, habsorb, -, hlasts, hlegible, hline, hrun⟩ :=
    process_run he hs hclock
  refine ⟨_, hrun, hlasts, ?_, List.map_append, ?_,
    fun _ => ⟨t', line, hline, List.getLast?_concat⟩, fun _ => hlegible⟩
  · have hhistory : (s.history ++ [(e, t)]).map (fun e => (e.1, (⟨0⟩ : Moment))) =
        s.history.map (fun e => (e.1, ⟨0⟩)) ++ [(e, ⟨0⟩)] := List.map_append
    have hlearn : learn s.untimed e = { s₁.within s.surroundings.untimed with
        history := s.history.map (fun e => (e.1, ⟨0⟩)) ++ [(e, ⟨0⟩)] } := by
      unfold learn untimed
      rw [blind_absorb, habsorb]
      rfl
    rw [List.foldl_cons, List.foldl_nil, hlearn, ← hhistory]
    rfl
  · intro hs
    change s.pane ++ eventLines s.detail (e, t) =
      (s.history ++ [(e, t)]).flatMap (eventLines s.detail)
    rw [hs, List.flatMap_append, List.flatMap_singleton]

/-- Events that can be shown are taken in while the clock lasts. -/
theorem took_processAll {events : List Event} (h : ∀ e ∈ events, e.Showable) (hs : s.Legible)
    (hclock : s.clock.Lasts (2 * events.length)) :
    ∃ s', processAll events s = ⟨.ok (), s', []⟩ ∧ Took events s s' := by
  induction events generalizing s with
  | nil => exact ⟨s, rfl, .refl s⟩
  | cons e rest ih =>
    obtain ⟨he, hrest⟩ := List.forall_mem_cons.mp h
    obtain ⟨s', hrun, hlasts, htook⟩ := took_process he hs hclock
    obtain ⟨s'', hrun', htook'⟩ := ih hrest (htook.legible hs) hlasts
    refine ⟨s'', ?_, htook.trans htook'⟩
    exact (Action.bind_of_ok hrun fun _ => processAll rest).trans (by rw [hrun']; rfl)

end Viewer.State

end FabricPaths
