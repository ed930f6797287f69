import FabricPaths.Viewer.Live
import Mathlib.Order.WellFounded

/-!
# The queue between a run and a viewer

The run puts its messages into the queue while the viewer takes from it, in any order of their
turns. At every moment what was taken, what lies in the queue and what is still to be put are the
messages in their order. The viewer is done once it has taken the first event that ends the run,
or has met the mark that nothing follows, and no earlier.
-/

namespace FabricPaths.Viewer

variable {events : List Event} {x : Exchange}

/-! ## Up to the end -/

/-- The events up to the first that ends a run, or all of them if none does. -/
def upToEnd : List Event → List Event
  | [] => []
  | e :: rest => if e.kind = .runDone then [e] else e :: upToEnd rest

/-- What comes behind an event that ends a run is left out. -/
theorem upToEnd_cons_of_done {e : Event} (h : e.kind = .runDone) (rest : List Event) :
    upToEnd (e :: rest) = [e] := by
  rw [upToEnd, if_pos h]

/-- Events that do not end a run stay. -/
theorem upToEnd_append {before : List Event} (h : ∀ e ∈ before, e.kind ≠ .runDone)
    (rest : List Event) : upToEnd (before ++ rest) = before ++ upToEnd rest := by
  induction before with
  | nil => rfl
  | cons e before ih =>
    have he : e.kind ≠ .runDone := h e List.mem_cons_self
    have hrest := ih fun e' he' => h e' (List.mem_cons_of_mem _ he')
    rw [List.cons_append, upToEnd, if_neg he, hrest, List.cons_append]

/-- The events up to the first that ends a run are the first events. -/
theorem upToEnd_initial (events : List Event) : upToEnd events <+: events := by
  induction events with
  | nil => exact List.prefix_rfl
  | cons e rest ih =>
    unfold upToEnd
    split
    · exact ⟨rest, rfl⟩
    · exact (List.prefix_cons_inj e).mpr ih

/-- All events stay exactly if none but the last ends a run. -/
theorem upToEnd_eq_self_iff (events : List Event) :
    upToEnd events = events ↔ ∀ e ∈ events.dropLast, e.kind ≠ .runDone := by
  induction events with
  | nil => exact ⟨fun _ => List.forall_mem_nil _, fun _ => rfl⟩
  | cons e rest ih =>
    cases rest with
    | nil =>
      refine ⟨fun _ => List.forall_mem_nil _, fun _ => ?_⟩
      unfold upToEnd
      split
      · rfl
      · rfl
    | cons e' rest =>
      rw [List.dropLast_cons_cons, List.forall_mem_cons, ← ih, upToEnd]
      by_cases he : e.kind = .runDone
      · rw [if_pos he]
        exact ⟨nofun, fun h => absurd he h.1⟩
      · rw [if_neg he, List.cons_inj_right]
        exact ⟨fun h => ⟨he, h⟩, fun h => h.2⟩

/-! ## Turns -/

/-- A turn of the run or of the viewer. -/
inductive Turn
  /-- The run puts its next message into the queue. -/
  | put
  /-- The viewer looks into the queue, by this clock. -/
  | poll (clock : Clock)

/-- The run and the viewer get their turns again and again. -/
structure Fair (turns : Nat → Turn) : Prop where
  /-- The run does. -/
  puts : ∀ n, ∃ m ≥ n, turns m = .put
  /-- The viewer does. -/
  polls : ∀ n, ∃ m ≥ n, ∃ clock, turns m = .poll clock

namespace Exchange

/-- A turn is taken. -/
def turn (x : Exchange) : Turn → Exchange
  | .put => x.put
  | .poll _ => x.poll

/-- The first turns are taken. -/
def after (turns : Nat → Turn) (x : Exchange) : Nat → Exchange
  | 0 => x
  | n + 1 => (x.after turns n).turn (turns n)

/-- Where the exchange of these events stands. -/
inductive Stands (events : List Event) (x : Exchange) : Prop
  /-- The viewer has taken the first events, and the others follow with the mark behind them. -/
  | underway (rest : List Event) (running : x.done = false) (split : events = x.taken ++ rest)
    (queued : x.queue ++ x.pending = rest.map some ++ [none])
    (open_ended : ∀ e ∈ x.taken, e.kind ≠ .runDone)
  /-- The viewer is done with the events up to the end of the run. -/
  | ended (done : x.done = true) (taken : x.taken = upToEnd events)

namespace Stands

/-- At first nothing is taken. -/
theorem start (events : List Event) :
    Stands events { pending := events.map some ++ [none] } :=
  .underway events rfl rfl rfl (List.forall_mem_nil _)

/-- Putting a message into the queue leaves the messages in order. -/
theorem put (h : Stands events x) : Stands events x.put := by
  unfold Exchange.put
  split
  · exact h
  next m rest hpending =>
    cases h with
    | underway left running split queued open_ended =>
      refine .underway left running split ?_ open_ended
      rw [List.append_assoc, List.singleton_append, ← hpending]
      exact queued
    | ended done taken => exact .ended done taken

/-- Looking into the queue leaves the messages in order, and the viewer is done with an event that
ends the run and at the mark. -/
theorem poll (h : Stands events x) : Stands events x.poll := by
  unfold Exchange.poll
  cases h with
  | ended done taken =>
    rw [if_pos done]
    exact .ended done taken
  | underway left running split queued open_ended =>
    rw [if_neg (by rw [running]; exact Bool.false_ne_true)]
    cases hqueue : x.queue with
    | nil => exact .underway left running split (by rw [← queued, hqueue]) open_ended
    | cons m queue =>
      rw [hqueue, List.cons_append] at queued
      cases left with
      | nil =>
        have hm : m = none := (List.cons.inj queued).1
        rw [List.append_nil] at split
        subst hm split
        exact .ended rfl ((upToEnd_eq_self_iff _).mpr fun e he =>
          open_ended e (List.dropLast_subset _ he)).symm
      | cons e left =>
        obtain ⟨hm, hqueued⟩ := List.cons.inj queued
        subst hm
        by_cases he : e.kind = .runDone
        · refine .ended (decide_eq_true he) ?_
          rw [split, upToEnd_append open_ended, upToEnd_cons_of_done he]
        · refine .underway left (decide_eq_false he) ?_ hqueued ?_
          · rw [split, List.append_assoc, List.singleton_append]
          · exact List.forall_mem_append.mpr ⟨open_ended, List.forall_mem_singleton.mpr he⟩

/-- A turn leaves the messages in order. -/
theorem turn (h : Stands events x) (t : Turn) : Stands events (x.turn t) := by
  cases t with
  | put => exact h.put
  | poll clock => exact h.poll

/-- Turns leave the messages in order. -/
theorem after (h : Stands events x) (turns : Nat → Turn) (n : Nat) :
    Stands events (x.after turns n) := by
  induction n with
  | zero => exact h
  | succ n ih => exact ih.turn (turns n)

/-- At every moment the viewer has taken the first events up to the end. -/
theorem taken_initial (h : Stands events x) : x.taken <+: upToEnd events := by
  cases h with
  | underway rest running split queued open_ended =>
    rw [split, upToEnd_append open_ended]
    exact List.prefix_append _ _
  | ended done taken => exact taken ▸ List.prefix_rfl

/-- A viewer that is done has taken all events up to the end. -/
theorem taken_of_done (h : Stands events x) (done : x.done = true) : x.taken = upToEnd events := by
  cases h with
  | underway rest running => cases done.symm.trans running
  | ended done taken => exact taken

/-- While the viewer is not done, something is left to be put or taken. -/
theorem left_of_running (h : Stands events x) (running : x.done = false) :
    x.queue ++ x.pending ≠ [] := by
  cases h with
  | underway rest running split queued =>
    rw [queued]
    exact List.append_ne_nil_of_right_ne_nil _ (List.cons_ne_nil _ _)
  | ended done => cases done.symm.trans running

end Stands

/-! ## The exchange comes to its end -/

/-- How many turns are still of use: a message is to be put and to be taken. -/
def remaining (x : Exchange) : Nat := 2 * x.pending.length + x.queue.length

/-- A message that is put is one less to be put. -/
theorem put_wears (h : x.pending ≠ []) : x.put.remaining < x.remaining := by
  obtain ⟨m, rest, hpending⟩ := List.exists_cons_of_ne_nil h
  unfold put remaining
  rw [hpending]
  simp only [List.length_cons, List.length_append, List.length_nil]
  omega

/-- Something that is taken is one less to be taken. -/
theorem poll_wears (running : x.done = false) (h : x.queue ≠ []) :
    x.poll.remaining < x.remaining := by
  obtain ⟨m, rest, hqueue⟩ := List.exists_cons_of_ne_nil h
  unfold poll remaining
  rw [running, hqueue]
  cases m with
  | none => simp
  | some e => simp

/-- A turn that is of no use changes nothing. -/
theorem turn_cases (x : Exchange) (t : Turn) :
    x.turn t = x ∨ (x.turn t).remaining < x.remaining := by
  cases t with
  | put =>
    by_cases hpending : x.pending = []
    · left
      unfold turn put
      rw [hpending]
    · exact .inr (put_wears hpending)
  | poll clock =>
    rcases hdone : x.done with _ | _
    · by_cases hqueue : x.queue = []
      · left
        unfold turn poll
        rw [hdone, hqueue]
        rfl
      · exact .inr (poll_wears hdone hqueue)
    · left
      unfold turn poll
      rw [hdone]
      rfl

/-- Once no turn is of use any more, the exchange rests. -/
theorem after_rests {turns : Nat → Turn} {n : Nat}
    (h : ∀ m, (x.after turns n).remaining ≤ (x.after turns m).remaining) {m : Nat} (hm : n ≤ m) :
    x.after turns m = x.after turns n := by
  induction m, hm using Nat.le_induction with
  | base => rfl
  | succ m hm ih =>
    have hleast := h (m + 1)
    rw [← ih] at hleast
    rcases turn_cases (x.after turns m) (turns m) with hsame | hless
    · exact Eq.trans hsame ih
    · exact absurd hless (Nat.not_lt.mpr hleast)

/-- If the run and the viewer get their turns again and again, the viewer is done at last: from some
moment on the exchange rests, so that a turn of the run and one of the viewer behind it change
nothing. -/
theorem Stands.exists_done (h : Stands events x) {turns : Nat → Turn} (fair : Fair turns) :
    ∃ n, (x.after turns n).done = true := by
  let n := Function.argmin fun n => (x.after turns n).remaining
  have hrests : ∀ m ≥ n, x.after turns m = x.after turns n := fun m hm =>
    after_rests (fun k => Function.argmin_le (fun n => (x.after turns n).remaining) k) hm
  refine ⟨n, Bool.of_not_eq_false fun running => ?_⟩
  have hpending : (x.after turns n).pending = [] := by
    obtain ⟨m, hm, hput⟩ := fair.puts n
    by_contra hne
    have hwears := put_wears hne
    have hsame : (x.after turns n).put = x.after turns n := by
      have hnext : x.after turns (m + 1) = (x.after turns m).turn (turns m) := rfl
      rw [hput, hrests m hm, hrests (m + 1) (Nat.le_succ_of_le hm)] at hnext
      exact hnext.symm
    rw [hsame] at hwears
    exact Nat.lt_irrefl _ hwears
  have hqueue : (x.after turns n).queue = [] := by
    obtain ⟨m, hm, clock, hpoll⟩ := fair.polls n
    by_contra hne
    have hwears := poll_wears running hne
    have hsame : (x.after turns n).poll = x.after turns n := by
      have hnext : x.after turns (m + 1) = (x.after turns m).turn (turns m) := rfl
      rw [hpoll, hrests m hm, hrests (m + 1) (Nat.le_succ_of_le hm)] at hnext
      exact hnext.symm
    rw [hsame] at hwears
    exact Nat.lt_irrefl _ hwears
  have hleft := (h.after turns n).left_of_running running
  rw [hpending, hqueue] at hleft
  exact hleft rfl

/-! ## All at once -/

/-- All messages can be put at once. -/
theorem repeated_put (x : Exchange) : repeated put x.pending.length x =
    { x with pending := [], queue := x.queue ++ x.pending } := by
  obtain ⟨pending, queue, taken, done⟩ := x
  induction pending generalizing queue with
  | nil =>
    change (⟨[], queue, taken, done⟩ : Exchange) = ⟨[], queue ++ [], taken, done⟩
    rw [List.append_nil]
  | cons m rest ih =>
    change repeated put rest.length ⟨rest, queue ++ [m], taken, done⟩ = _
    rw [ih (queue ++ [m])]
    dsimp only
    rw [List.append_assoc, List.singleton_append]

/-- Putting a message takes nothing. -/
theorem put_taken (x : Exchange) : x.put.taken = x.taken := by
  unfold put
  split
  · rfl
  · rfl

/-- A look into the queue takes one event at most. -/
theorem poll_taken (x : Exchange) :
    x.poll.taken = x.taken ∨ ∃ e, x.poll.taken = x.taken ++ [e] := by
  unfold poll
  split
  · exact .inl rfl
  · split
    · exact .inl rfl
    · exact .inl rfl
    · exact .inr ⟨_, rfl⟩

/-- Looking into the queue leaves what is to be put. -/
theorem poll_pending (x : Exchange) : x.poll.pending = x.pending := by
  unfold poll
  split
  · rfl
  · split <;> rfl

/-- Once all is put, the viewer is done after as many looks as there are messages. -/
theorem Stands.of_repeated_poll {n : Nat} (h : Stands events x) (put : x.pending = [])
    (hn : x.done = true ∨ x.queue.length ≤ n) :
    Stands events (repeated Exchange.poll n x) ∧ (repeated Exchange.poll n x).done = true := by
  induction n generalizing x with
  | zero =>
    refine ⟨h, Bool.of_not_eq_false fun running => ?_⟩
    rcases hn with hdone | hqueue
    · cases hdone.symm.trans running
    have hleft := h.left_of_running running
    rw [put, List.eq_nil_of_length_eq_zero (Nat.le_zero.mp hqueue)] at hleft
    exact hleft rfl
  | succ n ih =>
    refine ih h.poll (x.poll_pending.trans put) ?_
    rcases hdone : x.done with _ | _
    · have hleft := h.left_of_running hdone
      rw [put, List.append_nil] at hleft
      have hwears := poll_wears hdone hleft
      have hqueue : x.queue.length ≤ n + 1 := hn.resolve_left (by rw [hdone]; exact nofun)
      unfold remaining at hwears
      rw [x.poll_pending] at hwears
      exact .inr (by omega)
    · left
      unfold Exchange.poll
      rw [hdone]
      exact hdone

/-- A viewer that looks into the queue when all is put takes the events up to the end. -/
theorem settle_taken (events : List Event) :
    (settle { pending := events.map some ++ [none] }).taken = upToEnd events := by
  have hput := repeated_put { pending := events.map some ++ [none] }
  have hstands : Stands events { pending := [], queue := [] ++ (events.map some ++ [none]) } :=
    .underway events rfl rfl (List.append_nil _) (List.forall_mem_nil _)
  obtain ⟨hpolled, hdone⟩ := hstands.of_repeated_poll rfl (.inr (Nat.le_refl _))
  unfold settle
  dsimp only at hput ⊢
  rw [hput]
  exact hpolled.taken_of_done hdone

end Exchange

end FabricPaths.Viewer
