import FabricPaths.Extract.Run
import FabricPaths.Viewer.State

/-!
# Watching a run

A run works beside the viewer and hands its events over through a queue: the
events that it tells, then, if it fails, an event that says so, and at last a
mark that nothing follows. The viewer takes events from the queue until it has
taken one that ends the run or meets the mark.
-/

namespace FabricPaths.Viewer

/-- What lies in the queue: events, and the mark that nothing follows. -/
abbrev Message := Option Event

/-- A run and a viewer with the queue between them. -/
structure Exchange where
  /-- What the run has still to put into the queue. -/
  pending : List Message
  /-- What lies in the queue, oldest first. -/
  queue : List Message := []
  /-- The events that the viewer took. -/
  taken : List Event := []
  /-- Whether the viewer is done. -/
  done : Bool := false
deriving Inhabited

namespace Exchange

/-- The run puts its next message into the queue. -/
def put (x : Exchange) : Exchange :=
  match x.pending with
  | [] => x
  | m :: rest => { x with pending := rest, queue := x.queue ++ [m] }

/-- The viewer looks into the queue and takes what it finds. -/
def poll (x : Exchange) : Exchange :=
  if x.done then x
  else
    match x.queue with
    | [] => x
    | none :: rest => { x with queue := rest, done := true }
    | some e :: rest =>
      { x with queue := rest, taken := x.taken ++ [e], done := e.kind = .runDone }

/-- Does something a number of times. -/
def repeated (move : Exchange → Exchange) : Nat → Exchange → Exchange
  | 0, x => x
  | n + 1, x => repeated move n (move x)

/-- All messages are put, then all are taken. -/
def settle (x : Exchange) : Exchange :=
  let x := repeated put x.pending.length x
  repeated poll x.queue.length x

end Exchange

/-- The messages of a run: its events, one more if it failed, and the mark. -/
def messages (told : List Event) (outcome : Except Failure RunReport) : List Message :=
  told.map some ++
    (match outcome with
      | .ok _ => []
      | .error e => [some (Event.runFailed e)]) ++
    [none]

/-- An observer who takes every event. -/
def listener : Observer := fun _ _ => none

/-- The settings under which a run is watched. -/
def watched (c : Extract.Config) : Extract.Config :=
  { c with observer := some listener, progress := false, viewer := true }

/-- What the viewer shows of. -/
inductive Source
  /-- A run that is to be watched. -/
  | live (c : Extract.Config)
  /-- Events from before. -/
  | replay (events : List Event)
  /-- Nothing. -/
  | idle
deriving Inhabited

namespace Source

/-- The directory that the viewer names. -/
def inputDir : Source → String
  | live c => c.inputDir
  | _ => ""

end Source

/-- What a viewer left behind when its source was exhausted. -/
structure Session where
  /-- The viewer. -/
  state : State
  /-- The events that it took in. -/
  events : List Event
  /-- What the run touched. -/
  world : World

variable [Memory]

/-- Runs the settings in a world that lends its clock; returns the events that
the viewer takes. -/
def watch (c : Extract.Config) (w : World) : List Event × World :=
  let before := w.told.length
  let r := Extract.run (watched c) w
  let x : Exchange := { pending := messages (r.state.told.drop before) r.outcome }
  (x.settle.taken, r.state)

/-- Starts a viewer in a world and shows the first status line. -/
def mount (w : World) : Except Failure State := do
  let s ← State.start w.clock
  let r := State.updateStatus s
  let _ ← r.outcome
  return r.state

/-- Starts a viewer in a world and lets it show its source to the end, unless the
viewer cannot take an event in. -/
def present (source : Source) (w : World) : Except Failure Session := do
  let s ← mount w
  let (events, w) := match source with
    | .live c => watch c { w with clock := s.clock }
    | .replay events => (events, { w with clock := s.clock })
    | .idle => ([], w)
  let r := State.processAll events { s with clock := w.clock }
  let _ ← r.outcome
  return { state := r.state, events, world := w }

end FabricPaths.Viewer
