import FabricPaths.Action
import FabricPaths.Path.Trace

/-!
# All pairs of hosts

Walks from every host that has an edge to every other host, in the order of the
nodes. Walks are counted by the way they ended and then shown to an observer, if
there is one. What the observer leaves of a walk is kept as a path, if it is
complete. A failure of the observer is logged, and goes no further if it can be
put into words. A walker can be used for several surveys.
-/

namespace FabricPaths

/-- Numbers of walks by the way they ended, in the order in which these ways
were first met. -/
abbrev StatusCounts := OrderedMap PathStatus Int

namespace StatusCounts

/-- Counts one more walk. -/
def count (c : StatusCounts) (status : PathStatus) : StatusCounts :=
  c.insert status (c.getD status 0 + 1)

/-- No counts, whatever was counted. -/
def clear (_ : StatusCounts) : StatusCounts := ∅

/-- The number of complete walks. -/
def complete (c : StatusCounts) : Int := c.getD .complete 0

/-- The number of all walks. -/
def total (c : StatusCounts) : Int := c.values.foldr (· + ·) 0

/-- The number of walks that stopped short. -/
def missing (c : StatusCounts) : Int :=
  ((c.entries.filter fun e => decide (e.1 ≠ .complete)).map (·.2)).foldr (· + ·) 0

end StatusCounts

/-- What the walks between all hosts showed. -/
structure Survey where
  /-- The complete paths. -/
  paths : Paths := ∅
  /-- The walks by the way they ended. -/
  counts : StatusCounts := ∅
deriving Inhabited

namespace Survey

/-- Counts a walk. -/
def count (s : Survey) (status : PathStatus) : Survey := { s with counts := s.counts.count status }

/-- Keeps the links of a walk as a path from a host to another, if the walk is complete. -/
def keep (s : Survey) (source dest : NodeId) (a : Attempt) : Survey :=
  { s with
    paths := if a.isComplete then
        s.paths.modify source fun dests => dests.insert dest a.links
      else s.paths }

/-- Adds a host from which no path is known yet. -/
def startFrom (s : Survey) (source : NodeId) : Survey :=
  { s with paths := s.paths.insert source ∅ }

end Survey

/-- Who is shown walks. An observer acts on what is around it and on the walk itself, which it may
change. -/
abbrev WalkObserver (σ : Type) := Action (σ × Attempt) Unit

namespace WalkObserver

variable {σ : Type}

/-- An observer who is told of walks and leaves them alone. -/
def onlooker (tell : Attempt → Action σ Unit) : WalkObserver σ := fun (s, a) =>
  let r := tell a s
  ⟨r.outcome, (r.state, a), r.log⟩

/-- How the observer ends when it is shown a walk, and what it leaves of the walk. -/
def shown (observer : WalkObserver σ) (a : Attempt) : Action σ (Except Failure Unit × Attempt) :=
  fun s =>
    let r := observer (s, a)
    ⟨.ok (r.outcome, r.state.2), r.state.1, r.log⟩

end WalkObserver

namespace Fabric

variable {β σ : Type}

/-- The message about a walk that stopped short. -/
def shortfall (a : Attempt) : String :=
  s!"{a.source.text} → {a.dest.text}: {a.status.name} ({a.detail})"

/-- Shows a walk to an observer; a failure of the observer is logged. What the observer left of
the walk is returned. -/
def showTo (observer : WalkObserver σ) (a : Attempt) : Action σ Attempt := do
  let (outcome, a) ← observer.shown a
  if let .error e := outcome then
    Action.say .debug Log.walker s!"Path callback error: {← Action.ofExcept e.words}"
  return a

/-- Reports a walk and shows it to the observer, if there is one. -/
def present (observe : Option (WalkObserver σ)) (a : Attempt) : Action σ Attempt := do
  if !a.isComplete then Action.say .debug Log.walker (shortfall a)
  match observe with
  | none => return a
  | some observer => showTo observer a

/-- Walks from one host to others. -/
def walkFrom (f : Fabric β) (observe : Option (WalkObserver σ)) (src : Node β) (s : Survey) :
    List (Node β) → Action σ Survey
  | [] => pure s
  | dst :: rest =>
    if dst.id = src.id then f.walkFrom observe src s rest
    else do
      let a ← Action.ofExcept (f.trace src dst)
      let left ← present observe a
      f.walkFrom observe src ((s.count a.status).keep src.id dst.id left) rest

/-- Walks from several hosts to all other hosts. -/
def walkEach (f : Fabric β) (observe : Option (WalkObserver σ)) (s : Survey) :
    List (Node β) → Action σ Survey
  | [] => pure s
  | src :: rest =>
    if src.edges.entries.isEmpty then f.walkEach observe s rest
    else do
      f.walkEach observe (← f.walkFrom observe src (s.startFrom src.id) f.hosts) rest

/-- Walks between all hosts by a walker that was used before: it clears the counts that it still
has. -/
def walkAll (f : Fabric β) (observe : Option (WalkObserver σ)) (kept : StatusCounts) :
    Action σ Survey := do
  let s ← f.walkEach observe { counts := kept.clear } f.hosts
  let complete := s.counts.complete
  Action.say .info Log.walker
    s!"{complete} paths reconstructed, {s.counts.total - complete} without a route"
  return s

/-- Walks between all hosts, of which an observer is told who leaves them alone. -/
def survey (f : Fabric β) (observe : Option (Attempt → Action σ Unit)) : Action σ Survey :=
  f.walkAll (observe.map .onlooker) ∅

end Fabric

end FabricPaths
