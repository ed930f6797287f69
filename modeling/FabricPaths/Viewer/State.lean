import FabricPaths.Action
import FabricPaths.Calendar.Moment
import FabricPaths.Hostname
import FabricPaths.OrderedMap
import FabricPaths.Viewer.Detail
import FabricPaths.Viewer.Tree

/-!
# The viewer

The viewer shows what a run tells: a tree of subnets, partitions, hosts and
walks, a log pane at one of three levels of detail, and a status line. It keeps
all events, so that the log can be written anew at another level; each line has
the time at which the viewer was told of its event.
-/

namespace FabricPaths.Viewer

/-- What the viewer knows and shows. -/
structure State where
  /-- The clock. -/
  clock : Clock
  /-- When the viewer was started. -/
  started : Moment
  /-- The tree. -/
  tree : Tree := {}
  /-- The items of subnets. -/
  subnetItems : OrderedMap String ItemId := ∅
  /-- The items of partitions, by subnet and name. -/
  partitionItems : OrderedMap (String × String) ItemId := ∅
  /-- The items of hosts, by subnet and host name. -/
  hostItems : OrderedMap (String × String) ItemId := ∅
  /-- All events with the times at which the viewer was told of them. -/
  history : List (Event × Moment) := []
  /-- The latest subnet. -/
  current : String := ""
  /-- The number of walks. -/
  seen : Nat := 0
  /-- The number of complete walks. -/
  complete : Nat := 0
  /-- The event that ended the run. -/
  result : Option Event := none
  /-- How much the log pane shows. -/
  detail : Detail := .basic
  /-- All that happened to the log pane. -/
  pane : List PaneChange := []
  /-- All status lines. -/
  status : List String := []
  /-- Whether the viewer was left. -/
  hasQuit : Bool := false
deriving Inhabited

namespace State

/-- A viewer that is just started. -/
def start (clock : Clock) : Except Failure State :=
  let (started, clock) := clock.read
  started.map fun started => { clock, started }

/-- Reads the clock. -/
def now : Action State Moment := fun s =>
  let (t, clock) := s.clock.read
  ⟨t, { s with clock }, []⟩

/-- The line of the log pane for a line of an event. -/
def paneLine (t : Moment) (line : String) : PaneChange := .line s!"[#555555]{t.clockText}[/] {line}"

/-- The lines of the log pane for an event at a level. -/
def eventLines (d : Detail) (e : Event × Moment) : List PaneChange :=
  (d.lines e.1).map (paneLine e.2)

/-- Writes the lines of an event into the log pane. -/
def writeLines (e : Event × Moment) (s : State) : State :=
  { s with pane := s.pane ++ eventLines s.detail e }

/-- Writes the log pane anew. -/
def redrawLog (s : State) : State :=
  { s with pane := s.pane ++ PaneChange.cleared :: s.history.flatMap (eventLines s.detail) }

/-- The hints at the levels of detail. -/
def detailHints (s : State) : String := "  ".intercalate (Detail.all.map (Detail.hint s.detail))

/-- The status line about a run that has ended. -/
def endLine (r : Event) (s : State) : Except Failure String := do
  let health := if r.ok then "[#00ff88]✓ DONE[/]" else "[#ff4444]✗ FAILED[/]"
  let subnets ← r.subnets.text
  let paths ← r.pathsComplete.text
  let missing ← r.pathsMissing.text
  return s!"  {health} │ {subnets} subnets │ {paths} paths │ {missing} no route │ " ++
    s!"{Number.fixedPlaces 1 r.duration}s │ {s.detailHints} │ q:quit"

/-- The status line at a time. -/
def statusLine (t : Moment) (s : State) : Except Failure String :=
  match s.result with
  | some r => s.endLine r
  | none =>
    let subnet := if s.current.isEmpty then "-" else s.current
    let elapsed := Number.fixedPlaces 0 (Moment.seconds (Moment.elapsed s.started t))
    .ok (s!"  [#00d4ff]⟳[/] {subnet} │ {s.complete}/{s.seen} paths │ {elapsed}s │ " ++
      s!"{s.detailHints} │ q:quit")

/-- Shows a new status line. -/
def updateStatus : Action State Unit := do
  let t ← now
  let line ← Action.ofExcept ((← Action.get).statusLine t)
  Action.modify fun s => { s with status := s.status ++ [line] }

/-- Adds an item for a subnet, also if there is one already. -/
def addSubnet (e : Event) (s : State) : State :=
  { s with
    current := e.subnet
    tree := s.tree.add ⟨none, .subnetBegun e.subnet, some true⟩
    subnetItems := s.subnetItems.insert e.subnet s.tree.next }

/-- The item of a partition, added under the item of its subnet if it is new. -/
def partitionItem (subnet name : String) (s : State) : State × ItemId :=
  match s.partitionItems.get? (subnet, name) with
  | some i => (s, i)
  | none =>
    ({ s with
        tree := s.tree.add ⟨s.subnetItems.get? subnet, .partitionNamed name, some false⟩
        partitionItems := s.partitionItems.insert (subnet, name) s.tree.next }, s.tree.next)

/-- The item of a host, added under the item of its partition if it is new. -/
def hostItem (subnet host : String) (s : State) : State × ItemId :=
  match s.hostItems.get? (subnet, host) with
  | some i => (s, i)
  | none =>
    let (s, parent) := s.partitionItem subnet (Hostname.stem host)
    ({ s with
        tree := s.tree.add ⟨some parent, .host host, some false⟩
        hostItems := s.hostItems.insert (subnet, host) s.tree.next }, s.tree.next)

/-- Adds an item for a walk and counts it. -/
def addWalk (e : Event) (status : PathStatus) (s : State) : State :=
  let (s, parent) := s.hostItem e.subnet e.source
  { s with
    tree := s.tree.add ⟨some parent, .walk e status, none⟩
    seen := s.seen + 1
    complete := s.complete + (if status = .complete then 1 else 0) }

/-- Gives an item another label, if that can be written. -/
def setLabel (i : ItemId) (label : Except Failure Label) : Action State Unit := do
  let label ← Action.ofExcept label
  Action.modify fun s => { s with tree := s.tree.setLabel i label }

/-- Shows the number and the members of a partition. -/
def labelPartition (e : Event) : Action State Unit := do
  let (s, i) := (← Action.get).partitionItem e.subnet e.partition
  Action.modify fun _ => s
  setLabel i (Label.partitionFound e)

/-- Shows the figures of a subnet, if it has an item. -/
def labelSubnet (e : Event) : Action State Unit := do
  match (← Action.get).subnetItems.get? e.subnet with
  | some i => setLabel i (Label.subnetDone e)
  | none => return

/-- Changes in the tree and the counts what an event changes. -/
def absorb (e : Event) : Action State Unit :=
  match e.kind with
  | .subnetStart => Action.modify (addSubnet e)
  | .path =>
    match e.status with
    | some status => Action.modify (addWalk e status)
    | none => Action.fail .statusMissing
  | .partition => labelPartition e
  | .subnetDone => labelSubnet e
  | .runDone => Action.modify fun s => { s with result := some e }
  | .other _ => pure ()

/-- Takes an event in. -/
def process (e : Event) : Action State Unit := do
  let t ← now
  Action.modify fun s => { s with history := s.history ++ [(e, t)] }
  absorb e
  Action.modify (writeLines (e, t))
  updateStatus

/-- Does what a key asks for. -/
def press (k : Key) : Action State Unit :=
  match k with
  | .detail d => do
    Action.modify fun s => { s with detail := d }.redrawLog
    updateStatus
  | .quit => Action.modify fun s => { s with hasQuit := true }

/-- Takes events in one after another. -/
def processAll (events : List Event) : Action State Unit :=
  Action.forEach events process

end State

end FabricPaths.Viewer
