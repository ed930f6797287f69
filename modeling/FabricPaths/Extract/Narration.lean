import FabricPaths.Event
import FabricPaths.Number.Layout
import FabricPaths.Report.Run

/-!
# Events of a run

The events that a run tells its observer, with their log lines.
-/

namespace FabricPaths

variable {β : Type}

/-- A list of numbers in brackets. -/
def bracketed (ns : List Nat) : String := "[" ++ ", ".intercalate (ns.map toString) ++ "]"

/-- The ports that a walk left through, with the nodes they belong to. -/
def Fabric.hops (f : Fabric β) : List LinkId → Except Failure (List String)
  | [] => .ok []
  | id :: rest => do
    let l ← f.link id
    let parent ← f.node l.parent
    return s!"{parent.display}:{l.srcPort}" :: (← f.hops rest)

namespace Event

/-- A subnet is begun. -/
def subnetStarts (subnet file : String) : Event :=
  let heading := s!"[#00d4ff]Reading subnet {subnet}[/]"
  { kind := .subnetStart, subnet
    logBasic := [heading]
    logVerbose := [heading, s!"  discovery: {file}"] }

/-- The line about a walk. -/
def walkLine (source dest : String) (hops : List String) (a : Attempt) : String :=
  if a.isComplete then s!"  [#00ff88]{source} → {dest}[/]  {hops.length} hops"
  else s!"  [#ff4444]{source} → {dest}: {a.status.name}[/]  {a.detail}"

/-- A walk between two hosts is over. -/
def walked (f : Fabric β) (a : Attempt) : Except Failure Event := do
  let src ← f.node a.source
  let dst ← f.node a.dest
  let hops ← f.hops a.links
  let basic := walkLine src.hostname dst.hostname hops a
  let verbose := if hops.isEmpty then [basic] else [basic, "    " ++ " → ".intercalate hops]
  return {
    kind := .path
    subnet := f.subnet
    source := src.hostname
    dest := dst.hostname
    status := some a.status
    hops
    detail := a.detail
    logBasic := [basic]
    logVerbose := verbose
    logDebug := verbose ++
      [s!"    [#444444]{src.id.text} → {dst.id.text} via links {bracketed a.links}[/]"] }

/-- A partition was found. -/
def partitionFound (subnet name : String) (index : Nat) (members : List String) : Event :=
  let heading := "  partition [bold]'" ++ name ++ s!"'[/]: {members.length} hosts"
  { kind := .partition, subnet, partition := name, partitionIndex := .counted index, members
    logBasic := [heading]
    logVerbose := [heading, "    " ++ ", ".intercalate members] }

/-- A subnet is done with. -/
def subnetDone (s : SubnetReport) : Event :=
  let heading := s!"[#00ff88]Subnet {s.subnet} done[/]  {s.counts.complete} paths, " ++
    s!"{s.counts.missing} without route"
  { kind := .subnetDone, subnet := s.subnet
    nodes := .counted s.nodes, links := .counted s.links
    pathsComplete := .counted s.counts.complete, pathsMissing := .counted s.counts.missing
    logBasic := [heading]
    logVerbose := [heading, s!"  {s.hosts} hosts, {s.switches} switches, {s.links} links, " ++
      s!"{s.tables} tables"] }

/-- The run is done. -/
def runDone (r : RunReport) : Event :=
  let duration := r.duration.getD 0
  { kind := .runDone, subnets := .counted r.subnets.length
    pathsComplete := .counted r.pathsComplete, pathsMissing := .counted r.pathsMissing, duration
    logBasic := ["", "[#00ff88]━━━ Extraction complete ━━━[/]",
      s!"  {r.subnets.length} subnets │ {Number.fixedPlaces 1 duration}s"] }

/-- The run failed. -/
def runFailed (e : Failure) : Event :=
  { kind := .runDone, ok := false
    logBasic := [s!"[#ff4444]Extractor error: {e.message}[/]"] }

end Event

end FabricPaths
