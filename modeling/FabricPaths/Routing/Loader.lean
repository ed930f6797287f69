import FabricPaths.Action
import FabricPaths.Record.FileName
import FabricPaths.Report.File
import FabricPaths.Routing.Table

/-!
# Loading forwarding tables

A loader gathers the forwarding tables of a subnet from its route dumps. The
first entry for a destination counts. A dump with an entry before any header is
given up at once, since the switch of the entry is not known.
-/

namespace FabricPaths

/-- The forwarding tables gathered so far. -/
structure Loader where
  /-- The tables by switch. -/
  tables : RoutingTables := ∅
  /-- The reports on the dumps read. -/
  files : List FileReport := []
  /-- Entries that came too late. -/
  duplicates : Nat := 0
deriving Inhabited

namespace Loader

/-- What a line of a dump is. -/
inductive RouteLine
  | header (h : RouteHeader)
  | entry (r : RouteRecord)
  | other
deriving DecidableEq

/-- Reads a line of a dump. -/
def RouteLine.read (raw : String) : Except Failure RouteLine :=
  match Route.parseHeader raw with
  | some h => .ok (.header h)
  | none => do
    match ← Route.parseEntry raw with
    | some r => return .entry r
    | none => return .other

/-- The tables with a table for a switch, which is empty if it is new. -/
def withTable (tables : RoutingTables) (switch : NodeId) : RoutingTables :=
  if tables.contains switch then tables else tables.insert switch { switch }

/-- Adds an entry to the table of a switch, unless the table has one for the
destination; the entry that is there is returned. -/
def addEntry (loader : Loader) (switch : NodeId) (r : RouteRecord) :
    Loader × Option RouteEntry :=
  let table := loader.tables.getD switch { switch }
  match table.entries.get? r.destId with
  | some present => ({ loader with duplicates := loader.duplicates + 1 }, some present)
  | none =>
    let entry : RouteEntry := ⟨r.destId, r.port, r.destLid, r.kind⟩
    ({ loader with tables := loader.tables.insert switch (table.setEntry entry) }, none)

/-- The reader of route entries as reports name it. -/
def reader : String := LineFormat.routeEntry.readerName

/-- Reports that a dump is given up. -/
def giveUp (report : FileReport) (l : SourceLine) : Action Loader FileReport := do
  Action.say .error Log.routes
    s!"Malformed route file {l.source}: entry on line {l.lineno} before switch header"
  return (report.skip
    (l.report .orphan reader "Route entry before any 'Unicast lids' header")).abort

/-- Takes an entry in. -/
def takeEntry (report : FileReport) (switch : NodeId) (r : RouteRecord) :
    Action Loader FileReport := do
  let (loader, present) := (← Action.get).addEntry switch r
  Action.modify fun _ => loader
  if let some e := present then
    Action.say .debug Log.routes
      s!"[{switch.text}] duplicate route to {r.destId.text}, keeping port {e.port}"
  return report.countRecord

/-- Takes in lines one after another, for the switch of the latest header. -/
def ingestEach (report : FileReport) (current : Option NodeId) :
    List SourceLine → Action Loader FileReport
  | [] => pure report
  | l :: rest => do
    let report := report.countLine
    match ← Action.ofExcept (RouteLine.read l.raw) with
    | .header h =>
      Action.modify fun loader => { loader with tables := withTable loader.tables h.switchId }
      ingestEach report.countRecord (some h.switchId) rest
    | .entry r =>
      match current with
      | none => giveUp report l
      | some switch => do ingestEach (← takeEntry report switch r) current rest
    | .other =>
      ingestEach (report.skip (l.report .ignored reader "Not a header or route entry")) current rest

/-- Takes in the lines of a source and files the report on it. -/
def ingestLines (source : String) (lines : List String) : Action Loader FileReport := do
  let report ← ingestEach { path := source, kind := .routes } none
    (SourceLine.number source 1 lines)
  Action.modify fun loader => { loader with files := loader.files ++ [report] }
  return report

/-- The names of route dumps among the names in a directory, with their
indices. -/
def indexed : List String → Except Failure (List (Nat × String))
  | [] => .ok []
  | name :: rest => do
    let index ← FileName.routeIndex? name
    let later ← indexed rest
    return match index with
      | some i => (i, name) :: later
      | none => later

/-- Route dumps are read by index, and by name where the index is the same. -/
def precedes (a b : Nat × String) : Bool :=
  a.1 < b.1 || (a.1 == b.1 && !(b.2 < a.2))

/-- The route dumps in a directory in the order in which they are read. -/
def readingOrder (names : List String) : Except Failure (List String) := do
  return ((← indexed names).mergeSort precedes).map (·.2)

end Loader

end FabricPaths
