import FabricPaths.Calendar.Moment
import FabricPaths.Json.Basic
import FabricPaths.Path.AllPairs
import FabricPaths.Report.File

/-!
# Subnet reports

What came of one subnet: its files, the figures of its fabric, how the walks
between its hosts ended, and its partitions.
-/

namespace FabricPaths

/-- The report on one subnet. -/
structure SubnetReport where
  /-- The subnet's identifier. -/
  subnet : String
  /-- When work on the subnet began. -/
  started : Option Moment := none
  /-- When work on the subnet ended. -/
  completed : Option Moment := none
  /-- The reports on its files. -/
  files : List FileReport := []
  /-- Whether there was a directory with route dumps. -/
  routeDirFound : Bool := false
  /-- The number of nodes. -/
  nodes : Int := 0
  /-- The number of hosts. -/
  hosts : Int := 0
  /-- The number of switches. -/
  switches : Int := 0
  /-- The number of links. -/
  links : Int := 0
  /-- The number of links without a way back. -/
  unresolved : Int := 0
  /-- The number of forwarding tables. -/
  tables : Int := 0
  /-- The walks by the way they ended. -/
  counts : StatusCounts := ∅
  /-- The names of the partitions. -/
  partitions : List String := []
  /-- The file that the fabric was written to. -/
  outputFile : Option String := none
deriving Inhabited

namespace LineReport

/-- The report as a document. -/
def toJson (l : LineReport) : Json :=
  .obj [
    ("source", .str l.source),
    ("lineno", .int l.lineno),
    ("raw", .str l.raw),
    ("parse_result", .str l.verdict.name),
    ("parser_used", .str l.reader),
    ("detail", .str l.detail)]

end LineReport

namespace FileReport

/-- The report as a document, with or without the skipped lines. -/
def toJson (withLines : Bool) (f : FileReport) : Json :=
  .obj ([
    ("path", .str f.path),
    ("kind", .str f.kind.name),
    ("lines_read", .int f.linesRead),
    ("records", .int f.records),
    ("malformed", .nat f.malformed.length),
    ("aborted", .bool f.aborted)] ++
    (if withLines then [("skipped", .arr (f.skipped.map LineReport.toJson))] else []))

end FileReport

namespace SubnetReport

/-- The number of lines that should have been records. -/
def malformedLines (s : SubnetReport) : Nat :=
  (s.files.map fun f => f.malformed.length).foldr (· + ·) 0

/-- The figures as a document. -/
def summaryJson (s : SubnetReport) : Json :=
  .obj [
    ("nodes", .int s.nodes),
    ("hosts", .int s.hosts),
    ("switches", .int s.switches),
    ("links", .int s.links),
    ("unresolved_other_links", .int s.unresolved),
    ("route_dir_found", .bool s.routeDirFound),
    ("routing_tables", .int s.tables),
    ("paths", .obj (s.counts.entries.map fun (status, n) => (status.name, .int n))),
    ("malformed_lines", .nat s.malformedLines)]

/-- The report as a document, with or without the skipped lines. -/
def toJson (withLines : Bool) (s : SubnetReport) : Json :=
  .obj [
    ("subnet", .str s.subnet),
    ("started_at", .strOrNull (s.started.map Moment.text)),
    ("completed_at", .strOrNull (s.completed.map Moment.text)),
    ("summary", s.summaryJson),
    ("partitions", .strs s.partitions),
    ("output_file", .strOrNull s.outputFile),
    ("files", .arr (s.files.map (FileReport.toJson withLines)))]

/-- The report on one line. -/
def summary (s : SubnetReport) : String :=
  s!"subnet {s.subnet} | {s.hosts} hosts {s.switches} switches {s.links} links | " ++
    s!"paths {s.counts.complete} ✓ {s.counts.missing} ✗ | {s.partitions.length} partitions"

/-- The line about a skipped line. -/
def lineDetail (l : LineReport) : String :=
  s!"      line {l.lineno}: {l.verdict.name} — {l.detail}"

/-- The mark for a file. -/
def fileIcon (f : FileReport) : String :=
  if f.aborted then "✗" else if f.malformed.isEmpty then "✓" else "⚠"

/-- The lines about a file. -/
def fileDetail (f : FileReport) : List String :=
  (s!"  [{fileIcon f}] {f.kind.name}: {f.path} ({f.records} records, " ++
    s!"{f.malformed.length} malformed)") :: f.malformed.map lineDetail

/-- A text with blanks behind it up to a width. -/
def widened (width : Nat) (s : String) : String :=
  s ++ String.ofList (List.replicate (width - s.length) ' ')

/-- The lines about the ways in which walks ended; ways that did not occur are
left out. -/
def statusDetail (s : SubnetReport) : List String :=
  PathStatus.all.filterMap fun status =>
    let n := s.counts.getD status 0
    if n = 0 then none else some s!"    {widened 10 status.name} {n}"

/-- The report on several lines. -/
def detail (s : SubnetReport) : String :=
  "\n".intercalate <|
    [s!"═══ Subnet {s.subnet} ═══"] ++
    s.files.flatMap fileDetail ++
    (if s.routeDirFound then [] else ["  ⚠ no route directory — every path unknown"]) ++
    ["  ─── Paths ───"] ++
    s.statusDetail ++
    [s!"  ─── Partitions ({s.partitions.length}) ───"] ++
    s.partitions.map (fun name => "    '" ++ name ++ "'") ++
    (if s.unresolved = 0 then [] else [s!"    ⚠ {s.unresolved} links without a reverse link"])

end SubnetReport

end FabricPaths
