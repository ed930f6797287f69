import FabricPaths.Report.Line

/-!
# File reports

What was read from one input file: how many lines, how many records, and every
line that was passed over.
-/

namespace FabricPaths

/-- The kinds of input files. -/
inductive FileKind
  | discovery
  | routes
deriving DecidableEq, Inhabited

namespace FileKind

/-- The kind as reports name it. -/
def name : FileKind → String
  | discovery => "discovery"
  | routes => "routes"

/-- The kind of a name. -/
def ofName? (s : String) : Option FileKind :=
  [discovery, routes].find? fun k => k.name == s

end FileKind

/-- The report on one input file. -/
structure FileReport where
  /-- Where the file lies. -/
  path : String
  /-- What the file holds. -/
  kind : FileKind
  /-- Lines that were looked at. -/
  linesRead : Int := 0
  /-- Lines that became records. -/
  records : Int := 0
  /-- The other lines, in order. -/
  skipped : List LineReport := []
  /-- Whether the rest of the file was given up. -/
  aborted : Bool := false
deriving DecidableEq, Inhabited

namespace FileReport

/-- Skipped lines that should have been records. -/
def malformed (f : FileReport) : List LineReport :=
  f.skipped.filter fun l => l.verdict.isMalformed

/-- Counts one more line. -/
def countLine (f : FileReport) : FileReport := { f with linesRead := f.linesRead + 1 }

/-- Counts one more record. -/
def countRecord (f : FileReport) : FileReport := { f with records := f.records + 1 }

/-- Adds a skipped line. -/
def skip (f : FileReport) (l : LineReport) : FileReport := { f with skipped := f.skipped ++ [l] }

/-- Gives up the rest of the file. -/
def abort (f : FileReport) : FileReport := { f with aborted := true }

end FileReport

end FabricPaths
