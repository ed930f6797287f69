import FabricPaths.Json.Render
import FabricPaths.Report.Subnet
import FabricPaths.Setting

/-!
# Run reports

What came of one run over an input directory, subnet by subnet.
-/

namespace FabricPaths

/-- The report on one run. -/
structure RunReport where
  /-- The directory with the dumps. -/
  inputDir : String
  /-- The directory for the fabrics. -/
  outputDir : Setting := .absent
  /-- When the run began. -/
  started : Option Moment := none
  /-- When the run ended. -/
  completed : Option Moment := none
  /-- The reports on its subnets. -/
  subnets : List SubnetReport := []
deriving Inhabited

namespace RunReport

/-- How long the run took, in seconds. -/
def duration (r : RunReport) : Option Float := do
  return Moment.seconds (Moment.elapsed (← r.started) (← r.completed))

/-- The number of complete walks. -/
def pathsComplete (r : RunReport) : Int := (r.subnets.map (·.counts.complete)).foldr (· + ·) 0

/-- The number of walks that stopped short. -/
def pathsMissing (r : RunReport) : Int := (r.subnets.map (·.counts.missing)).foldr (· + ·) 0

/-- The number of lines that should have been records. -/
def malformedLines (r : RunReport) : Nat := (r.subnets.map (·.malformedLines)).foldr (· + ·) 0

/-- The report as a document, with or without the skipped lines. -/
def toJson (withLines : Bool) (r : RunReport) : Json :=
  .obj [
    ("input_dir", .str r.inputDir),
    ("output_dir", r.outputDir.toJson),
    ("started_at", .strOrNull (r.started.map Moment.text)),
    ("completed_at", .strOrNull (r.completed.map Moment.text)),
    ("duration_seconds", (r.duration.map Json.float).getD .null),
    ("summary", .obj [
      ("subnets", .nat r.subnets.length),
      ("paths_complete", .int r.pathsComplete),
      ("paths_missing", .int r.pathsMissing),
      ("malformed_lines", .nat r.malformedLines)]),
    ("subnets", .arr (r.subnets.map (SubnetReport.toJson withLines)))]

/-- A rule across the summary. -/
def rule : String := String.ofList (List.replicate 50 '─')

/-- The duration to a tenth of a second. -/
def durationText (r : RunReport) : String :=
  match r.duration with
  | some x => Number.fixedPlaces 1 x ++ "s"
  | none => "?"

/-- The last line of the summary. -/
def totals (r : RunReport) : String :=
  s!"Subnets: {r.subnets.length} | Paths: {r.pathsComplete} | No route: {r.pathsMissing} | " ++
    s!"Malformed lines: {r.malformedLines} | {r.durationText}"

/-- The summary of the run. -/
def summary (r : RunReport) : String :=
  "\n".intercalate <|
    [s!"fabtrace: {r.inputDir}", rule] ++ r.subnets.map (·.summary) ++ [rule, r.totals]

end RunReport

end FabricPaths
