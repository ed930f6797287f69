import FabricPaths.Record.Format
import FabricPaths.Text.Blank
import FabricPaths.Text.Lines

/-!
# Line reports

Every input line that did not become a record is reported, with the reason.
-/

namespace FabricPaths

/-- How a line fared. -/
inductive LineVerdict
  /-- It became a record. -/
  | ok
  /-- It carries no data. -/
  | ignored
  /-- It has no known form, or its record was refused. -/
  | noMatch
  /-- It is a route entry of which no header names the switch. -/
  | orphan
  /-- It could not be read. -/
  | exception
deriving DecidableEq, Inhabited

namespace LineVerdict

/-- The verdict as reports name it. -/
def name : LineVerdict → String
  | ok => "ok"
  | ignored => "ignored"
  | noMatch => "no-match"
  | orphan => "orphan"
  | exception => "exception"

/-- The verdict of a name. -/
def ofName? (s : String) : Option LineVerdict :=
  [ok, ignored, noMatch, orphan, exception].find? fun v => v.name == s

/-- Verdicts on lines that should have been records. -/
def isMalformed : LineVerdict → Bool
  | noMatch | orphan | exception => true
  | ok | ignored => false

end LineVerdict

/-- A line that did not become a record. -/
structure LineReport where
  /-- Where the line came from. -/
  source : String
  /-- The line's number, counted from one. -/
  lineno : Int
  /-- The line without its line feeds. -/
  raw : String
  /-- How the line fared. -/
  verdict : LineVerdict
  /-- The reader that was tried. -/
  reader : String
  /-- The reason in words. -/
  detail : String
deriving DecidableEq, Inhabited

/-- A line that a reader is tried on. -/
structure SourceLine where
  /-- Where the line comes from. -/
  source : String
  /-- The line's number, counted from one. -/
  lineno : Int
  /-- The line as read. -/
  raw : String
deriving DecidableEq, Inhabited

namespace SourceLine

/-- The report on a line. -/
def report (l : SourceLine) (verdict : LineVerdict) (reader detail : String) : LineReport :=
  ⟨l.source, l.lineno, Text.dropLineFeedsString l.raw, verdict, reader, detail⟩

/-- The report on a line that could not be read. -/
def unreadable (l : SourceLine) (reader : String) (e : Failure) : LineReport :=
  l.report .exception reader s!"{e.heading}: {e.message}"

/-- The message about a line that could not be read. -/
def unreadableMessage (l : SourceLine) (e : Failure) : String :=
  s!"[{l.source}:{l.lineno}] Parser exception: {e.heading}: {e.message}\n" ++
    Text.indented (Text.dropLineFeedsString l.raw)

/-- The report on a line without a known form. -/
def unmatched (l : SourceLine) (reader : String) : LineReport :=
  l.report .noMatch reader "Line matches no known record pattern"

/-- What became of a line: its record, or the report on it with the message to
log, if any. -/
inductive Reading (ρ : Type)
  | record (r : ρ)
  | skipped (report : LineReport) (message : Option String)

/-- What became of a line that a reader was tried on. -/
def classify {ρ : Type} (l : SourceLine) (reader : String)
    (result : Except Failure (Option ρ)) : Reading ρ :=
  match result with
  | .ok (some r) => .record r
  | .ok none => .skipped (l.unmatched reader) none
  | .error e => .skipped (l.unreadable reader e) (some (l.unreadableMessage e))

/-- Numbers the lines of a source, counting from `first`. -/
def number (source : String) (first : Nat) : List String → List SourceLine
  | [] => []
  | raw :: rest => ⟨source, (first : Nat), raw⟩ :: number source (first + 1) rest

end SourceLine

end FabricPaths
