import FabricPaths.Storage.PathText
import FabricPaths.World

/-!
# Extraction settings

What a run is asked to do.
-/

namespace FabricPaths.Extract

/-- The settings of a run. -/
structure Config where
  /-- The directory with the dumps. -/
  inputDir : String
  /-- The directory for the fabrics; without one nothing is written. -/
  outputDir : Setting := .absent
  /-- The directory with hardware descriptions. -/
  hwlocDir : Setting := .absent
  /-- A file for the log. -/
  logFile : Setting := .absent
  /-- A file for the report. -/
  diagFile : Setting := .absent
  /-- Whether more is shown. -/
  verbose : Bool := false
  /-- Whether the whole log is shown. -/
  debug : Bool := false
  /-- Whether the summary is a document. -/
  jsonOutput : Bool := false
  /-- Whether progress is shown. -/
  progress : Bool := true
  /-- Whether a viewer has the screen, so that no log is shown. -/
  viewer : Bool := false
  /-- Who is told of events. -/
  observer : Option Observer := none
deriving Inhabited

/-- The directory with hardware descriptions: a relative path is taken from the
output directory. -/
def resolveHwlocDir (hwlocDir : String) (outputDir : Setting) : String :=
  match outputDir.chosen? with
  | some dir => Storage.PathText.join dir hwlocDir
  | none => hwlocDir

namespace Config

/-- What the run wants of its log. -/
def logSettings (c : Config) : Log.Settings :=
  { file := c.logFile, debug := c.debug, verbose := c.verbose, quiet := c.viewer }

/-- Shows a line about the progress. -/
def showProgress (c : Config) (s : String) : Action World Unit :=
  if c.progress then World.printError s else pure ()

/-- Tells the observer of an event. -/
def notify (c : Config) (e : Event) : Action World Unit :=
  World.logging (World.notify c.observer e)

end Config

end FabricPaths.Extract
