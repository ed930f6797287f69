import FabricPaths.Action
import FabricPaths.Calendar.Moment
import FabricPaths.Event
import FabricPaths.Log.Handler
import FabricPaths.Report.Run
import FabricPaths.Storage.PathText

/-!
# The world of a run

All that a run touches: the storage, the clock, the log handlers, the two
output streams, and an observer who is told of events. The observer may fail;
the failure is logged, and goes no further if it can be put into words.
-/

namespace FabricPaths

/-- Who is told of events: given how many came before, the observer takes an
event or fails. -/
abbrev Observer := Nat → Event → Option Failure

/-- What a run touches. -/
structure World where
  /-- The storage. -/
  storage : Storage.Tree := {}
  /-- The directory from which paths are taken. -/
  workingDir : Storage.Location := []
  /-- The clock. -/
  clock : Clock
  /-- The log handlers. -/
  handlers : List Log.Handler := []
  /-- What was written to the output stream. -/
  output : String := ""
  /-- What was written to the error stream. -/
  errors : String := ""
  /-- How many events the observer was told of. -/
  toldCount : Nat := 0
  /-- The events that the observer took. -/
  told : List Event := []
  /-- The report on the run so far. -/
  report : Option RunReport := none
deriving Inhabited

namespace World

variable {α σ : Type}

/-- The world after a log entry was written. Log lines bear the time of day at
which the clock was started. -/
def afterEntry (w : World) (e : Log.Entry) : World :=
  let (out, handlers) := Log.emit w.handlers ⟨w.clock.start.clockText, w.storage, w.errors⟩ e
  { w with storage := out.storage, errors := out.errors, handlers }

/-- Does something and then writes what it logged. -/
def logging (x : Action World α) : Action World α := fun w =>
  let r := x w
  { r with state := r.log.foldl afterEntry r.state }

/-- Logs a message. -/
def say (level : Log.Level) (channel text : String) : Action World Unit :=
  logging (Action.say level channel text)

/-- Does something on a state of its own and writes what it logged. -/
def apart (start : σ) (x : Action σ α) : Action World (α × σ) :=
  logging (Action.apart start x)

/-- Reads the clock. -/
def now : Action World Moment := fun w =>
  let (t, clock) := w.clock.read
  ⟨t, { w with clock }, []⟩

/-- Writes to the output stream. -/
def print (s : String) : Action World Unit :=
  Action.modify fun w => { w with output := w.output ++ s ++ "\n" }

/-- Writes to the error stream. -/
def printError (s : String) : Action World Unit :=
  Action.modify fun w => { w with errors := w.errors ++ s ++ "\n" }

/-- The lines of a text file. -/
def readLines (p : String) : Action World (List String) := do
  let w ← Action.get
  Action.ofExcept (w.storage.readLines w.workingDir p)

/-- The names in a directory. -/
def list (p : String) : Action World (List String) := do
  let w ← Action.get
  Action.ofExcept (w.storage.list w.workingDir p)

/-- Opens a file for writing: it is empty then. -/
def create (p : String) : Action World Storage.Location := do
  let w ← Action.get
  let (storage, l) ← Action.ofExcept (w.storage.create w.workingDir p)
  Action.modify fun w => { w with storage }
  return l

/-- Writes a whole text file. -/
def write (p text : String) : Action World Unit := do
  let w ← Action.get
  let storage ← Action.ofExcept (w.storage.write w.workingDir p text.toUTF8)
  Action.modify fun w => { w with storage }

/-- The handler for a log file, which is emptied. -/
def fileHandler (p : String) : Action World Log.Handler := do
  let location ← create (Storage.PathText.absolute (← Action.get).workingDir.text p)
  return ⟨.file location 0, some .debug⟩

/-- Sets up the log handlers. If the log file cannot be opened, none are left. -/
def setUpLog (s : Log.Settings) : Action World Unit := do
  Action.modify fun w => { w with handlers := [] }
  let file ← match s.file.chosen? with
    | some p => some <$> fileHandler p
    | none => pure none
  Action.modify fun w => { w with handlers := s.handlers file }

/-- Tells an observer of an event. -/
def tell (observer : Observer) (e : Event) : Action World Unit := fun w =>
  let heard := { w with toldCount := w.toldCount + 1 }
  match observer w.toldCount e with
  | none => ⟨.ok (), { heard with told := heard.told ++ [e] }, []⟩
  | some failure => ⟨.error failure, heard, []⟩

/-- Tells the observer, if there is one, of an event; a failure of the observer
is logged. -/
def notify (observer : Option Observer) (e : Event) : Action World Unit := do
  if let some o := observer then
    if let .error failure ← Action.attempt (tell o e) then
      Action.say .debug Log.extract
        s!"Event callback error: {← Action.ofExcept failure.words}"

end World

end FabricPaths
