import FabricPaths.Log
import FabricPaths.Setting
import FabricPaths.Storage.Tree.Writing

/-!
# Log handlers

Where log entries are written. A handler passes over entries below its
threshold. Entries of the program's channel and the channels under it go to the
handlers that were set up; where there is none, grave entries are shown bare.
-/

namespace FabricPaths.Log

/-- Where a handler writes. -/
inductive Sink
  /-- Into a file, from an offset on. -/
  | file (location : Storage.Location) (offset : Nat)
  /-- To the error stream. -/
  | errorStream
  /-- Nowhere. -/
  | nowhere
deriving DecidableEq, Inhabited

/-- Something that writes log entries. -/
structure Handler where
  /-- Where it writes. -/
  sink : Sink
  /-- The least level that it writes; none means all. -/
  threshold : Option Level
deriving DecidableEq, Inhabited

namespace Handler

/-- The threshold as a number. -/
def level (h : Handler) : Nat :=
  match h.threshold with
  | some l => l.number
  | none => 0

/-- Whether the handler writes an entry. -/
def takes (h : Handler) (e : Entry) : Bool := h.level ≤ e.level.number

end Handler

/-- The line of an entry, with the time of day that it bears. -/
def line (time : String) (e : Entry) : String :=
  s!"{time} [{e.level.name}] {e.channel}: {e.text}\n"

/-- Whether a channel is the program's or lies under it. -/
def isOurs (channel : String) : Bool :=
  channel == program || channel.startsWith (program ++ ".")

/-- What handlers write to, and the time of day that their lines bear. -/
structure Output where
  /-- The time of day. -/
  time : String
  /-- The storage. -/
  storage : Storage.Tree
  /-- What was written to the error stream. -/
  errors : String
deriving Inhabited

/-- Writes an entry with one handler, whose offset may move on. -/
def emitWith (e : Entry) (out : Output) (h : Handler) : Output × Handler :=
  if !h.takes e then (out, h)
  else
    match h.sink with
    | .nowhere => (out, h)
    | .errorStream => ({ out with errors := out.errors ++ line out.time e }, h)
    | .file location offset =>
      let bytes := (line out.time e).toUTF8
      ({ out with storage := out.storage.writeAt location offset bytes },
        { h with sink := .file location (offset + bytes.size) })

/-- Writes an entry with each handler in turn. -/
def emitAll (e : Entry) (out : Output) : List Handler → Output × List Handler
  | [] => (out, [])
  | h :: rest =>
    let (out, h) := emitWith e out h
    let (out, rest) := emitAll e out rest
    (out, h :: rest)

/-- Shows a grave entry bare. -/
def emitBare (e : Entry) (out : Output) : Output :=
  if e.level.number < Level.warning.number then out
  else { out with errors := out.errors ++ e.text ++ "\n" }

/-- Writes an entry. -/
def emit (handlers : List Handler) (out : Output) (e : Entry) : Output × List Handler :=
  if isOurs e.channel && !handlers.isEmpty then emitAll e out handlers
  else (emitBare e out, handlers)

/-- What a run wants of its log. -/
structure Settings where
  /-- A file for all entries. -/
  file : Setting := .absent
  /-- Whether all entries go to the error stream. -/
  debug : Bool := false
  /-- Whether entries of some weight go to the error stream. -/
  verbose : Bool := false
  /-- Whether nothing goes to the error stream. -/
  quiet : Bool := false
deriving DecidableEq, Inhabited

namespace Settings

/-- The threshold of the error stream. -/
def streamThreshold (s : Settings) : Level :=
  if s.debug then .debug else if s.verbose then .info else .warning

/-- The handlers beside the one for the file. -/
def streamHandlers (s : Settings) : List Handler :=
  if s.quiet then [] else [⟨.errorStream, some s.streamThreshold⟩]

/-- The handlers in all, given the one for the file; there is at least one. -/
def handlers (s : Settings) (file : Option Handler) : List Handler :=
  match file.toList ++ s.streamHandlers with
  | [] => [⟨.nowhere, none⟩]
  | hs => hs

end Settings

end FabricPaths.Log
