import FabricPaths.Event

/-!
# Levels of detail

How much of an event the log pane shows, and the keys that choose it.
-/

namespace FabricPaths.Viewer

/-- How much the log pane shows. -/
inductive Detail
  | basic
  | verbose
  | debug
deriving DecidableEq, Inhabited

namespace Detail

/-- All levels of detail. -/
def all : List Detail := [basic, verbose, debug]

/-- The level's name. -/
def name : Detail → String
  | basic => "basic"
  | verbose => "verbose"
  | debug => "debug"

/-- The first list that holds anything, or else the last. -/
def firstFilled : List (List String) → List String
  | [] => []
  | [ls] => ls
  | ls :: rest => if ls.isEmpty then firstFilled rest else ls

/-- The lines of an event at a level: the most detailed ones up to the level
that the event has. -/
def lines (d : Detail) (e : Event) : List String :=
  match d with
  | basic => e.logBasic
  | verbose => firstFilled [e.logVerbose, e.logBasic]
  | debug => firstFilled [e.logDebug, e.logVerbose, e.logBasic]

/-- The level's name with the key that chooses it, if it is the chosen one. -/
def hint (chosen d : Detail) : String :=
  if chosen = d then
    match d.name.toList with
    | c :: rest => "[bold]" ++ String.singleton c ++ "[/bold]" ++ String.ofList rest
    | [] => ""
  else d.name

end Detail

/-- What happens to the log pane. -/
inductive PaneChange
  | cleared
  | line (text : String)
deriving DecidableEq, Inhabited

/-- What the keys do. -/
inductive Key
  | detail (d : Detail)
  | quit
deriving DecidableEq, Inhabited

namespace Key

/-- The key of a name. -/
def ofName? : String → Option Key
  | "b" => some (detail .basic)
  | "v" => some (detail .verbose)
  | "d" => some (detail .debug)
  | "q" => some quit
  | _ => none

end Key

end FabricPaths.Viewer
