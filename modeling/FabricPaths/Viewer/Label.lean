import FabricPaths.Event

/-!
# Labels

The labels of tree items: texts put together from pieces, each in a style of
its own. Characters that ring a bell or move the cursor are not shown, and a
piece that holds nothing else keeps its place, as an empty one does not.
-/

namespace FabricPaths.Viewer

/-- Whether a character rings a bell or moves the cursor back, down or to
another page. -/
def isCursorControl (c : Char) : Bool :=
  c == '\x07' || c == '\x08' || c == '\x0b' || c == '\x0c' || c == '\r'

/-- What is shown of a text. -/
def shown (s : String) : String := String.ofList (s.toList.filter (!isCursorControl ·))

/-- A text in pieces of different styles. -/
structure Label where
  /-- The style of what has no style of its own. -/
  base : String := ""
  /-- The text before the pieces. -/
  start : String := ""
  /-- The pieces with their styles. -/
  pieces : List (String × String) := []
deriving DecidableEq, Inhabited

namespace Label

/-- A text in one style. -/
def plain (text style : String) : Label := { base := style, start := text }

/-- A text in pieces. -/
def ofPieces (pieces : List (String × String)) : Label := { pieces }

/-- The text that is shown. -/
def text (l : Label) : String := shown l.start ++ String.join (l.pieces.map (shown ·.1))

/-- Where pieces begin and end when the first begins at an offset; empty pieces
are left out. -/
def spansFrom (offset : Nat) : List (String × String) → List (Nat × Nat × String)
  | [] => []
  | (text, style) :: rest =>
    let next := offset + (shown text).length
    let later := spansFrom next rest
    if text.isEmpty then later else (offset, next, style) :: later

/-- Where the pieces begin and end, with their styles. -/
def spans (l : Label) : List (Nat × Nat × String) := spansFrom (shown l.start).length l.pieces

end Label

/-- The colour and the icon of a walk. -/
def statusStyle : PathStatus → String × String
  | .complete => ("#00ff88", "✓")
  | .noTable => ("#ffcc00", "?")
  | .noEntry => ("#ff4444", "✗")
  | .deadPort => ("#ff4444", "⊘")
  | .loop => ("#ff8800", "↺")

/-- The style of figures. -/
def figureStyle : String := "#888888"

/-- The style of what is missing. -/
def missingStyle : String := "#ffcc00 italic"

namespace Label

/-- A subnet that is being read. -/
def subnetBegun (subnet : String) : Label :=
  .ofPieces [("⟳ ", "#00d4ff"), (subnet, "#00d4ff")]

/-- The piece about walks that stopped short, if there were any. -/
def missing (e : Event) : Except Failure (List (String × String)) := do
  if e.pathsMissing.value = 0 then return []
  return [(s!"  {← e.pathsMissing.text} no route", missingStyle)]

/-- A subnet that is done with. -/
def subnetDone (e : Event) : Except Failure Label := do
  let (color, icon) := if e.pathsMissing.value = 0 then ("#00ff88", "✓") else ("#ffcc00", "⚠")
  let nodes ← e.nodes.text
  let links ← e.links.text
  let paths ← e.pathsComplete.text
  return .ofPieces ([
    (s!"{icon} ", color),
    (e.subnet, "bold " ++ color),
    (s!"  {nodes} nodes {links} links", figureStyle),
    (s!"  {paths} paths", figureStyle)] ++ (← missing e))

/-- A partition of which only the name is known. -/
def partitionNamed (name : String) : Label := .plain ("'" ++ name ++ "'") "bold"

/-- A partition with its number and members. -/
def partitionFound (e : Event) : Except Failure Label := do
  return .ofPieces [
    (s!"[{← e.partitionIndex.text}] ", "#555555"),
    ("'" ++ e.partition ++ "'", "bold"),
    (s!"  {e.members.length} hosts", figureStyle)]

/-- A host. -/
def host (name : String) : Label := .plain name "#cccccc"

/-- A walk that ended in some way. -/
def walk (e : Event) (status : PathStatus) : Label :=
  let (color, icon) := statusStyle status
  .ofPieces [
    (s!"{icon} ", color),
    (e.dest, color),
    if status = .complete then (s!"  {e.hops.length} hops", figureStyle)
    else (s!"  {status.name}", missingStyle)]

end Label

end FabricPaths.Viewer
