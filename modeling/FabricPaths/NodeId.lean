import FabricPaths.Text.Lowercase

/-!
# Node identifiers

A node is known by its GUID, written as four groups of four characters. Dumps
spell GUIDs with or without a leading `0x` and in either case; all spellings of
one GUID give one identifier.
-/

namespace FabricPaths

/-- The canonical text of a node's GUID. -/
structure NodeId where
  /-- The four groups, separated by colons. -/
  text : String
deriving DecidableEq, Inhabited

namespace NodeId

/-- The first sixteen characters in groups of four. -/
def groups (cs : List Char) : List (List Char) :=
  [cs.take 4, (cs.drop 4).take 4, (cs.drop 8).take 4, (cs.drop 12).take 4]

/-- The text of a GUID without the mark of a hexadecimal number. -/
def withoutMark (cs : List Char) : List Char :=
  match cs with
  | '0' :: 'x' :: r => r
  | _ => cs

/-- The identifier for a GUID in any spelling. A text that is no GUID is cut up
the same way. -/
def ofGuid (guid : String) : NodeId :=
  let cs := withoutMark (Text.lower guid.toList)
  ⟨":".intercalate ((groups cs).map String.ofList)⟩

end NodeId

end FabricPaths
