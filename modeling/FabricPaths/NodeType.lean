import FabricPaths.Text.Scan

/-!
# Node types

A node is a host, which is known by its channel adapter, or a switch. Dumps
write the type as a code of two letters.
-/

namespace FabricPaths

open Text

/-- What a node is. -/
inductive NodeType
  /-- A channel adapter. -/
  | host
  | switch
deriving DecidableEq, Inhabited

namespace NodeType

/-- The type as reports name it. -/
def name : NodeType → String
  | host => "host"
  | switch => "switch"

/-- The type that a reported name stands for. -/
def ofName? : String → Option NodeType
  | "host" => some host
  | "switch" => some switch
  | _ => none

/-- The type's code in dumps. -/
def code : NodeType → List Char
  | host => ['C', 'A']
  | switch => ['S', 'W']

/-- Reads a type's code. -/
def scan (cs : List Char) : Option (NodeType × List Char) :=
  match Scan.word (code host) cs with
  | some r => some (host, r)
  | none => (Scan.word (code switch) cs).map fun r => (switch, r)

end NodeType

end FabricPaths
