import FabricPaths.OrderedMap

/-!
# Structured documents

The values of which written documents are made, in the JavaScript Object
Notation. Numbers are whole numbers or doubles, which are written differently
even where they are equal.
-/

namespace FabricPaths

/-- A value of a document. -/
inductive Json
  | null
  | bool (b : Bool)
  | int (n : Int)
  | float (x : Float)
  | str (s : String)
  | arr (items : List Json)
  | obj (members : List (String × Json))
deriving Inhabited

namespace Json

/-- A whole number. -/
def nat (n : Nat) : Json := .int n

/-- A text, or nothing. -/
def strOrNull : Option String → Json
  | some s => .str s
  | none => .null

/-- A whole number, or nothing. -/
def intOrNull : Option Int → Json
  | some n => .int n
  | none => .null

/-- A list of texts. -/
def strs (ss : List String) : Json := .arr (ss.map .str)

/-- A list of whole numbers. -/
def ints (ns : List Int) : Json := .arr (ns.map .int)

/-- A list of natural numbers. -/
def nats (ns : List Nat) : Json := .arr (ns.map .nat)

end Json

end FabricPaths
