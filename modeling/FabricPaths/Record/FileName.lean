import FabricPaths.Text.Scan

/-!
# File names

How the dumps of a subnet and the files written for it are named. A subnet's
identifier stands in each of these names.
-/

namespace FabricPaths.FileName

open Text

/-- The characters of a subnet's identifier. -/
def isSubnetChar (c : Char) : Bool :=
  isHex c || c == ':'

/-- The length of a subnet's identifier. -/
def subnetLength : Nat := 19

/-- Whether nothing follows, or one line feed. -/
def isEnd (cs : List Char) : Bool :=
  cs.isEmpty || cs == ['\n']

/-- The subnet that a discovery dump of this name describes. -/
def discoverySubnet? (name : String) : Option String := do
  let r ← Scan.word "ib-subnet-".toList name.toList
  let (subnet, r) ← Scan.exactly isSubnetChar subnetLength r
  let r ← Scan.word ".txt".toList r
  if isEnd r then some (String.ofList subnet) else none

/-- The name of the directory with a subnet's route dumps. -/
def routeDirectory (subnet : String) : String := s!"ibroutes-{subnet}"

/-- The digits of the index in a route dump's name. -/
def routeDigits? (name : String) : Option (List Char) := do
  let r ← Scan.word "ibroute-".toList name.toList
  let (_, r) ← Scan.exactly isSubnetChar subnetLength r
  let r ← Scan.word ['-'] r
  let digits := r.takeWhile Char.isDigit
  let r ← Scan.word ".txt".toList (r.drop digits.length)
  if isEnd r then some digits else none

/-- The index of a route dump of this name; a name without digits counts as
index zero. -/
def routeIndex? (name : String) : Except Failure (Option Nat) :=
  match routeDigits? name with
  | none => .ok none
  | some digits => do return some (← readNumeral digits)

/-- The name of the file that a subnet's fabric is written to. -/
def fabric (subnet : String) : String := s!"IB-{subnet}-fabric.json"

end FabricPaths.FileName
