import FabricPaths.Text.Blank
import FabricPaths.Text.DecimalDigit

/-!
# Scanning a line

The pieces of which the line formats are made. Each reads a field from the
front of a line and returns it with the rest of the line, or nothing when the
line does not begin with such a field. Neighbouring fields never share a
character class, so the longest field is the only candidate and no piece is
ever read twice.
-/

namespace FabricPaths.Text.Scan

/-- The rest after a fixed word. -/
def word (w : List Char) : List Char → Option (List Char)
  | cs => if w.isPrefixOf cs then some (cs.drop w.length) else none

/-- The rest after one or more blanks. -/
def blanks (cs : List Char) : Option (List Char) :=
  match cs with
  | c :: r => if isBlank c then some (dropBlanks r) else none
  | [] => none

/-- A non-empty run of characters of a class. -/
def run (p : Char → Bool) (cs : List Char) : Option (List Char × List Char) :=
  match cs.takeWhile p with
  | [] => none
  | f => some (f, cs.dropWhile p)

/-- Exactly `n` characters of a class. -/
def exactly (p : Char → Bool) : Nat → List Char → Option (List Char × List Char)
  | 0, cs => some ([], cs)
  | n + 1, c :: cs =>
    if p c then (exactly p n cs).map fun (f, r) => (c :: f, r) else none
  | _ + 1, [] => none

/-- Splits before the last character of a kind, which is dropped with all that
follows it. -/
def beforeLast (p : Char → Bool) (cs : List Char) : Option (List Char) :=
  match cs.reverse.dropWhile (fun c => !p c) with
  | [] => none
  | _ :: r => some r.reverse

/-- What stands on the current line. -/
def lineRest (cs : List Char) : List Char :=
  cs.takeWhile (· != '\n')

end FabricPaths.Text.Scan
