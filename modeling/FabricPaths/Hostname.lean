/-!
# Host names

A node's description opens with its host name, and a host name opens with the
name of the partition that the host belongs to.
-/

namespace FabricPaths.Hostname

/-- Small letters, digits and the hyphen. -/
def isNameChar (c : Char) : Bool :=
  c.isLower || c.isDigit || c == '-'

/-- Letters of either case and the hyphen. -/
def isStemChar (c : Char) : Bool :=
  c.isAlpha || c == '-'

/-- The text without one opening quote. -/
def withoutQuote (cs : List Char) : List Char :=
  match cs with
  | '\'' :: r => r
  | _ => cs

/-- The host name at the start of a description, perhaps empty. -/
def ofDescription (description : String) : String :=
  String.ofList ((withoutQuote description.toList).takeWhile isNameChar)

/-- The letters and hyphens at the start of a host name, without hyphens at
their end. -/
def stem (hostname : String) : String :=
  String.ofList
    (((hostname.toList.takeWhile isStemChar).reverse.dropWhile (· == '-')).reverse)

/-- The name of the host that was found nameless after `n` others. -/
def anonymous (n : Nat) : String := s!"ANONYMOUS-{n}"

end FabricPaths.Hostname
