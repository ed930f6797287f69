import FabricPaths.Number.Shortest

/-!
# Writing numbers

How a number is laid out once its digits are known: in positional form or with
an exponent, or with a set number of places after the point.
-/

namespace FabricPaths.Number

/-- The decisions of a number format. -/
structure Layout where
  /-- The least power of ten of a first digit that is written positionally. -/
  positionalFrom : Int
  /-- The first power of ten that is no longer written positionally. -/
  positionalBelow : Int
  /-- The least number of digits of an exponent. -/
  exponentDigits : Nat
  /-- The word for an infinite value. -/
  infinity : String
  /-- The word for an undefined value. -/
  undefined : String

/-- The digits of a number without the zeros at its end. -/
def significantDigits (n : Nat) : List Char :=
  match ((Nat.toDigits 10 n).reverse.dropWhile (· == '0')).reverse with
  | [] => ['0']
  | ds => ds

/-- Digits with the point behind the power of ten `lead` of the first digit. -/
def positional (ds : List Char) (lead : Int) : List Char :=
  if lead < 0 then '0' :: '.' :: (List.replicate (-lead - 1).toNat '0' ++ ds)
  else
    let whole := lead.toNat + 1
    if ds.length ≤ whole then ds ++ List.replicate (whole - ds.length) '0' ++ ['.', '0']
    else ds.take whole ++ '.' :: ds.drop whole

/-- Digits with an exponent. -/
def scientific (layout : Layout) (ds : List Char) (lead : Int) : List Char :=
  let exponent := Nat.toDigits 10 lead.natAbs
  let point := match ds with
    | [] => []
    | [d] => [d]
    | d :: rest => d :: '.' :: rest
  point ++ 'e' :: (if lead < 0 then '-' else '+') ::
    (List.replicate (layout.exponentDigits - exponent.length) '0' ++ exponent)

/-- A decimal laid out. -/
def Layout.decimal (layout : Layout) (d : Decimal) : List Char :=
  let ds := significantDigits d.digits
  let lead := d.exponent + digitCount d.digits - 1
  if layout.positionalFrom ≤ lead && lead < layout.positionalBelow then positional ds lead
  else scientific layout ds lead

/-- A double in the fewest digits that read back. -/
def Layout.write (layout : Layout) (x : Float) : String :=
  let sign := fun negative => if negative then "-" else ""
  match Binary64.ofFloat x with
  | .undefined => layout.undefined
  | .infinite negative => sign negative ++ layout.infinity
  | .finite negative m e =>
    sign negative ++ String.ofList
      (if m == 0 then positional ['0'] 0 else layout.decimal (shortest m e))

/-- A number with leading zeros. -/
def padded (width n : Nat) : String :=
  let ds := Nat.toDigits 10 n
  String.ofList (List.replicate (width - ds.length) '0' ++ ds)

/-- A double with a set number of places; a half goes to the even neighbour. -/
def fixedPlaces (places : Nat) (x : Float) : String :=
  match Binary64.ofFloat x with
  | .undefined => "nan"
  | .infinite negative => if negative then "-inf" else "inf"
  | .finite negative m e =>
    let unit := Nat.pow 10 places
    let n := roundHalfEven (m * Nat.pow 2 e.toNat * unit) (Nat.pow 2 (-e).toNat)
    let whole := toString (n / unit)
    (if negative then "-" else "") ++
      (if places == 0 then whole else whole ++ "." ++ padded places (n % unit))

end FabricPaths.Number
