import FabricPaths.Number.Binary64

/-!
# Shortest decimals

The decimal with the fewest digits that reads back to a given double, and the
nearest of those when there are several. The reals that round to a double form
an interval around it, whose ends belong to it when its mantissa is even; a
decimal of `n` digits lies in the interval only if one of the two neighbours of
the value on the grid of `n` digits does.
-/

namespace FabricPaths.Number

/-- A decimal: `digits * 10 ^ exponent`. -/
structure Decimal where
  /-- All significant digits as one number. -/
  digits : Nat
  /-- The power of ten. -/
  exponent : Int
deriving DecidableEq

/-- A positive value with the interval that rounds to it, over one
denominator. -/
structure Rounding where
  /-- The value. -/
  value : Nat
  /-- The lower end. -/
  low : Nat
  /-- The upper end. -/
  high : Nat
  /-- The common denominator. -/
  den : Nat
  /-- Whether the ends round to the value. -/
  closed : Bool

namespace Rounding

/-- The interval of a mantissa and exponent. A power of two has a nearer
neighbour below than above. -/
def ofParts (mantissa : Nat) (exponent : Int) : Rounding :=
  let below := if mantissa == Binary64.fullMantissa && exponent > Binary64.leastExponent
    then 1 else 2
  let num := Nat.pow 2 (exponent - 2).toNat
  { value := 4 * mantissa * num
    low := (4 * mantissa - below) * num
    high := (4 * mantissa + 2) * num
    den := Nat.pow 2 (2 - exponent).toNat
    closed := mantissa % 2 == 0 }

/-- The same interval on the grid whose unit is `10 ^ u`. -/
def onGrid (r : Rounding) (u : Int) : Rounding :=
  let up := Nat.pow 10 (-u).toNat
  { r with value := r.value * up, low := r.low * up, high := r.high * up,
           den := r.den * Nat.pow 10 u.toNat }

/-- Whether a grid point lies in the interval. -/
def contains (r : Rounding) (point : Nat) : Bool :=
  if r.closed then r.low ≤ point * r.den && point * r.den ≤ r.high
  else r.low < point * r.den && point * r.den < r.high

/-- The grid point in the interval nearest to the value, the even one on a
tie. -/
def nearest? (r : Rounding) : Option Nat :=
  let below := r.value / r.den
  match r.contains below, r.contains (below + 1) with
  | true, true => some (roundHalfEven r.value r.den)
  | true, false => some below
  | false, true => some (below + 1)
  | false, false => none

/-- A grid point that is chosen lies in the interval. -/
theorem contains_of_nearest? {r : Rounding} {p : Nat} (h : r.nearest? = some p) :
    r.contains p = true := by
  unfold nearest? at h
  simp only at h
  split at h
  · rename_i h₁ h₂
    injection h with h
    subst h
    simp only [roundHalfEven]
    split
    · exact h₁
    · split
      · exact h₂
      · split
        · exact h₁
        · exact h₂
  · rename_i h₁ _
    injection h with h
    exact h ▸ h₁
  · rename_i _ h₂
    injection h with h
    exact h ▸ h₂
  · exact absurd h (by simp)

end Rounding

/-- The number of decimal digits. -/
def digitCount (n : Nat) : Nat :=
  (Nat.toDigits 10 n).length

/-- The power of ten of the first digit of a positive quotient. -/
def leadingExponent (num den : Nat) : Int :=
  if num ≥ den then (digitCount (num / den) : Int) - 1
  else
    let n := digitCount (den / num)
    if num * Nat.pow 10 (n - 1) ≥ den then 1 - (n : Int) else -(n : Int)

/-- Tries grids of ever more digits; `finer` of them are left. -/
def shortestFrom (r : Rounding) (lead : Int) : (finer n : Nat) → Decimal
  | 0, n => ⟨(r.onGrid (lead - n)).value / (r.onGrid (lead - n)).den, lead - n⟩
  | finer + 1, n =>
    match (r.onGrid (lead - n)).nearest? with
    | some p => ⟨p, lead - n⟩
    | none => shortestFrom r lead finer (n + 1)

/-- The shortest decimal that reads back to a positive double. -/
def shortest (mantissa : Nat) (exponent : Int) : Decimal :=
  let r := Rounding.ofParts mantissa exponent
  shortestFrom r (leadingExponent r.value r.den) 17 0

end FabricPaths.Number
