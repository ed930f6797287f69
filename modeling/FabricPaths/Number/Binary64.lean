/-!
# Double-precision values

A finite double is a natural mantissa times a power of two. This module takes a
double apart into those two numbers and rounds a quotient of naturals to the
nearest double, the even neighbour on a tie.
-/

namespace FabricPaths.Number

/-- The quotient rounded to the nearest natural, to the even one on a tie. -/
def roundHalfEven (num den : Nat) : Nat :=
  let q := num / den
  let r := num % den
  if 2 * r < den then q
  else if 2 * r > den then q + 1
  else if q % 2 == 0 then q else q + 1

/-- The rounded quotient is off by at most half. -/
theorem roundHalfEven_near {num den : Nat} (h : 0 < den) :
    2 * num ≤ (2 * roundHalfEven num den + 1) * den ∧
      (2 * roundHalfEven num den) * den ≤ 2 * num + den := by
  have hd := Nat.div_add_mod num den
  have hm := Nat.mod_lt num h
  have e : 2 * num = 2 * (num / den) * den + 2 * (num % den) := by
    rw [Nat.mul_assoc, Nat.mul_comm (num / den), ← Nat.mul_add, hd]
  have e₁ : (2 * (num / den) + 1) * den = 2 * (num / den) * den + den := by
    rw [Nat.add_mul, Nat.one_mul]
  have e₂ : (2 * (num / den + 1) + 1) * den = 2 * (num / den) * den + 3 * den := by
    rw [← Nat.add_mul, Nat.mul_add]
  have e₃ : (2 * (num / den + 1)) * den = 2 * (num / den) * den + 2 * den := by
    rw [← Nat.add_mul, Nat.mul_add]
  simp only [roundHalfEven]
  split
  · omega
  · split
    · omega
    · split <;> omega

/-- A double taken apart. -/
inductive Binary64
  /-- A mantissa times a power of two. -/
  | finite (negative : Bool) (mantissa : Nat) (exponent : Int)
  | infinite (negative : Bool)
  | undefined
deriving DecidableEq

namespace Binary64

/-- The least exponent of two. -/
def leastExponent : Int := -1074

/-- The mantissas of full length start here. -/
def fullMantissa : Nat := Nat.pow 2 52

/-- Reads the sixty-four bits of a double. -/
def ofBits (bits : Nat) : Binary64 :=
  let negative := bits / Nat.pow 2 63 % 2 == 1
  let field := bits / fullMantissa % 2048
  let fraction := bits % fullMantissa
  if field == 2047 then
    if fraction == 0 then .infinite negative else .undefined
  else if field == 0 then .finite negative fraction leastExponent
  else .finite negative (fullMantissa + fraction) (Int.ofNat field - 1075)

/-- Takes a double apart. -/
def ofFloat (x : Float) : Binary64 :=
  ofBits x.toBits.toNat

/-- The bits of a positive double with the given mantissa and exponent, unless
it is too large. -/
def positiveBits (mantissa : Nat) (exponent : Int) : Option Nat :=
  let (m, e) := if mantissa == 2 * fullMantissa then (fullMantissa, exponent + 1)
    else (mantissa, exponent)
  if e > 971 then none
  else if m < fullMantissa then some m
  else some ((e + 1075).toNat * fullMantissa + (m - fullMantissa))

/-- The exponent that gives a quotient a mantissa of full length. -/
def quotientExponent (num den : Nat) : Int :=
  let k : Int := Int.ofNat num.log2 - Int.ofNat den.log2
  let small := if k ≥ 0 then num < den * Nat.pow 2 k.toNat
    else num * Nat.pow 2 (-k).toNat < den
  max (if small then k - 53 else k - 52) leastExponent

/-- The double nearest to a quotient, unless it is too large. -/
def ofQuotient (num den : Nat) : Option Float :=
  if num == 0 then some 0
  else
    let e := quotientExponent num den
    let m := if e ≥ 0 then roundHalfEven num (den * Nat.pow 2 e.toNat)
      else roundHalfEven (num * Nat.pow 2 (-e).toNat) den
    (positiveBits m e).map fun b => Float.ofBits (UInt64.ofNat b)

/-- The double nearest to a natural number, unless it is too large. -/
def ofNat (n : Nat) : Option Float :=
  ofQuotient n 1

/-- The double nearest to a decimal fraction with `places` digits after the
point; too large a number becomes infinite. -/
def ofDecimal (negative : Bool) (digits places : Nat) : Float :=
  let x := (ofQuotient digits (Nat.pow 10 places)).getD (1 / 0)
  if negative then -x else x

end Binary64

end FabricPaths.Number
