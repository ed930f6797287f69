import FabricPaths.Failure

/-!
# Decimal digits and numerals

A decimal digit is any character of the general category Nd, in whatever
script; a numeral is a run of them and may mix scripts. A numeral longer than
`digitLimit` is refused rather than read, and a number that would need a longer
one is refused rather than written.
-/

namespace FabricPaths.Text

/-- The zeros of the scripts: every decimal digit is one of the ten
characters that start at one of these. -/
def digitZeros : List Nat := [
  0x30, 0x660, 0x6F0, 0x7C0, 0x966, 0x9E6, 0xA66, 0xAE6, 0xB66, 0xBE6,
  0xC66, 0xCE6, 0xD66, 0xDE6, 0xE50, 0xED0, 0xF20, 0x1040, 0x1090, 0x17E0,
  0x1810, 0x1946, 0x19D0, 0x1A80, 0x1A90, 0x1B50, 0x1BB0, 0x1C40, 0x1C50, 0xA620,
  0xA8D0, 0xA900, 0xA9D0, 0xA9F0, 0xAA50, 0xABF0, 0xFF10, 0x104A0, 0x10D30, 0x11066,
  0x110F0, 0x11136, 0x111D0, 0x112F0, 0x11450, 0x114D0, 0x11650, 0x116C0, 0x11730, 0x118E0,
  0x11950, 0x11C50, 0x11D50, 0x11DA0, 0x16A60, 0x16AC0, 0x16B50, 0x1D7CE, 0x1D7D8, 0x1D7E2,
  0x1D7EC, 0x1D7F6, 0x1E140, 0x1E2F0, 0x1E950, 0x1FBF0]

/-- The value of a decimal digit of any script. -/
def digitValue? (c : Char) : Option Nat :=
  let n := c.toNat
  if n < 0x80 then
    if 0x30 ≤ n && n ≤ 0x39 then some (n - 0x30) else none
  else
    (digitZeros.find? fun z => z ≤ n && n < z + 10).map (n - ·)

/-- Decimal digits of any script. -/
def isDigit (c : Char) : Bool :=
  (digitValue? c).isSome

/-- The number that a run of digits spells; other characters count as zero. -/
def digitsValue (cs : List Char) : Nat :=
  cs.foldl (fun n c => 10 * n + (digitValue? c).getD 0) 0

/-- The longest numeral that is read, leading zeros included. -/
def digitLimit : Nat := 4300

/-- Reads a numeral of at most `digitLimit` digits. -/
def readNumeral (cs : List Char) : Except Failure Nat :=
  if cs.length ≤ digitLimit then .ok (digitsValue cs) else .error (.numeralTooLong cs.length)

/-- The least number of more than `digitLimit` digits. -/
@[irreducible]
def numberLimit : Nat := Nat.pow 10 digitLimit

/-- A number has at most `digitLimit` digits. -/
def IsWritable (n : Int) : Prop := n.natAbs < numberLimit

/-- A number of one digit is below the limit. -/
theorem one_lt_numberLimit : 1 < numberLimit := by
  have hpow : ∀ n, n ≠ 0 → 1 < Nat.pow 10 n := fun n hn => Nat.one_lt_pow hn (by decide)
  unfold numberLimit
  exact hpow digitLimit (by decide)

@[irreducible]
instance IsWritable.decidable (n : Int) : Decidable (IsWritable n) :=
  inferInstanceAs (Decidable (n.natAbs < _))

/-- Writes a number of at most `digitLimit` digits. -/
def writeNumeral (n : Int) : Except Failure String :=
  if IsWritable n then .ok (toString n) else .error .numberTooLong

/-- The value of a hexadecimal digit in lower case. -/
def hexValue (c : Char) : Nat :=
  if c.isDigit then c.toNat - '0'.toNat else c.toNat - 'a'.toNat + 10

/-- Hexadecimal digits in lower case. -/
def isLowerHex (c : Char) : Bool :=
  c.isDigit || ('a' ≤ c && c ≤ 'f')

/-- Hexadecimal digits in either case. -/
def isHex (c : Char) : Bool :=
  isLowerHex c || ('A' ≤ c && c ≤ 'F')

/-- The number that a run of hexadecimal digits spells, of any length. -/
def hexDigitsValue (cs : List Char) : Nat :=
  cs.foldl (fun n c => 16 * n + hexValue c) 0

/-- A numeral is read exactly when it is short enough. -/
theorem readNumeral_eq_ok_iff {cs : List Char} {n : Nat} :
    readNumeral cs = .ok n ↔ cs.length ≤ digitLimit ∧ digitsValue cs = n := by
  unfold readNumeral
  split
  · rename_i short
    exact ⟨fun e => ⟨short, Except.ok.inj e⟩, fun e => congrArg Except.ok e.2⟩
  · rename_i long
    exact ⟨nofun, fun e => absurd e.1 long⟩

/-- A numeral is refused exactly when it is too long, and for no other reason. -/
theorem readNumeral_eq_error_iff {cs : List Char} {e : Failure} :
    readNumeral cs = .error e ↔ digitLimit < cs.length ∧ e = .numeralTooLong cs.length := by
  unfold readNumeral
  split
  · rename_i short
    exact ⟨nofun, fun h => absurd short (Nat.not_le.2 h.1)⟩
  · rename_i long
    exact ⟨fun h => ⟨Nat.not_le.1 long, (Except.error.inj h).symm⟩,
      fun h => congrArg Except.error h.2.symm⟩

/-- A number is written if it is short enough. -/
theorem writeNumeral_of_isWritable {n : Int} (h : IsWritable n) :
    writeNumeral n = .ok (toString n) := if_pos h

/-- A number is refused if it is too long. -/
theorem writeNumeral_of_not_isWritable {n : Int} (h : ¬ IsWritable n) :
    writeNumeral n = .error .numberTooLong := if_neg h

/-- A decimal digit has a value below ten. -/
theorem digitValue?_lt {c : Char} {d : Nat} (h : digitValue? c = some d) : d < 10 := by
  unfold digitValue? at h
  dsimp only at h
  split at h
  · split at h
    · rename_i hdigit
      rw [Bool.and_eq_true, decide_eq_true_eq, decide_eq_true_eq] at hdigit
      cases h
      omega
    · cases h
  · obtain ⟨first, hfirst, rfl⟩ := Option.map_eq_some_iff.mp h
    have hfound := List.find?_some hfirst
    rw [Bool.and_eq_true, decide_eq_true_eq, decide_eq_true_eq] at hfound
    omega

/-- A run of digits spells a number of no more digits. -/
theorem digitsValue_lt (cs : List Char) : digitsValue cs < Nat.pow 10 cs.length := by
  have hstep : ∀ (cs : List Char) (n k : Nat), n < 10 ^ k →
      cs.foldl (fun n c => 10 * n + (digitValue? c).getD 0) n < 10 ^ (k + cs.length) := by
    intro cs
    induction cs with
    | nil => exact fun n k h => h
    | cons c rest ih =>
      intro n k h
      have hdigit : (digitValue? c).getD 0 < 10 := by
        cases hvalue : digitValue? c with
        | none => decide
        | some d => exact digitValue?_lt hvalue
      have hnext : 10 * n + (digitValue? c).getD 0 < 10 ^ (k + 1) := by
        rw [Nat.pow_succ]
        omega
      have hlength : k + (c :: rest).length = k + 1 + rest.length := by
        rw [List.length_cons]
        omega
      rw [List.foldl_cons, hlength]
      exact ih _ _ hnext
  have h := hstep cs 0 0 Nat.one_pos
  rw [Nat.zero_add] at h
  exact h

/-- What is read can be written. -/
theorem isWritable_of_readNumeral {cs : List Char} {n : Nat} (h : readNumeral cs = .ok n) :
    IsWritable n := by
  obtain ⟨hshort, rfl⟩ := readNumeral_eq_ok_iff.mp h
  have hlt : ∀ n, cs.length ≤ n → digitsValue cs < Nat.pow 10 n := fun n hn =>
    Nat.lt_of_lt_of_le (digitsValue_lt cs) (Nat.pow_le_pow_right (by decide) hn)
  unfold IsWritable numberLimit
  exact hlt digitLimit hshort

end FabricPaths.Text
