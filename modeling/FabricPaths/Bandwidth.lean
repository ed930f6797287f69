import FabricPaths.Number.Binary64
import FabricPaths.Text.DecimalDigit

/-!
# Bandwidth

The data rate of a link follows from its speed grade and its number of lanes:
each lane signals at the rate of the grade, of which the line code leaves a
share for data. Bandwidths are added up over the links of an edge, so the rest
of the library is stated for any type of bandwidths; running programs use
doubles.
-/

namespace FabricPaths

/-- The known speed grades. -/
inductive Speed
  | sdr
  | ddr
  | qdr
  | fdr
  | fdr10
  | edr
deriving DecidableEq, Inhabited

namespace Speed

/-- The grade of a code. -/
def ofCode? : String → Option Speed
  | "SDR" => some sdr
  | "DDR" => some ddr
  | "QDR" => some qdr
  | "FDR" => some fdr
  | "FDR10" => some fdr10
  | "EDR" => some edr
  | _ => none

end Speed

/-- Types of bandwidths, in gigabits per second. -/
class Bandwidth (β : Type) where
  /-- The bandwidth of no link at all. -/
  none : β
  /-- Two bandwidths together. -/
  plus : β → β → β
  /-- What is left of a bandwidth when a part is taken away. -/
  minus : β → β → β
  /-- The bandwidth of a number of lanes of a grade. -/
  ofLanes : Nat → Speed → β
  /-- What stands for the bandwidth of a link of unknown grade. -/
  unrated : β

namespace Bandwidth

/-- The data rate of one lane: the signalling rate times the share that the
line code leaves. -/
def laneRate : Speed → Float
  | .sdr => 2.5 * (8.0 / 10)
  | .ddr => 5.0 * (8.0 / 10)
  | .qdr => 10.0 * (8.0 / 10)
  | .fdr => 14.0625 * (64.0 / 66)
  | .fdr10 => 10.0 * (64.0 / 66)
  | .edr => 25.0 * (64.0 / 66)

instance : Bandwidth Float where
  none := 0
  plus := (· + ·)
  minus := (· - ·)
  ofLanes lanes speed := (Number.Binary64.ofNat lanes).getD (1 / 0) * laneRate speed
  unrated := 1

/-- The first number that rounds to no double. -/
def laneLimit : Nat := Nat.pow 2 1024 - Nat.pow 2 970

/-- The number of lanes that a width such as `4x` tells; a width that does not
begin with digits and an `x` tells none. -/
def laneCount (width : String) : Except Failure Nat :=
  let cs := width.toList
  let digits := cs.takeWhile Text.isDigit
  match cs.dropWhile Text.isDigit with
  | 'x' :: _ => if digits.isEmpty then .ok 0 else Text.readNumeral digits
  | _ => .ok 0

/-- The bandwidth of a link of the given speed and width. -/
def ofLink {β : Type} [Bandwidth β] (speed width : String) : Except Failure β :=
  match Speed.ofCode? speed with
  | .none => .ok unrated
  | .some grade => do
    let lanes ← laneCount width
    if laneLimit ≤ lanes then .error .laneCountTooLarge else .ok (ofLanes lanes grade)

end Bandwidth

end FabricPaths
