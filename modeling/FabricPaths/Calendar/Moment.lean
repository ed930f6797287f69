import FabricPaths.Failure
import FabricPaths.Number.Layout

/-!
# Moments

Points in time, to the microsecond, in the calendar that has a leap day in
every fourth year except the centuries that no four hundred years divide. The
calendar reaches from the year 1 to the year 9999.
-/

namespace FabricPaths

/-- A point in time. -/
structure Moment where
  /-- Microseconds since the first of January of the year 1. -/
  micros : Nat
deriving DecidableEq, Inhabited

namespace Moment

/-- Whether a year has a leap day. -/
def isLeap (y : Nat) : Bool := y % 4 == 0 && (y % 100 != 0 || y % 400 == 0)

/-- The days of the years before a year. -/
def daysBeforeYear (y : Nat) : Nat :=
  let n := y - 1
  365 * n + n / 4 - n / 100 + n / 400

/-- The days of a month. -/
def daysInMonth (y m : Nat) : Nat :=
  match m with
  | 2 => if isLeap y then 29 else 28
  | 4 | 6 | 9 | 11 => 30
  | _ => 31

/-- The days of the months before a month of a year. -/
def daysBeforeMonth (y m : Nat) : Nat :=
  ((List.range (m - 1)).map fun i => daysInMonth y (i + 1)).foldr (· + ·) 0

/-- Microseconds of a day. -/
def dayMicros : Nat := 86400 * 1000000

/-- The first moment behind the calendar. -/
def endOfCalendar : Nat := daysBeforeYear 10000 * dayMicros

/-- The moment of a date and a time of day. -/
def ofParts (year month day hour minute second micro : Nat) : Moment :=
  let days := daysBeforeYear year + daysBeforeMonth year month + (day - 1)
  ⟨days * dayMicros + ((hour * 60 + minute) * 60 + second) * 1000000 + micro⟩

/-- The moment that many microseconds later, or earlier if there are less than
none. -/
def later (t : Moment) (micros : Int) : Except Failure Moment :=
  let n := (t.micros : Int) + micros
  if 0 ≤ n ∧ n < endOfCalendar then .ok ⟨n.toNat⟩ else .error .momentOutOfRange

/-- The month of a day of a year counted from zero, with the day of the month;
`months` are left to be tried. -/
def monthFrom (y m : Nat) : (months day : Nat) → Nat × Nat
  | 0, day => (m, day)
  | months + 1, day =>
    if day < daysInMonth y m then (m, day) else monthFrom y (m + 1) months (day - daysInMonth y m)

/-- The year of a day counted from zero. -/
def yearOf (days : Nat) : Nat :=
  let estimate := days / 366 + 1
  let ahead := (List.range 30).filter fun i => daysBeforeYear (estimate + i) ≤ days
  match ahead.getLast? with
  | some i => estimate + i
  | none => estimate

/-- The date: year, month and day. -/
def date (t : Moment) : Nat × Nat × Nat :=
  let days := t.micros / dayMicros
  let y := yearOf days
  let (m, d) := monthFrom y 1 11 (days - daysBeforeYear y)
  (y, m, d + 1)

/-- Seconds since the start of the day. -/
def secondOfDay (t : Moment) : Nat := t.micros % dayMicros / 1000000

/-- The time of day to the second. -/
def clockText (t : Moment) : String :=
  let s := t.secondOfDay
  Number.padded 2 (s / 3600) ++ ":" ++ Number.padded 2 (s / 60 % 60) ++ ":" ++
    Number.padded 2 (s % 60)

/-- The date and the time of day; a fraction of a second is shown only if there
is one. -/
def text (t : Moment) : String :=
  let (y, m, d) := t.date
  let fraction := t.micros % 1000000
  Number.padded 4 y ++ "-" ++ Number.padded 2 m ++ "-" ++ Number.padded 2 d ++ "T" ++
    t.clockText ++ (if fraction == 0 then "" else "." ++ Number.padded 6 fraction)

/-- Microseconds in seconds. -/
def seconds (micros : Int) : Float :=
  let x := (Number.Binary64.ofQuotient micros.natAbs 1000000).getD (1 / 0)
  if micros < 0 then -x else x

/-- The microseconds from one moment to another. -/
def elapsed (start finish : Moment) : Int := finish.micros - start.micros

end Moment

/-- A clock that advances by the same step each time it is read. -/
structure Clock where
  /-- The first reading. -/
  start : Moment
  /-- Microseconds between two readings. -/
  step : Int := 0
  /-- How often the clock was read. -/
  readings : Nat := 0
deriving DecidableEq, Inhabited

namespace Clock

/-- Reads the clock. -/
def read (c : Clock) : Except Failure Moment × Clock :=
  (c.start.later (c.step * c.readings), { c with readings := c.readings + 1 })

end Clock

end FabricPaths
