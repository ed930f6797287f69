import Mathlib.Data.List.Perm.Basic
import Mathlib.Data.Rat.Defs
import Mathlib.Tactic.Ring
import FabricPaths.Bandwidth

/-!
# Exact bandwidths

Doubles round, so that a bandwidth that was added and is taken away again leaves a trace.
Exact bandwidths do not: they are added up in any order, and taking one away undoes adding
it. The rationals are such bandwidths, with the data rate of each grade as it is defined.
-/

namespace FabricPaths.Bandwidth

/-- Bandwidths are added up in any order, and are taken away as they were added. -/
structure Exact (β : Type) [Bandwidth β] : Prop where
  /-- No bandwidth adds nothing. -/
  plus_none : ∀ x : β, plus x none = x
  /-- The order of two bandwidths does not matter. -/
  plus_comm : ∀ x y : β, plus x y = plus y x
  /-- The grouping of bandwidths does not matter. -/
  plus_assoc : ∀ x y z : β, plus (plus x y) z = plus x (plus y z)
  /-- What was added can be taken away. -/
  minus_plus : ∀ x y : β, minus (plus x y) y = x

variable {β : Type} [Bandwidth β]

/-- Bandwidths together. -/
def total (xs : List β) : β := xs.foldr plus none

namespace Exact

/-- The order of bandwidths does not matter. -/
theorem total_perm (exact : Exact β) {xs ys : List β} (h : xs.Perm ys) : total xs = total ys := by
  have hleft : LeftCommutative (plus : β → β → β) := by
    constructor
    intro x y z
    rw [← exact.plus_assoc, exact.plus_comm x y, exact.plus_assoc]
  exact h.foldr_eq none

/-- A bandwidth that comes last is added to the others. -/
theorem total_concat (exact : Exact β) (xs : List β) (x : β) :
    total (xs ++ [x]) = plus (total xs) x := by
  rw [exact.total_perm (List.perm_append_singleton x xs), exact.plus_comm]
  rfl

/-- A bandwidth among others that is taken away leaves the others. -/
theorem minus_total (exact : Exact β) {xs ys : List β} {x : β} (h : xs.Perm (x :: ys)) :
    minus (total xs) x = total ys := by
  rw [exact.total_perm h]
  change minus (plus x (total ys)) x = total ys
  rw [exact.plus_comm, exact.minus_plus]

end Exact

/-- The data rate of one lane: the signalling rate times the share that the line code
leaves. -/
def exactLaneRate : Speed → ℚ
  | .sdr => 5 / 2 * (8 / 10)
  | .ddr => 5 * (8 / 10)
  | .qdr => 10 * (8 / 10)
  | .fdr => 225 / 16 * (64 / 66)
  | .fdr10 => 10 * (64 / 66)
  | .edr => 25 * (64 / 66)

instance : Bandwidth ℚ where
  none := 0
  plus := (· + ·)
  minus := (· - ·)
  ofLanes lanes speed := lanes * exactLaneRate speed
  unrated := 1

/-- The rationals are exact bandwidths. -/
theorem exact_rat : Exact ℚ where
  plus_none := add_zero
  plus_comm := add_comm
  plus_assoc := add_assoc
  minus_plus := add_sub_cancel_right

end FabricPaths.Bandwidth
