import FabricPaths.Event

/-!
# Figures of events

A figure that an event tells can be written unless it has too many digits, which happens to no
figure that was counted.
-/

namespace FabricPaths

namespace Figure

/-- The number has more digits than are written. -/
def TooLong : Figure → Prop
  | counted _ => False
  | given n => ¬ Text.IsWritable n

variable {f : Figure}

/-- A number that is too long is not written. -/
theorem text_of_tooLong (h : f.TooLong) : f.text = .error .numberTooLong := by
  cases f with
  | counted n => exact h.elim
  | given n => exact Text.writeNumeral_of_not_isWritable h

/-- Any other number is written. -/
theorem exists_text (h : ¬ f.TooLong) : ∃ text, f.text = .ok text := by
  cases f with
  | counted n => exact ⟨_, rfl⟩
  | given n => exact ⟨_, Text.writeNumeral_of_isWritable (Classical.not_not.mp h)⟩

/-- No number that was counted is too long. -/
@[simp] theorem not_tooLong_counted (n : Int) : ¬ (counted n).TooLong := id

/-- The figure that events have by default is not too long. -/
@[simp] theorem not_tooLong_zero : ¬ (given 0).TooLong :=
  fun h => h (Nat.lt_trans Nat.one_pos Text.one_lt_numberLimit)

/-- The number of a partition that has none is not too long. -/
@[simp] theorem not_tooLong_unnumbered : ¬ (given (-1)).TooLong :=
  fun h => h Text.one_lt_numberLimit

/-- A number that is too long is not zero. -/
theorem value_ne_zero_of_tooLong (h : f.TooLong) : f.value ≠ 0 := by
  cases f with
  | counted n => exact h.elim
  | given n =>
    rintro rfl
    exact not_tooLong_zero h

end Figure

namespace Event

/-- The figures that are shown when a subnet is done with. -/
def subnetFigures (e : Event) : List Figure := [e.nodes, e.links, e.pathsComplete, e.pathsMissing]

/-- The figures of the event can be written. -/
def Legible (e : Event) : Prop :=
  ∀ f ∈ e.partitionIndex :: e.subnets :: e.subnetFigures, ¬ f.TooLong

end Event

end FabricPaths
