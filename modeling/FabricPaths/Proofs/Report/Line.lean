import FabricPaths.Report.Line

/-!
# Numbered lines

Numbering the lines of a source keeps their number, their texts and their order.
-/

namespace FabricPaths.SourceLine

/-- There are as many numbered lines as lines. -/
theorem length_number (source : String) (first : Nat) (lines : List String) :
    (number source first lines).length = lines.length := by
  induction lines generalizing first with
  | nil => rfl
  | cons raw lines ih => rw [number, List.length_cons, List.length_cons, ih]

/-- Numbering lines leaves their texts. -/
theorem map_raw_number (source : String) (first : Nat) (lines : List String) :
    (number source first lines).map (·.raw) = lines := by
  induction lines generalizing first with
  | nil => rfl
  | cons raw lines ih => rw [number, List.map_cons, ih]

/-- The lines before a line are numbered before it. -/
theorem number_append (source : String) (first : Nat) (before : List String) (raw : String)
    (after : List String) : ∃ l later, l.raw = raw ∧
      number source first (before ++ raw :: after) =
        number source first before ++ l :: later := by
  induction before generalizing first with
  | nil => exact ⟨_, _, rfl, rfl⟩
  | cons x before ih =>
    obtain ⟨l, later, hl, hnumber⟩ := ih (first + 1)
    refine ⟨l, later, hl, ?_⟩
    rw [List.cons_append, number, hnumber, number, List.cons_append]

end FabricPaths.SourceLine
