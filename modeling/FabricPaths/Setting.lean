import FabricPaths.Json.Basic

/-!
# Settings

What a program was given for a setting that may be left out. A setting can also
be given without a value; such a setting, like an empty text, chooses nothing,
but reports tell it from one that was left out.
-/

namespace FabricPaths

/-- What was given for a setting. -/
inductive Setting
  /-- It was left out. -/
  | absent
  /-- It was given without a value. -/
  | valueless
  /-- A text was given. -/
  | text (s : String)
deriving DecidableEq, Inhabited

namespace Setting

/-- The setting that was given with a value, or without one. -/
def ofValue : Option String → Setting
  | some s => text s
  | none => valueless

/-- The text that the setting chooses, which is not empty. -/
def chosen? : Setting → Option String
  | text s => if s.isEmpty then none else some s
  | _ => none

/-- The setting as reports show it: without a value it is an empty list. -/
def toJson : Setting → Json
  | absent => .null
  | valueless => .arr []
  | text s => .str s

/-- A setting chooses a text exactly if the text was given and is not empty. -/
theorem chosen?_eq_some_iff (x : Setting) (s : String) :
    x.chosen? = some s ↔ x = text s ∧ s ≠ "" := by
  cases x with
  | absent => simp [chosen?]
  | valueless => simp [chosen?]
  | text t =>
    simp only [chosen?, String.isEmpty_iff, Option.ite_none_left_eq_some, Option.some.injEq,
      text.injEq]
    constructor
    · rintro ⟨h, rfl⟩
      exact ⟨rfl, h⟩
    · rintro ⟨rfl, h⟩
      exact ⟨h, rfl⟩

end Setting

end FabricPaths
