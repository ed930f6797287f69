import FabricPaths.Bandwidth
import FabricPaths.Proofs.Text.Scan

/-!
# Bandwidths that cannot be told

The bandwidth of a link of unknown grade is always told. With a known grade it
fails in two ways: the width spells a number of lanes that is not read, or one
that no bandwidth is computed for. Either way depends on speed and width alone,
not on the type of bandwidths.
-/

namespace FabricPaths.Bandwidth

/-- The width spells a number of lanes that is not read, and the grade is known. -/
def Overlong (speed width : String) : Prop :=
  ∃ grade e, Speed.ofCode? speed = some grade ∧ laneCount width = .error e

/-- The width tells more lanes than a bandwidth is computed for, and the grade is
known. -/
def Overfull (speed width : String) : Prop :=
  ∃ grade lanes, Speed.ofCode? speed = some grade ∧ laneCount width = .ok lanes ∧
    laneLimit ≤ lanes

/-- Why the bandwidth of a link cannot be told, if it cannot. -/
def failure? (speed width : String) : Option Failure :=
  match Speed.ofCode? speed, laneCount width with
  | .none, _ => .none
  | some _, .error e => some e
  | some _, .ok lanes => if laneLimit ≤ lanes then some .laneCountTooLarge else .none

/-- A bandwidth is told or fails as its speed and width say, whatever type it has. -/
theorem ofLink_cases {β : Type} [Bandwidth β] (speed width : String) :
    (∃ e, failure? speed width = some e ∧ ofLink (β := β) speed width = .error e) ∨
      ∃ gbits, failure? speed width = .none ∧ ofLink (β := β) speed width = .ok gbits := by
  unfold failure? ofLink
  generalize laneLimit = limit
  cases hgrade : Speed.ofCode? speed with
  | none => exact .inr ⟨_, rfl, rfl⟩
  | some grade =>
    cases hlanes : laneCount width with
    | error e => exact .inl ⟨e, rfl, rfl⟩
    | ok lanes =>
      by_cases hlimit : limit ≤ lanes
      · exact .inl ⟨_, if_pos hlimit, if_pos hlimit⟩
      · exact .inr ⟨_, if_neg hlimit, if_neg hlimit⟩

/-- A bandwidth fails for its own reason. -/
theorem ofLink_eq_error_iff {β : Type} [Bandwidth β] {speed width : String} {e : Failure} :
    ofLink (β := β) speed width = .error e ↔ failure? speed width = some e := by
  rcases ofLink_cases (β := β) speed width with ⟨e', hfailure, hlink⟩ | ⟨gbits, hfailure, hlink⟩
  · rw [hfailure, hlink, Except.error.injEq, Option.some.injEq]
  · rw [hfailure, hlink]
    exact ⟨nofun, nofun⟩

/-- A bandwidth that is told does not fail. -/
theorem failure?_of_ofLink {β : Type} [Bandwidth β] {speed width : String} {gbits : β}
    (h : ofLink speed width = .ok gbits) : failure? speed width = .none := by
  rcases ofLink_cases (β := β) speed width with ⟨e, -, hlink⟩ | ⟨-, hfailure, -⟩
  · rw [h] at hlink
    cases hlink
  · exact hfailure

/-- A number of lanes is not read only because it has too many digits. -/
theorem laneCount_error {width : String} {e : Failure} (h : laneCount width = .error e) :
    ∃ digits, Text.digitLimit < digits ∧ e = .numeralTooLong digits := by
  unfold laneCount at h
  dsimp only at h
  split at h
  · split at h
    · cases h
    · exact ⟨_, Text.readNumeral_eq_error_iff.mp h⟩
  · cases h

/-- Digits before an `x` spell the number of lanes. -/
theorem laneCount_ofDigits {digits rest : List Char} (hne : digits ≠ [])
    (hdigits : ∀ c ∈ digits, Text.isDigit c = true) :
    laneCount (String.ofList (digits ++ 'x' :: rest)) = Text.readNumeral digits := by
  unfold laneCount
  rw [String.toList_ofList]
  dsimp only
  rw [Text.Scan.takeWhile_append_cons hdigits (by decide),
    Text.Scan.dropWhile_append_cons hdigits (by decide)]
  exact if_neg fun hempty => hne (List.isEmpty_iff.mp hempty)

/-- A bandwidth fails in one of the two ways. -/
theorem failure?_eq_some_iff {speed width : String} {e : Failure} :
    failure? speed width = some e ↔
      (∃ grade, Speed.ofCode? speed = some grade ∧ laneCount width = .error e) ∨
        Overfull speed width ∧ e = .laneCountTooLarge := by
  unfold failure? Overfull
  cases hgrade : Speed.ofCode? speed with
  | none => simp
  | some grade =>
    cases hlanes : laneCount width with
    | error e' => simp
    | ok lanes =>
      by_cases hlimit : laneLimit ≤ lanes
      · simp only [if_pos hlimit, Option.some.injEq]
        constructor
        · rintro rfl
          exact .inr ⟨⟨grade, lanes, rfl, rfl, hlimit⟩, rfl⟩
        · rintro (⟨-, -, h⟩ | ⟨-, rfl⟩)
          · cases h
          · rfl
      · simp only [if_neg hlimit]
        constructor
        · nofun
        · rintro (⟨-, -, h⟩ | ⟨⟨-, lanes', -, h, hle⟩, -⟩)
          · cases h
          · cases h
            exact absurd hle hlimit

/-- A failure that comes from more lanes than can be computed with is no other. -/
theorem failure?_eq_laneCountTooLarge_iff {speed width : String} :
    failure? speed width = some .laneCountTooLarge ↔ Overfull speed width := by
  rw [failure?_eq_some_iff]
  constructor
  · rintro (⟨grade, -, h⟩ | ⟨h, -⟩)
    · obtain ⟨digits, -, hdigits⟩ := laneCount_error h
      cases hdigits
    · exact h
  · exact fun h => .inr ⟨h, rfl⟩

/-- A failure spoils no more than a line exactly if it comes from a number that is
not read. -/
theorem spoilsLine_of_failure?_iff {speed width : String} {e : Failure}
    (h : failure? speed width = some e) : e.spoilsLine = true ↔ Overlong speed width := by
  rcases failure?_eq_some_iff.mp h with
    ⟨grade, hgrade, hlanes⟩ | ⟨⟨grade, lanes, hgrade, hlanes, -⟩, rfl⟩
  · obtain ⟨digits, -, rfl⟩ := laneCount_error hlanes
    exact ⟨fun _ => ⟨grade, _, hgrade, hlanes⟩, fun _ => rfl⟩
  · constructor
    · nofun
    · rintro ⟨-, e, -, he⟩
      rw [hlanes] at he
      cases he

end FabricPaths.Bandwidth
