import Mathlib.Data.List.TakeWhile
import FabricPaths.Text.Scan

/-!
# Pieces of a line

A run of characters of a class ends before the first character that is not of the class. A fixed
word and a field of a fixed length are read exactly where the line begins with them.
-/

namespace FabricPaths.Text

/-- A text of one digit, repeated, holds digits only. -/
theorem isDigit_of_mem_replicate {d : Char} (h : isDigit d = true) {n : Nat} :
    ∀ c ∈ List.replicate n d, isDigit c = true := by
  intro c hc
  rw [List.eq_of_mem_replicate hc]
  exact h

namespace Scan

variable {p : Char → Bool} {f : List Char} {c : Char}

/-- A run is taken up to its end. -/
theorem takeWhile_append_cons (hf : ∀ x ∈ f, p x = true) (hc : ¬ p c = true) (r : List Char) :
    (f ++ c :: r).takeWhile p = f := by
  rw [List.takeWhile_append_of_pos hf, List.takeWhile_cons_of_neg hc, List.append_nil]

/-- What is behind a run is left. -/
theorem dropWhile_append_cons (hf : ∀ x ∈ f, p x = true) (hc : ¬ p c = true) (r : List Char) :
    (f ++ c :: r).dropWhile p = c :: r := by
  rw [List.dropWhile_append_of_pos hf, List.dropWhile_cons_of_neg hc]

/-- A fixed word is read where the line begins with it, and the rest is left. -/
theorem word_eq_some_iff {w cs r : List Char} : word w cs = some r ↔ cs = w ++ r := by
  unfold word
  by_cases h : w.isPrefixOf cs = true
  · rw [if_pos h]
    have hsplit := List.prefix_iff_eq_append.mp (List.isPrefixOf_iff_prefix.mp h)
    constructor
    · intro hr
      rw [← Option.some.inj hr, hsplit]
    · intro hcs
      rw [hcs, List.drop_left]
  · rw [if_neg h]
    refine ⟨nofun, fun hcs => absurd ?_ h⟩
    rw [List.isPrefixOf_iff_prefix, hcs]
    exact List.prefix_append w r

/-- A field of a fixed length is read where the line begins with characters of the class in
that number. -/
theorem exactly_eq_some_iff {n : Nat} {cs r : List Char} :
    exactly p n cs = some (f, r) ↔ cs = f ++ r ∧ f.length = n ∧ ∀ x ∈ f, p x = true := by
  induction n generalizing cs f with
  | zero =>
    constructor
    · intro h
      cases h
      exact ⟨rfl, rfl, nofun⟩
    · rintro ⟨rfl, hlength, -⟩
      rw [List.eq_nil_of_length_eq_zero hlength]
      rfl
  | succ n ih =>
    cases cs with
    | nil =>
      refine ⟨nofun, ?_⟩
      rintro ⟨hnil, hlength, -⟩
      rw [(List.append_eq_nil_iff.mp hnil.symm).1] at hlength
      cases hlength
    | cons c cs =>
      rw [exactly]
      constructor
      · intro h
        obtain ⟨hc, h⟩ := Option.ite_none_right_eq_some.mp h
        obtain ⟨⟨g, r'⟩, hg, hpair⟩ := Option.map_eq_some_iff.mp h
        cases hpair
        obtain ⟨rfl, rfl, hall⟩ := ih.mp hg
        exact ⟨rfl, rfl, List.forall_mem_cons.mpr ⟨hc, hall⟩⟩
      · rintro ⟨hsplit, hlength, hall⟩
        cases f with
        | nil => cases hlength
        | cons x g =>
          rw [List.cons_append] at hsplit
          obtain ⟨rfl, rfl⟩ := List.cons.inj hsplit
          obtain ⟨hc, hrest⟩ := List.forall_mem_cons.mp hall
          rw [if_pos hc, ih.mpr ⟨rfl, Nat.succ.inj hlength, hrest⟩]
          rfl

end Scan

end FabricPaths.Text
