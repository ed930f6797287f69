import Mathlib.Data.List.Basic

/-!
# Sorted pairs

Pairs are sorted by their first parts, and by their second parts where the first parts are the
same. No two different pairs are tied, so that the sorted list of some pairs does not depend on the
order in which they come.
-/

namespace FabricPaths

variable {α : Type} [LT α] [LE α] [Std.IsLinearOrder α] [Std.LawfulOrderLT α]

/-- The comparison is that of first parts, and of second parts where the first are the same. -/
def ComparesPairs (le : α × String → α × String → Bool) : Prop :=
  ∀ a b, le a b = true ↔ a.1 < b.1 ∨ a.1 = b.1 ∧ a.2 ≤ b.2

namespace ComparesPairs

variable {le : α × String → α × String → Bool} {xs ys : List (α × String)}

/-- What comes before something comes before all that comes behind it. -/
theorem trans (h : ComparesPairs le) (a b c : α × String) (hab : le a b = true)
    (hbc : le b c = true) : le a c = true := by
  rw [h] at hab hbc ⊢
  rcases hab with hab | ⟨hab, hab'⟩
  · rcases hbc with hbc | ⟨hbc, -⟩
    · exact .inl (Std.lt_trans hab hbc)
    · exact .inl (hbc ▸ hab)
  · rcases hbc with hbc | ⟨hbc, hbc'⟩
    · exact .inl (hab ▸ hbc)
    · exact .inr ⟨hab.trans hbc, String.le_trans hab' hbc'⟩

/-- Of two pairs one comes before the other. -/
theorem total (h : ComparesPairs le) (a b : α × String) : (le a b || le b a) = true := by
  rw [Bool.or_eq_true, h, h]
  rcases Std.lt_trichotomy a.1 b.1 with hlt | heq | hgt
  · exact .inl (.inl hlt)
  · exact (String.le_total a.2 b.2).imp (fun hle => .inr ⟨heq, hle⟩)
      fun hle => .inr ⟨heq.symm, hle⟩
  · exact .inr (.inl hgt)

/-- Different pairs are not tied. -/
theorem antisymm (h : ComparesPairs le) {a b : α × String} (hab : le a b = true)
    (hba : le b a = true) : a = b := by
  rw [h] at hab hba
  rcases hab with hab | ⟨hab, hab'⟩
  · rcases hba with hba | ⟨hba, -⟩
    · exact absurd (Std.lt_trans hab hba) Std.lt_irrefl
    · exact absurd (hba ▸ hab) Std.lt_irrefl
  · rcases hba with hba | ⟨-, hba'⟩
    · exact absurd (hab ▸ hba) Std.lt_irrefl
    · exact Prod.ext hab (String.le_antisymm hab' hba')

/-- The sorted list is in order. -/
theorem pairwise (h : ComparesPairs le) (xs : List (α × String)) :
    (xs.mergeSort le).Pairwise fun a b => a.1 < b.1 ∨ a.1 = b.1 ∧ a.2 ≤ b.2 :=
  (List.pairwise_mergeSort h.trans h.total xs).imp fun {a b} hab => (h a b).mp hab

/-- The sorted list is the same in whatever order the pairs come. -/
theorem mergeSort_eq_of_perm (h : ComparesPairs le) (hperm : xs.Perm ys) :
    xs.mergeSort le = ys.mergeSort le := by
  have hsorted := List.pairwise_mergeSort h.trans h.total
  have hboth : (xs.mergeSort le).Perm (ys.mergeSort le) :=
    (List.mergeSort_perm xs le).trans (hperm.trans (List.mergeSort_perm ys le).symm)
  exact hboth.eq_of_pairwise (fun _ _ _ _ => h.antisymm) (hsorted xs) (hsorted ys)

end ComparesPairs

end FabricPaths
