import Mathlib.Data.Nat.Notation
import FabricPaths.Hostname
import FabricPaths.Proofs.Text.Stretch

/-!
# Names of hosts and their stems

A host name that is read off a description has no capital letters, and neither has its stem. The
names that are made up for nameless hosts are written with capitals and differ in their numbers
only. So no host name that was read is a made-up one, and no stem of one is the stem that all
made-up names have.
-/

namespace FabricPaths.Hostname

open Text

variable {c : Char} {hostname description : String}

/-- The stem of the names that are made up. -/
def anonymousStem : String := "ANONYMOUS"

/-- A digit does not belong to a stem. -/
theorem isStemChar_of_isDigit (h : c.isDigit = true) : isStemChar c = false := by
  simp only [Char.isDigit, Bool.and_eq_true, decide_eq_true_eq] at h
  have hcapital : ¬ 65 ≤ c.val := fun hle => absurd (UInt32.le_trans hle h.2) (by decide)
  have hsmall : ¬ 97 ≤ c.val := fun hle => absurd (UInt32.le_trans hle h.2) (by decide)
  have hhyphen : c ≠ '-' := fun heq => absurd (heq ▸ h.1 : 48 ≤ ('-' : Char).val) (by decide)
  have hupper : c.isUpper = false := decide_eq_false fun hle => hcapital hle.1
  have hlower : c.isLower = false := Bool.and_eq_false_imp.mpr fun hle =>
    absurd (of_decide_eq_true hle) hsmall
  change ((c.isUpper || c.isLower) || c == '-') = false
  rw [hupper, hlower, beq_eq_false_iff_ne.mpr hhyphen]
  rfl

/-- A host name that is read off a description consists of its characters. -/
theorem isNameChar_of_mem (h : c ∈ (ofDescription description).toList) : isNameChar c = true := by
  unfold ofDescription at h
  rw [String.toList_ofList] at h
  exact List.mem_takeWhile_imp h

/-- The characters of a stem are those of the host name. -/
theorem mem_of_mem_stem (h : c ∈ (stem hostname).toList) : c ∈ hostname.toList := by
  unfold stem at h
  rw [String.toList_ofList, List.mem_reverse] at h
  have hkept := (List.dropWhile_suffix _).subset h
  exact (List.takeWhile_prefix _).subset (List.mem_reverse.mp hkept)

/-- A made-up name is spelt as the stem with a hyphen, and its number. -/
theorem toList_anonymous (n : ℕ) :
    (anonymous n).toList = "ANONYMOUS-".toList ++ Nat.toDigits 10 n := by
  have hspelt : anonymous n = "ANONYMOUS-" ++ n.repr := rfl
  rw [hspelt, String.toList_append, Nat.toList_repr]

/-- Made-up names differ in their numbers. -/
theorem anonymous_injective : Function.Injective anonymous := by
  intro n m h
  have hspelt := congrArg String.toList h
  rw [toList_anonymous, toList_anonymous] at hspelt
  have hdigits := congrArg (Nat.ofDigitChars 10 · 0) (List.append_cancel_left hspelt)
  rwa [Nat.ofDigitChars_ten_toDigits, Nat.ofDigitChars_ten_toDigits] at hdigits

/-- A made-up name is not empty. -/
theorem anonymous_ne_empty (n : ℕ) : anonymous n ≠ "" := by
  intro h
  have hspelt := congrArg String.toList h
  rw [toList_anonymous] at hspelt
  cases hspelt

/-- No host name that is read off a description is a made-up one. -/
theorem ofDescription_ne_anonymous (description : String) (n : ℕ) :
    ofDescription description ≠ anonymous n := by
  intro h
  have hcapital : 'A' ∈ (anonymous n).toList := by
    rw [toList_anonymous]
    exact List.mem_cons_self
  exact absurd (isNameChar_of_mem (h ▸ hcapital)) (by decide)

/-- The stem of a made-up name does not depend on its number. -/
theorem stem_anonymous (n : ℕ) : stem (anonymous n) = anonymousStem := by
  have hletters : ∀ c ∈ "ANONYMOUS-".toList, isStemChar c = true :=
    List.all_eq_true.mp (by decide)
  have hstops : Stops isStemChar (Nat.toDigits 10 n) := by
    intro c hc
    exact isStemChar_of_isDigit
      (Nat.isDigit_of_mem_toDigits (by decide) (by decide) (List.mem_of_mem_head? hc))
  unfold stem
  rw [toList_anonymous, takeWhile_append_of_stops hletters hstops]
  rfl

/-- No host name that is read off a description has that stem. -/
theorem stem_ofDescription_ne (description : String) :
    stem (ofDescription description) ≠ anonymousStem := by
  intro h
  have hcapital : 'A' ∈ anonymousStem.toList := by decide
  exact absurd (isNameChar_of_mem (mem_of_mem_stem (h ▸ hcapital))) (by decide)

end FabricPaths.Hostname
