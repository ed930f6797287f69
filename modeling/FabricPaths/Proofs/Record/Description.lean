import Mathlib.Data.List.Infix
import FabricPaths.Proofs.Text.Stretch
import FabricPaths.Record.Discovery.Reader

/-!
# The division of descriptions

The description of a cable joins those of its two ends by a separator, a hyphen between blanks.
A description is divided at its last separator. So what was joined is recovered if the second
part adds no separator, whatever stands in the first part; a description without separators has
no parts.
-/

namespace FabricPaths.Discovery

open Text

/-- The text has a separator: a hyphen between two blanks. -/
def Separated (cs : List Char) : Prop :=
  ∃ a b, isBlank a = true ∧ isBlank b = true ∧ [a, '-', b] <:+: cs

variable {c a b : Char} {cs l r : List Char}

/-! ## Separators -/

/-- There is no separator in an empty text. -/
theorem not_separated_nil : ¬ Separated [] := by
  rintro ⟨a, b, -, -, hinfix⟩
  cases List.infix_nil.mp hinfix

/-- A text has a separator at its beginning or behind its first character. -/
theorem separated_cons_iff : Separated (c :: cs) ↔
    (isBlank c = true ∧ ∃ b r, isBlank b = true ∧ cs = '-' :: b :: r) ∨ Separated cs := by
  unfold Separated
  constructor
  · rintro ⟨a, b, ha, hb, hinfix⟩
    rcases List.infix_cons_iff.mp hinfix with ⟨r, hprefix⟩ | hbehind
    · obtain ⟨rfl, rfl⟩ := List.cons.inj hprefix
      exact .inl ⟨ha, b, r, hb, rfl⟩
    · exact .inr ⟨a, b, ha, hb, hbehind⟩
  · rintro (⟨hc, b, r, hb, rfl⟩ | ⟨a, b, ha, hb, hbehind⟩)
    · exact ⟨c, b, hc, hb, [], r, rfl⟩
    · exact ⟨a, b, ha, hb, List.infix_cons hbehind⟩

/-- A text has a separator if it has one behind a beginning. -/
theorem Separated.append (h : Separated cs) (before : List Char) : Separated (before ++ cs) := by
  obtain ⟨a, b, ha, hb, hinfix⟩ := h
  exact ⟨a, b, ha, hb, List.infix_append_of_infix_right hinfix⟩

/-- A hyphen that is no blank before a text makes no separator of it. -/
theorem separated_hyphen_cons_iff : Separated ('-' :: cs) ↔ Separated cs := by
  have hhyphen : isBlank '-' = false := by decide
  simp only [separated_cons_iff, hhyphen, Bool.false_eq_true, false_and, false_or]

/-- A hyphen between stretches of blanks is a separator. -/
theorem separated_stretches (s s' : Stretch isBlank) (r : List Char) :
    Separated (s.chars ++ '-' :: (s'.chars ++ r)) := by
  obtain ⟨b, t', hs', hb⟩ := s'.eq_cons
  have hlast : isBlank (s.chars.getLast s.ne_nil) = true := s.all _ (List.getLast_mem s.ne_nil)
  have hsplit : s.chars ++ '-' :: (s'.chars ++ r) =
      s.chars.dropLast ++ (s.chars.getLast s.ne_nil :: '-' :: b :: (t' ++ r)) := by
    conv_lhs => rw [← List.dropLast_append_getLast s.ne_nil]
    simp only [hs', List.append_assoc, List.cons_append, List.nil_append]
  rw [hsplit]
  exact (separated_cons_iff.mpr (.inl ⟨hlast, b, t' ++ r, hb, rfl⟩)).append _

/-! ## Where a text is divided -/

/-- A separator is read at the beginning of a text with all blanks around its hyphen. -/
theorem behindSeparator_eq_some_iff : behindSeparator cs = some r ↔
    ∃ s s' : Stretch isBlank, cs = s.chars ++ '-' :: (s'.chars ++ r) ∧ Stops isBlank r := by
  unfold behindSeparator
  simp only [bind, Option.bind_eq_some_iff, Scan.word_eq_some_iff, Scan.blanks_eq_some_iff]
  constructor
  · rintro ⟨_, ⟨s, rfl, -⟩, _, rfl, s', rfl, hr⟩
    exact ⟨s, s', rfl, hr⟩
  · rintro ⟨s, s', rfl, hr⟩
    exact ⟨'-' :: (s'.chars ++ r), ⟨s, rfl, stops_cons_iff.mpr (by decide)⟩, s'.chars ++ r, rfl,
      s', rfl, hr⟩

/-- A separator is read where a text begins with it. -/
theorem behindSeparator_cons (ha : isBlank a = true) (hb : isBlank b = true) (r : List Char) :
    behindSeparator (a :: '-' :: b :: r) = some (dropBlanks r) := by
  have hall : ∀ x ∈ b :: r.takeWhile isBlank, isBlank x = true :=
    List.forall_mem_cons.mpr ⟨hb, fun x hx => List.mem_takeWhile_imp hx⟩
  have hsplit : r.takeWhile isBlank ++ dropBlanks r = r := List.takeWhile_append_dropWhile
  refine behindSeparator_eq_some_iff.mpr
    ⟨.single ha, ⟨_, List.cons_ne_nil _ _, hall⟩, ?_, stops_dropWhile isBlank r⟩
  rw [List.cons_append, hsplit]
  rfl

/-- A separator that is read before a text without separators begins with one blank, behind which
is the hyphen. -/
theorem behindSeparator_of_last (h : behindSeparator (c :: cs) = some r) (hcs : ¬ Separated cs) :
    isBlank c = true ∧ ∃ s : Stretch isBlank, cs = '-' :: (s.chars ++ r) ∧ Stops isBlank r ∧
      ¬ Separated (s.chars ++ r) := by
  obtain ⟨s, s', hsplit, hr⟩ := behindSeparator_eq_some_iff.mp h
  obtain ⟨a, t, hs, ha⟩ := s.eq_cons
  rw [hs, List.cons_append] at hsplit
  obtain ⟨rfl, rfl⟩ := List.cons.inj hsplit
  cases t with
  | nil => exact ⟨ha, s', rfl, hr, mt separated_hyphen_cons_iff.mpr hcs⟩
  | cons x t =>
    have ht : ∀ y ∈ x :: t, isBlank y = true := by
      intro y hy
      have hmem : y ∈ s.chars := by rw [hs]; exact List.mem_cons_of_mem c hy
      exact s.all y hmem
    exact absurd (separated_stretches ⟨x :: t, List.cons_ne_nil _ _, ht⟩ s' r) hcs

/-- No separator is read at the beginning of a text without one. -/
theorem behindSeparator_eq_none (h : ¬ Separated cs) : behindSeparator cs = none := by
  rw [Option.eq_none_iff_forall_ne_some]
  intro r hr
  obtain ⟨s, s', rfl, -⟩ := behindSeparator_eq_some_iff.mp hr
  exact h (separated_stretches s s' r)

/-- On a line that goes on, a text is divided behind its first character, or else at its
beginning. -/
theorem divide_cons (hc : c ≠ '\n') (cs : List Char) : divide (c :: cs) =
    match divide cs with
    | some (left, right) => some (c :: left, right)
    | none => (behindSeparator (c :: cs)).map fun r => ([], Scan.lineRest r) := by
  have hfeed : (c == '\n') = false := beq_eq_false_iff_ne.mpr hc
  rw [divide, hfeed]
  cases divide cs with
  | some parts => rfl
  | none => rfl

/-- A text of one line is not divided exactly if it has no separator. -/
theorem divide_eq_none_iff (hline : '\n' ∉ cs) : divide cs = none ↔ ¬ Separated cs := by
  induction cs with
  | nil => exact iff_of_true rfl not_separated_nil
  | cons c cs ih =>
    obtain ⟨hc, hcs⟩ := not_or.mp (mt List.mem_cons.mpr hline)
    have hdivide := divide_cons (Ne.symm hc) cs
    by_cases hlater : Separated cs
    · have hsome : divide cs ≠ none := fun hnone => (ih hcs).mp hnone hlater
      obtain ⟨⟨l, r⟩, hlr⟩ := Option.ne_none_iff_exists'.mp hsome
      rw [hdivide, hlr]
      exact iff_of_false nofun fun h => h (separated_cons_iff.mpr (.inr hlater))
    · rw [hdivide, (ih hcs).mpr hlater]
      simp only [Option.map_eq_none_iff]
      constructor
      · intro hnone hseparated
        rcases separated_cons_iff.mp hseparated with ⟨hblank, b, r, hb, rfl⟩ | hbehind
        · rw [behindSeparator_cons hblank hb] at hnone
          cases hnone
        · exact hlater hbehind
      · exact behindSeparator_eq_none

/-- A text of one line is divided at its last separator: the first part goes up to the blank
before the hyphen, and the second part begins where the blanks behind the hyphen end. -/
theorem divide_eq_some_iff (hline : '\n' ∉ cs) : divide cs = some (l, r) ↔
    ∃ a, isBlank a = true ∧ ∃ s : Stretch isBlank, cs = l ++ a :: '-' :: (s.chars ++ r) ∧
      Stops isBlank r ∧ ¬ Separated (s.chars ++ r) := by
  have hsuffix : ∀ (s : Stretch isBlank) (r : List Char), r ⊆ '-' :: (s.chars ++ r) :=
    fun s r c hc => List.mem_cons_of_mem '-' (List.mem_append_right s.chars hc)
  induction cs generalizing l with
  | nil =>
    refine iff_of_false nofun ?_
    rintro ⟨a, -, s, hsplit, -⟩
    cases (List.append_eq_nil_iff.mp hsplit.symm).2
  | cons c cs ih =>
    obtain ⟨hc, hcs⟩ := not_or.mp (mt List.mem_cons.mpr hline)
    rw [divide_cons (Ne.symm hc) cs]
    constructor
    · intro h
      cases hlater : divide cs with
      | some parts =>
        obtain ⟨l', r'⟩ := parts
        rw [hlater] at h
        cases h
        obtain ⟨a, ha, s, rfl, hr, hlast⟩ := (ih hcs).mp hlater
        exact ⟨a, ha, s, rfl, hr, hlast⟩
      | none =>
        rw [hlater] at h
        obtain ⟨r', hr', hpair⟩ := Option.map_eq_some_iff.mp h
        obtain ⟨rfl, rfl⟩ := Prod.mk.inj hpair
        obtain ⟨ha, s, rfl, hr, hnone⟩ :=
          behindSeparator_of_last hr' ((divide_eq_none_iff hcs).mp hlater)
        have hline' : '\n' ∉ r' := fun hmem => hcs (hsuffix s r' hmem)
        rw [Scan.lineRest_eq_self hline']
        exact ⟨c, ha, s, rfl, hr, hnone⟩
    · rintro ⟨a, ha, s, hsplit, hr, hlast⟩
      cases l with
      | nil =>
        obtain ⟨rfl, rfl⟩ := List.cons.inj hsplit
        have hread : behindSeparator (c :: '-' :: (s.chars ++ r)) = some r :=
          behindSeparator_eq_some_iff.mpr ⟨.single ha, s, rfl, hr⟩
        have hnone : divide ('-' :: (s.chars ++ r)) = none :=
          (divide_eq_none_iff hcs).mpr (mt separated_hyphen_cons_iff.mp hlast)
        have hline' : '\n' ∉ r := fun hmem => hcs (hsuffix s r hmem)
        rw [hnone, hread]
        simp only [Option.map_some, Scan.lineRest_eq_self hline']
      | cons x l =>
        obtain ⟨rfl, rfl⟩ := List.cons.inj hsplit
        rw [(ih hcs).mpr ⟨a, ha, s, rfl, hr, hlast⟩]

/-! ## Descriptions -/

/-- A description of one line that was joined from two parts is divided into these parts if the
second one does not begin with a blank and adds no separator, whatever stands in the first one. A
description of one line without separators has no parts. -/
theorem split_inverts_join :
    (∀ l r : String, '\n' ∉ l.toList → '\n' ∉ r.toList → Stops isBlank r.toList →
      ¬ Separated (" " ++ r).toList → splitDescription (l ++ " - " ++ r) = (l, r)) ∧
    ∀ s : String, '\n' ∉ s.toList → ¬ Separated s.toList → splitDescription s = ("", "") := by
  constructor
  · intro l r hl hr hstops hlast
    have hspace : isBlank ' ' = true := by decide
    have hchars : (l ++ " - " ++ r).toList =
        l.toList ++ ' ' :: '-' :: ((Stretch.single hspace).chars ++ r.toList) := by
      simp only [String.toList_append, List.append_assoc]
      rfl
    have hline : '\n' ∉ (l ++ " - " ++ r).toList := by
      simp only [String.toList_append, List.mem_append, not_or]
      exact ⟨⟨hl, by decide⟩, hr⟩
    have hjoined : ¬ Separated ((Stretch.single hspace).chars ++ r.toList) := by
      rwa [String.toList_append] at hlast
    have hdivide := (divide_eq_some_iff hline).mpr ⟨' ', hspace, _, hchars, hstops, hjoined⟩
    simp only [splitDescription, hdivide, String.ofList_toList]
  · intro s hs hnone
    simp only [splitDescription, (divide_eq_none_iff hs).mpr hnone]

/-- A description whose first part has separators of its own, and ends with a blank, is divided
into its parts, and a hyphen with a blank on one side only divides nothing. -/
theorem crowdedDescription_split :
    '\n' ∉ "x -  - y ".toList ∧ '\n' ∉ "-z".toList ∧ Stops isBlank "-z".toList ∧
      ¬ Separated (" " ++ "-z").toList ∧
      splitDescription ("x -  - y " ++ " - " ++ "-z") = ("x -  - y ", "-z") ∧
      '\n' ∉ "x -y".toList ∧ ¬ Separated "x -y".toList ∧ splitDescription "x -y" = ("", "") := by
  have hl : '\n' ∉ "x -  - y ".toList := by decide
  have hr : '\n' ∉ "-z".toList := by decide
  have hstops : Stops isBlank "-z".toList := stops_cons_iff.mpr (by decide)
  have hlast : ¬ Separated (" " ++ "-z").toList := by
    simp [separated_cons_iff, not_separated_nil, show isBlank 'z' = false by decide]
  have hs : '\n' ∉ "x -y".toList := by decide
  have hnone : ¬ Separated "x -y".toList := by
    simp [separated_cons_iff, not_separated_nil, show isBlank 'y' = false by decide]
  exact ⟨hl, hr, hstops, hlast, split_inverts_join.1 _ _ hl hr hstops hlast, hs, hnone,
    split_inverts_join.2 _ hs hnone⟩

end FabricPaths.Discovery
