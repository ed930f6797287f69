import Mathlib.Data.List.Infix
import FabricPaths.Proofs.Text.Stretch
import FabricPaths.Record.Route

/-!
# Which switch a header line names

A header line introduces the GUID of its switch and then holds the description of the switch,
which is any text. The GUID that is read is the last one that is introduced on the line, so that
a description that introduces one stands in for the switch. A line feed before the GUID leaves
the line without one.
-/

namespace FabricPaths.Route

open Text

/-- The text is a GUID as dumps spell it. -/
def IsGuid (guid : List Char) : Prop := guid.length = 16 ∧ ∀ c ∈ guid, isLowerHex c = true

instance (guid : List Char) : Decidable (IsGuid guid) :=
  decidable_of_iff (guid.length = 16 ∧ guid.all isLowerHex = true)
    (and_congr_right' List.all_eq_true)

/-- The word introduces the GUID. -/
def IsIntroduction (w guid : List Char) : Prop :=
  IsGuid guid ∧ ∃ b, b ≠ [] ∧ (∀ c ∈ b, isBlank c = true) ∧
    w = "guid".toList ++ (b ++ ("0x".toList ++ guid))

/-- The text introduces the GUID somewhere. -/
def Introduces (text guid : List Char) : Prop := ∃ w, IsIntroduction w guid ∧ w <:+: text

/-- The text introduces the GUID, and none behind it. -/
def IntroducesLast (text guid : List Char) : Prop :=
  ∃ before w behind, IsIntroduction w guid ∧ text = before ++ (w ++ behind) ∧
    ∀ h, ¬ Introduces behind h

/-! ## Introductions -/

section Introductions

variable {c : Char} {w guid text : List Char}

/-- Behind its first letter, an introduction holds the rest of the two fixed words, blanks and
digits. -/
theorem IsIntroduction.mem_cases (h : IsIntroduction w guid) : ∃ u, w = 'g' :: u ∧
    ∀ c ∈ u, c ∈ "uid0x".toList ∨ isBlank c = true ∨ isLowerHex c = true := by
  obtain ⟨⟨-, hguid⟩, b, -, hb, rfl⟩ := h
  refine ⟨_, rfl, fun c hc => ?_⟩
  rcases List.mem_append.mp hc with hword | hc
  · exact .inl (List.mem_append_left ['0', 'x'] hword)
  rcases List.mem_append.mp hc with hblank | hc
  · exact .inr (.inl (hb c hblank))
  rcases List.mem_append.mp hc with hmark | hdigit
  · exact .inl (List.mem_append_right ['u', 'i', 'd'] hmark)
  · exact .inr (.inr (hguid c hdigit))

/-- An introduction begins with a letter that it does not hold again. -/
theorem IsIntroduction.eq_cons (h : IsIntroduction w guid) : ∃ u, w = 'g' :: u ∧ 'g' ∉ u := by
  obtain ⟨u, rfl, hu⟩ := h.mem_cases
  exact ⟨u, rfl, fun hg => absurd (hu _ hg) (by decide)⟩

/-- There are no brackets in an introduction. -/
theorem IsIntroduction.bracket_not_mem (h : IsIntroduction w guid) : ')' ∉ w := by
  obtain ⟨u, rfl, hu⟩ := h.mem_cases
  intro hmem
  rcases List.mem_cons.mp hmem with hg | hu'
  · exact absurd hg (by decide)
  · exact absurd (hu _ hu') (by decide)

/-- An empty text introduces nothing. -/
theorem not_introduces_nil : ¬ Introduces [] guid := by
  rintro ⟨w, hw, hinfix⟩
  obtain ⟨u, rfl, -⟩ := hw.eq_cons
  cases List.infix_nil.mp hinfix

/-- There is the letter of introductions where a GUID is introduced. -/
theorem Introduces.mem (h : Introduces text guid) : 'g' ∈ text := by
  obtain ⟨w, hw, hinfix⟩ := h
  obtain ⟨u, rfl, -⟩ := hw.eq_cons
  exact hinfix.subset List.mem_cons_self

/-- A text introduces a GUID at its beginning or behind its first character. -/
theorem introduces_cons_iff : Introduces (c :: text) guid ↔
    (∃ w, IsIntroduction w guid ∧ w <+: c :: text) ∨ Introduces text guid := by
  unfold Introduces
  simp only [List.infix_cons_iff, and_or_left, exists_or]

/-- No introduction begins with another letter. -/
theorem not_opens (hc : c ≠ 'g') : ¬ ∃ w, IsIntroduction w guid ∧ w <+: c :: text := by
  rintro ⟨w, hw, hprefix⟩
  obtain ⟨u, rfl, -⟩ := hw.eq_cons
  exact hc (List.cons_prefix_cons.mp hprefix).1.symm

/-- A text without the letter of introductions adds none to what follows it. -/
theorem introduces_append_iff {before : List Char} (hg : 'g' ∉ before) :
    Introduces (before ++ text) guid ↔ Introduces text guid := by
  induction before with
  | nil => rw [List.nil_append]
  | cons c before ih =>
    obtain ⟨hc, hbefore⟩ := not_or.mp (mt List.mem_cons.mpr hg)
    rw [List.cons_append, introduces_cons_iff, ih hbefore]
    exact or_iff_right (not_opens (Ne.symm hc))

/-- A text introduces a GUID last behind its first character, or at its beginning if none is
introduced behind that. -/
theorem introducesLast_cons_iff : IntroducesLast (c :: text) guid ↔
    IntroducesLast text guid ∨ (∀ h, ¬ Introduces text h) ∧
      ∃ w, IsIntroduction w guid ∧ w <+: c :: text := by
  constructor
  · rintro ⟨before, w, behind, hw, htext, hbehind⟩
    cases before with
    | nil =>
      obtain ⟨u, rfl, hu⟩ := hw.eq_cons
      obtain ⟨rfl, rfl⟩ := List.cons.inj htext
      exact .inr ⟨fun h => mt (introduces_append_iff hu).mp (hbehind h), _, hw,
        List.prefix_append _ _⟩
    | cons x before =>
      obtain ⟨rfl, rfl⟩ := List.cons.inj htext
      exact .inl ⟨before, w, behind, hw, rfl, hbehind⟩
  · rintro (⟨before, w, behind, hw, rfl, hbehind⟩ | ⟨hnone, w, hw, behind, htext⟩)
    · exact ⟨c :: before, w, behind, hw, rfl, hbehind⟩
    · refine ⟨[], w, behind, hw, htext.symm, fun h => ?_⟩
      obtain ⟨u, rfl, hu⟩ := hw.eq_cons
      obtain ⟨-, rfl⟩ := List.cons.inj htext
      exact mt (introduces_append_iff hu).mpr (hnone h)

/-- A text without the letter of introductions does not change what is introduced last. -/
theorem introducesLast_append_iff {before : List Char} (hg : 'g' ∉ before) :
    IntroducesLast (before ++ text) guid ↔ IntroducesLast text guid := by
  induction before with
  | nil => rw [List.nil_append]
  | cons c before ih =>
    obtain ⟨hc, hbefore⟩ := not_or.mp (mt List.mem_cons.mpr hg)
    rw [List.cons_append, introducesLast_cons_iff, ih hbefore]
    exact or_iff_left fun hopens => not_opens (Ne.symm hc) hopens.2

/-- What is introduced last is introduced. -/
theorem IntroducesLast.introduces (h : IntroducesLast text guid) : Introduces text guid := by
  obtain ⟨before, w, behind, hw, rfl, -⟩ := h
  exact ⟨w, hw, before, behind, List.append_assoc _ _ _⟩

/-- What is introduced last behind a text is introduced last. -/
theorem IntroducesLast.append (h : IntroducesLast text guid) (before : List Char) :
    IntroducesLast (before ++ text) guid := by
  induction before with
  | nil => exact h
  | cons c before ih => exact introducesLast_cons_iff.mpr (.inl ih)

/-- If a GUID is introduced, one is introduced last. -/
theorem exists_introducesLast (h : Introduces text guid) : ∃ last, IntroducesLast text last := by
  induction text generalizing guid with
  | nil => exact absurd h not_introduces_nil
  | cons c text ih =>
    by_cases hlater : ∃ later, Introduces text later
    · obtain ⟨later, hlater⟩ := hlater
      obtain ⟨last, hlast⟩ := ih hlater
      exact ⟨last, introducesLast_cons_iff.mpr (.inl hlast)⟩
    · rcases introduces_cons_iff.mp h with hopens | htext
      · exact ⟨guid, introducesLast_cons_iff.mpr (.inr ⟨not_exists.mp hlater, hopens⟩)⟩
      · exact absurd ⟨guid, htext⟩ hlater

end Introductions

/-! ## The GUID that is read -/

section Reading

variable {cs text guid : List Char}

/-- What two splits of a text have in common if the first piece lacks the character at which the
other split is. -/
theorem exists_eq_append_of_not_mem {w rest before behind : List Char} {c : Char}
    (h : w ++ rest = before ++ c :: behind) (hc : c ∉ w) :
    ∃ t, before = w ++ t ∧ rest = t ++ c :: behind := by
  rcases List.append_eq_append_iff.mp h with ⟨t, hbefore, hrest⟩ | ⟨t, hw, hbehind⟩
  · exact ⟨t, hbefore, hrest⟩
  · cases t with
    | nil => exact ⟨[], by rw [hw, List.append_nil, List.append_nil], hbehind.symm⟩
    | cons x t =>
      obtain ⟨rfl, -⟩ := List.cons.inj hbehind
      exact absurd (hw ▸ List.mem_append_right before List.mem_cons_self) hc

/-- A GUID is read where it is introduced and a colon follows on the line. -/
theorem scanHeaderGuid_eq_some_iff : scanHeaderGuid cs = some guid ↔
    ∃ w rest, IsIntroduction w guid ∧ cs = w ++ rest ∧ ':' ∈ Scan.lineRest rest := by
  unfold scanHeaderGuid IsIntroduction IsGuid
  simp only [bind, Option.bind_eq_some_iff, Option.ite_none_right_eq_some, Option.some.injEq,
    Scan.word_eq_some_iff, Prod.exists, Scan.exactly_eq_some_iff, List.contains_iff_mem]
  constructor
  · rintro ⟨r, rfl, _, hblanks, r', rfl, _, rest, ⟨rfl, hlength, hall⟩, hcolon, rfl⟩
    obtain ⟨b, hne, hb, rfl⟩ := (Scan.blanks_eq_some_cons_iff (by decide)).mp hblanks
    refine ⟨_, rest, ⟨⟨hlength, hall⟩, b, hne, hb, rfl⟩, ?_, hcolon⟩
    simp only [List.append_assoc]
    rfl
  · rintro ⟨_, rest, ⟨⟨hlength, hall⟩, b, hne, hb, rfl⟩, rfl, hcolon⟩
    refine ⟨b ++ ("0x".toList ++ (guid ++ rest)), ?_, _,
      (Scan.blanks_eq_some_cons_iff (by decide)).mpr ⟨b, hne, hb, rfl⟩, guid ++ rest, rfl, guid,
      rest, ⟨rfl, hlength, hall⟩, hcolon, rfl⟩
    simp only [List.append_assoc]
    rfl

/-- The end of a header line. -/
def lineEnd : List Char := "):".toList

/-- At the beginning of a text without line feeds, before the end of a header line, a GUID is read
where it is introduced. -/
theorem scanHeaderGuid_append_lineEnd (hline : '\n' ∉ text) :
    scanHeaderGuid (text ++ lineEnd) = some guid ↔
      ∃ w, IsIntroduction w guid ∧ w <+: text := by
  rw [scanHeaderGuid_eq_some_iff]
  constructor
  · rintro ⟨w, rest, hw, htext, -⟩
    obtain ⟨t, rfl, -⟩ := exists_eq_append_of_not_mem htext.symm hw.bracket_not_mem
    exact ⟨w, hw, List.prefix_append _ _⟩
  · rintro ⟨w, hw, t, rfl⟩
    refine ⟨w, t ++ lineEnd, hw, List.append_assoc _ _ _, ?_⟩
    have hrest : '\n' ∉ t ++ lineEnd := by
      rw [List.mem_append, not_or]
      exact ⟨fun ht => hline (List.mem_append_right _ ht), by decide⟩
    have hwhole : Scan.lineRest (t ++ lineEnd) = t ++ lineEnd := by
      refine List.takeWhile_eq_self_iff.mpr fun c hc => ?_
      rw [bne_iff_ne]
      rintro rfl
      exact hrest hc
    rw [hwhole]
    exact List.mem_append_right _ (by decide)

/-- The GUID of a line is the last one that is introduced. -/
theorem lastHeaderGuid_append_lineEnd (hline : '\n' ∉ text) :
    lastHeaderGuid (text ++ lineEnd) = some guid ↔ IntroducesLast text guid := by
  induction text generalizing guid with
  | nil =>
    refine iff_of_false ?_ fun h => not_introduces_nil h.introduces
    rw [show lastHeaderGuid ([] ++ lineEnd) = none by decide]
    nofun
  | cons c text ih =>
    obtain ⟨hc, htext⟩ := not_or.mp (mt List.mem_cons.mpr hline)
    have hfeed : (c == '\n') = false := beq_eq_false_iff_ne.mpr (Ne.symm hc)
    rw [introducesLast_cons_iff, ← scanHeaderGuid_append_lineEnd hline, List.cons_append,
      lastHeaderGuid, hfeed, if_neg Bool.false_ne_true]
    cases hlater : lastHeaderGuid (text ++ lineEnd) with
    | some later =>
      have hlast : IntroducesLast text later := (ih htext).mp hlater
      rw [or_iff_left fun hnone => hnone.1 later hlast.introduces, ← ih htext, hlater]
    | none =>
      have hnone : ∀ h, ¬ Introduces text h := by
        intro h hintroduces
        obtain ⟨last, hlast⟩ := exists_introducesLast hintroduces
        rw [(ih htext).mpr hlast] at hlater
        cases hlater
      rw [and_iff_right hnone, or_iff_right fun hlast => hnone guid hlast.introduces]

/-- A text without line feeds introduces just one GUID last. -/
theorem IntroducesLast.unique (hline : '\n' ∉ text) {guid' : List Char}
    (h : IntroducesLast text guid) (h' : IntroducesLast text guid') : guid = guid' := by
  rw [← lastHeaderGuid_append_lineEnd hline] at h h'
  exact Option.some.inj (h.symm.trans h')

/-- An introduced GUID is the last one exactly if no other one is the last one behind it. -/
theorem introducesLast_around_iff {before w behind : List Char}
    (hline : '\n' ∉ before ++ (w ++ behind)) (hw : IsIntroduction w guid) :
    IntroducesLast (before ++ (w ++ behind)) guid ↔
      ∀ last, IntroducesLast behind last → last = guid := by
  constructor
  · intro hguid last hlast
    exact ((hlast.append w).append before).unique hline hguid
  · intro hsame
    by_cases hlater : ∃ later, Introduces behind later
    · obtain ⟨later, hlater⟩ := hlater
      obtain ⟨last, hlast⟩ := exists_introducesLast hlater
      rw [← hsame last hlast]
      exact (hlast.append w).append before
    · exact ⟨before, w, behind, hw, rfl, not_exists.mp hlater⟩

/-- Nothing is read where a line ends before the word that introduces GUIDs. -/
theorem scanHeaderGuid_of_feed (hword : ¬ "guid".toList <:+: text) (rest : List Char) :
    scanHeaderGuid (text ++ '\n' :: rest) = none := by
  rw [Option.eq_none_iff_forall_not_mem]
  intro guid hguid
  obtain ⟨w, behind, ⟨-, b, -, -, rfl⟩, htext, -⟩ := scanHeaderGuid_eq_some_iff.mp hguid
  rw [List.append_assoc] at htext
  obtain ⟨t, rfl, -⟩ := exists_eq_append_of_not_mem htext.symm (by decide)
  exact hword (List.infix_append_of_infix_left (List.infix_refl _))

/-- Nothing is read from a line that ends before the word that introduces GUIDs. -/
theorem lastHeaderGuid_of_feed (hword : ¬ "guid".toList <:+: text) (rest : List Char) :
    lastHeaderGuid (text ++ '\n' :: rest) = none := by
  induction text with
  | nil => exact scanHeaderGuid_of_feed hword rest
  | cons c text ih =>
    have hscan := scanHeaderGuid_of_feed hword rest
    rw [List.cons_append] at hscan ⊢
    rw [lastHeaderGuid, ih fun h => hword (List.infix_cons h), ite_self]
    exact hscan

end Reading

/-! ## Header lines -/

/-- The header line of a switch: the GUID is introduced between a preamble and a description. -/
def headerLine (preamble guid description : String) : String :=
  s!"Unicast lids {preamble}guid 0x{guid} ({description}):"

/-- The characters of a header line. -/
theorem toList_headerLine (preamble guid description : String) :
    (headerLine preamble guid description).toList =
      headerWord ++ (' ' :: preamble.toList ++ ("guid 0x".toList ++ guid.toList ++
        (" (".toList ++ description.toList)) ++ lineEnd) := by
  have hopens : "Unicast lids ".toList = headerWord ++ [' '] := by
    unfold headerWord
    decide +kernel
  have hends : "):".toList = lineEnd := rfl
  unfold headerLine
  simp only [toString, String.toList_append, List.append_assoc]
  rw [hopens, hends, List.append_assoc, List.singleton_append, List.cons_append]

/-- The GUID of a header line is that of what follows its first word. -/
theorem parseHeader_eq_some_iff {raw guid : String} {r : List Char}
    (hraw : raw.toList = headerWord ++ r) :
    parseHeader raw = some ⟨guid⟩ ↔ lastHeaderGuid r = some guid.toList := by
  unfold parseHeader
  rw [Scan.word_eq_some_iff.mpr hraw]
  simp only [bind, Option.bind_some, Option.bind_eq_some_iff, pure, Option.some.injEq,
    RouteHeader.mk.injEq]
  constructor
  · rintro ⟨cs, hcs, rfl⟩
    rw [String.toList_ofList]
    exact hcs
  · intro h
    exact ⟨guid.toList, h, String.ofList_toList⟩

/-- A header line names the switch that it introduces exactly if its preamble has no line feed
and its description introduces no other switch last. -/
theorem parseHeader_headerLine_iff {preamble guid description : String}
    (hpreamble : ¬ "guid".toList <:+: preamble.toList) (hguid : IsGuid guid.toList)
    (hdescription : '\n' ∉ description.toList) :
    parseHeader (headerLine preamble guid description) = some ⟨guid⟩ ↔
      '\n' ∉ preamble.toList ∧
        ∀ last, IntroducesLast description.toList last → last = guid.toList := by
  rw [parseHeader_eq_some_iff (toList_headerLine preamble guid description)]
  by_cases hfeed : '\n' ∈ preamble.toList
  · refine iff_of_false ?_ fun h => h.1 hfeed
    have hword : ¬ "guid".toList <:+: ' ' :: preamble.toList := by
      rw [List.infix_cons_iff, not_or]
      exact ⟨fun h => absurd (List.cons_prefix_cons.mp h).1 (by decide), hpreamble⟩
    obtain ⟨before, behind, hsplit⟩ := List.append_of_mem (List.mem_cons_of_mem ' ' hfeed)
    rw [hsplit] at hword ⊢
    rw [List.append_assoc, List.append_assoc, List.cons_append,
      lastHeaderGuid_of_feed fun h => hword (List.infix_append_of_infix_left h)]
    nofun
  · rw [and_iff_right hfeed]
    have hintroduction : IsIntroduction ("guid 0x".toList ++ guid.toList) guid.toList :=
      ⟨hguid, [' '], List.cons_ne_nil _ _, List.forall_mem_singleton.mpr (by decide), rfl⟩
    have hline : '\n' ∉ ' ' :: preamble.toList ++
        ("guid 0x".toList ++ guid.toList ++ (" (".toList ++ description.toList)) := by
      have hdigits : '\n' ∉ guid.toList := fun h => absurd (hguid.2 _ h) (by decide)
      simp only [List.cons_append, List.mem_cons, List.mem_append, not_or]
      exact ⟨by decide, hfeed, ⟨by decide, hdigits⟩, by decide, hdescription⟩
    rw [lastHeaderGuid_append_lineEnd hline, introducesLast_around_iff hline hintroduction]
    simp only [introducesLast_append_iff (show 'g' ∉ " (".toList by decide)]

end FabricPaths.Route
