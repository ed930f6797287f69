import Mathlib.Data.Nat.Digits.Defs
import FabricPaths.Proofs.Record.Description
import FabricPaths.Proofs.Record.Header

/-!
# The grammar of link lines

The line of a connected port spells both ends of its cable, and the width and the speed between
them, in fields that blanks keep apart; behind an opening parenthesis follows a text of any kind,
which describes the nodes up to the last closing parenthesis of the line. A line has one reading
of this form at most, which is the one that the record is taken from: what the description holds
makes no difference to the ends.
-/

namespace FabricPaths.Discovery

open Text

/-! ## How lines are spelt -/

/-- The blanks that keep two fields apart. -/
abbrev Gap := Stretch isBlank

/-- The digits of a number. -/
abbrev Numeral := Stretch isDigit

/-- The number that a numeral spells in base ten, its digits in any script. -/
def Numeral.value (n : Numeral) : Nat :=
  Nat.ofDigits 10 (n.chars.map fun c => (digitValue? c).getD 0).reverse

/-- How a line may spell one end of a cable. -/
@[ext] structure EndText where
  /-- What the node is. -/
  type : NodeType
  /-- The blanks behind the type. -/
  behindType : Gap
  /-- The local identifier. -/
  lid : Numeral
  /-- The blanks behind the local identifier. -/
  behindLid : Gap
  /-- The port. -/
  port : Numeral
  /-- The blanks behind the port. -/
  behindPort : Gap
  /-- The sixteen digits of the GUID. -/
  guid : List Char
  /-- It is a GUID. -/
  isGuid : Route.IsGuid guid
  /-- The blanks behind the GUID. -/
  behindGuid : Gap

/-- How a line may spell what is before its description. -/
@[ext] structure LinkText where
  /-- The near end. -/
  src : EndText
  /-- The number of lanes. -/
  lanes : Numeral
  /-- The blank behind the width. -/
  behindWidth : Char
  /-- It is one. -/
  isBlank_behindWidth : isBlank behindWidth = true
  /-- The speed, perhaps empty. -/
  speed : List Char
  /-- There are no blanks in it. -/
  isBlank_speed : ∀ c ∈ speed, isBlank c = false
  /-- The blanks behind the speed. -/
  behindSpeed : Gap
  /-- The blanks behind the hyphen. -/
  behindHyphen : Gap
  /-- The far end. -/
  dest : EndText

namespace EndText

/-- The characters of the end, with the text that follows it. -/
def before (t : EndText) (r : List Char) : List Char :=
  t.type.code ++ (t.behindType.chars ++ (t.lid.chars ++ (t.behindLid.chars ++
    (t.port.chars ++ (t.behindPort.chars ++ (['0', 'x'] ++ (t.guid ++
      (t.behindGuid.chars ++ r))))))))

/-- The fields of the end. -/
def parts (t : EndText) : End := ⟨t.type, t.lid.chars, t.port.chars, t.guid⟩

/-- Neither number is longer than what is read. -/
def Short (t : EndText) : Prop :=
  t.lid.chars.length ≤ digitLimit ∧ t.port.chars.length ≤ digitLimit

end EndText

namespace LinkText

/-- The characters of the line, with the text behind its opening parenthesis. -/
def before (t : LinkText) (r : List Char) : List Char :=
  t.src.before (t.lanes.chars ++ 'x' :: t.behindWidth :: (t.speed ++ (t.behindSpeed.chars ++
    '-' :: (t.behindHyphen.chars ++ t.dest.before ('(' :: r)))))

/-- No number is longer than what is read. -/
def Short (t : LinkText) : Prop := t.src.Short ∧ t.dest.Short

/-- The record of the line with a description. -/
def record (t : LinkText) (description : List Char) : LinkRecord where
  srcType := t.src.type
  srcLid := t.src.lid.value
  srcPort := t.src.port.value
  srcGuid := String.ofList t.src.guid
  width := String.ofList (t.lanes.chars ++ ['x'])
  speed := String.ofList t.speed
  destType := t.dest.type
  destLid := t.dest.lid.value
  destPort := t.dest.port.value
  destGuid := String.ofList t.dest.guid
  description := String.ofList description
  srcDesc := (splitDescription (String.ofList description)).1
  destDesc := (splitDescription (String.ofList description)).2

end LinkText

/-- The text behind the opening parenthesis has the description: what is between the blanks at
its beginning and its last closing parenthesis. -/
def Describes (rest description : List Char) : Prop :=
  ∃ lead behind, (∀ c ∈ lead, isBlank c = true) ∧ Stops isBlank description ∧ ')' ∉ behind ∧
    rest = lead ++ (description ++ ')' :: behind)

/-- The line spells an end of a cable, the width, the speed and the other end, and the text behind
its opening parenthesis has a closing one. -/
def Spells (raw : String) (t : LinkText) (rest : List Char) : Prop :=
  raw.toList = t.before rest ∧ ')' ∈ rest

/-- The text is one line: there is no line feed before its last character. -/
def OneLine (cs : List Char) : Prop := '\n' ∉ cs.dropLast

instance (cs : List Char) : Decidable (OneLine cs) := inferInstanceAs (Decidable (¬ _))

variable {cs r r' rest rest' d f : List Char} {e : End} {t t' : EndText}

/-! ## Numbers -/

/-- Digits are read as the number that they spell. -/
theorem digitsValue_chars (n : Numeral) : digitsValue n.chars = n.value := by
  rw [Numeral.value, Nat.ofDigits_eq_foldr, List.foldr_reverse, List.foldl_map]
  unfold digitsValue
  congr 1
  funext m c
  exact Nat.add_comm _ _

/-- What is done with a numeral succeeds exactly if it is short enough and the rest succeeds with
its value. -/
theorem readNumeral_bind_eq_ok_iff {α : Type} (n : Numeral) {k : Nat → Except Failure α} {a : α} :
    (readNumeral n.chars >>= k) = .ok a ↔ n.chars.length ≤ digitLimit ∧ k n.value = .ok a := by
  by_cases hshort : n.chars.length ≤ digitLimit
  · have hread := readNumeral_eq_ok_iff.mpr ⟨hshort, digitsValue_chars n⟩
    rw [hread]
    exact (and_iff_right hshort).symm
  · have hread := readNumeral_eq_error_iff.mpr ⟨Nat.not_le.mp hshort, rfl⟩
    rw [hread]
    exact iff_of_false nofun fun h => hshort h.1

/-! ## One end -/

/-- The blanks before a numeral end where it begins. -/
theorem Numeral.stops (n : Numeral) (r : List Char) : Stops isBlank (n.chars ++ r) :=
  n.stops_append (fun _ => isBlank_of_isDigit) r

/-- The digits before a gap end where it begins. -/
theorem Gap.stops (g : Gap) (r : List Char) : Stops isDigit (g.chars ++ r) :=
  g.stops_append (fun _ => isDigit_of_isBlank) r

/-- The blanks before the mark of a GUID end where it begins. -/
theorem stops_mark (r : List Char) : Stops isBlank (['0', 'x'] ++ r) :=
  stops_cons_iff.mpr (by decide)

/-- A type is read where the line begins with its code. -/
theorem scanType_eq_some_iff {type : NodeType} :
    NodeType.scan cs = some (type, r) ↔ cs = type.code ++ r := by
  unfold NodeType.scan
  cases hhost : Scan.word NodeType.host.code cs with
  | some r' =>
    have hcs := Scan.word_eq_some_iff.mp hhost
    cases type with
    | host =>
      simp only [hcs, Option.some.injEq, Prod.mk.injEq, true_and, List.append_cancel_left_eq]
    | switch => simp [hcs, NodeType.code]
  | none =>
    have hnot : cs ≠ NodeType.host.code ++ r := fun h => by
      rw [Scan.word_eq_some_iff.mpr h] at hhost
      cases hhost
    cases type with
    | host => simp [hnot]
    | switch => simp [Scan.word_eq_some_iff]

/-- A GUID is read behind its mark. -/
theorem scanGuid_eq_some_iff : scanGuid cs = some (f, r) ↔
    Route.IsGuid f ∧ cs = ['0', 'x'] ++ (f ++ r) := by
  unfold scanGuid Route.IsGuid
  simp only [bind, Option.bind_eq_some_iff, Scan.word_eq_some_iff, Scan.exactly_eq_some_iff]
  constructor
  · rintro ⟨_, hcs, rfl, hguid⟩
    exact ⟨hguid, hcs⟩
  · rintro ⟨hguid, hcs⟩
    exact ⟨_, hcs, rfl, hguid⟩

/-- An end is read where the line spells it, with all blanks behind it. -/
theorem scanEnd_eq_some_iff : scanEnd cs = some (e, r) ↔
    ∃ t : EndText, t.parts = e ∧ cs = t.before r ∧ Stops isBlank r := by
  unfold scanEnd
  simp only [bind, Option.bind_eq_some_iff, Prod.exists, scanType_eq_some_iff,
    Scan.blanks_eq_some_iff, Scan.run_eq_some_iff, scanGuid_eq_some_iff]
  constructor
  · rintro ⟨type, r₁, hcs, r₂, ⟨behindType, rfl, -⟩, _, r₃, ⟨lid, rfl, rfl, -⟩, r₄,
      ⟨behindLid, rfl, -⟩, _, r₅, ⟨port, rfl, rfl, -⟩, r₆, ⟨behindPort, rfl, -⟩, guid, r₇,
      ⟨isGuid, rfl⟩, r₈, ⟨behindGuid, rfl, hr⟩, h⟩
    cases h
    exact ⟨⟨type, behindType, lid, behindLid, port, behindPort, guid, isGuid, behindGuid⟩, rfl,
      hcs, hr⟩
  · rintro ⟨t, rfl, rfl, hr⟩
    exact ⟨_, _, rfl, _, ⟨t.behindType, rfl, Numeral.stops _ _⟩, _, _,
      ⟨t.lid, rfl, rfl, Gap.stops _ _⟩, _, ⟨t.behindLid, rfl, Numeral.stops _ _⟩, _, _,
      ⟨t.port, rfl, rfl, Gap.stops _ _⟩, _, ⟨t.behindPort, rfl, stops_mark _⟩, _, _,
      ⟨t.isGuid, rfl⟩, _, ⟨t.behindGuid, rfl, hr⟩, rfl⟩

/-- Codes of two types begin no text in common. -/
theorem code_append_inj {type type' : NodeType} (h : type.code ++ r = type'.code ++ r') :
    type = type' ∧ r = r' := by
  have hread : NodeType.scan (type.code ++ r) = some (type', r') := scanType_eq_some_iff.mpr h
  rw [scanType_eq_some_iff.mpr rfl] at hread
  exact Prod.mk.inj (Option.some.inj hread)

/-- A text spells one end in one way. -/
theorem EndText.before_inj (h : t.before r = t'.before r') (hr : Stops isBlank r)
    (hr' : Stops isBlank r') : t = t' ∧ r = r' := by
  obtain ⟨htype, h⟩ := code_append_inj h
  obtain ⟨hbehindType, h⟩ := Stretch.append_inj h (Numeral.stops _ _) (Numeral.stops _ _)
  obtain ⟨hlid, h⟩ := Stretch.append_inj h (Gap.stops _ _) (Gap.stops _ _)
  obtain ⟨hbehindLid, h⟩ := Stretch.append_inj h (Numeral.stops _ _) (Numeral.stops _ _)
  obtain ⟨hport, h⟩ := Stretch.append_inj h (Gap.stops _ _) (Gap.stops _ _)
  obtain ⟨hbehindPort, h⟩ := Stretch.append_inj h (stops_mark _) (stops_mark _)
  have hlength : t.guid.length = t'.guid.length := t.isGuid.1.trans t'.isGuid.1.symm
  obtain ⟨hguid, h⟩ := List.append_inj (List.append_cancel_left h) hlength
  obtain ⟨hbehindGuid, h⟩ := Stretch.append_inj h hr hr'
  exact ⟨EndText.ext htype hbehindType hlid hbehindLid hport hbehindPort hguid hbehindGuid, h⟩

/-- The blanks before an end are over where it begins. -/
theorem EndText.stops (t : EndText) (r : List Char) : Stops isBlank (t.before r) := by
  unfold EndText.before
  cases t.type with
  | host => exact stops_cons_iff.mpr (by decide)
  | switch => exact stops_cons_iff.mpr (by decide)

/-- The text behind an end is the last of it. -/
theorem EndText.suffix (t : EndText) (r : List Char) : r <:+ t.before r := by
  have hsplit : t.before [] ++ r = t.before r := by
    simp only [EndText.before, List.append_assoc, List.nil_append]
  exact ⟨t.before [], hsplit⟩

/-! ## Width and speed -/

/-- A width is read where the line begins with a numeral and an x. -/
theorem scanWidth_eq_some_iff : scanWidth cs = some (f, r) ↔
    ∃ n : Numeral, n.chars ++ ['x'] = f ∧ cs = n.chars ++ 'x' :: r := by
  unfold scanWidth
  simp only [bind, Option.bind_eq_some_iff, Prod.exists, Scan.run_eq_some_iff,
    Scan.word_eq_some_iff]
  constructor
  · rintro ⟨_, _, ⟨n, rfl, rfl, -⟩, _, rfl, h⟩
    cases h
    exact ⟨n, rfl, rfl⟩
  · rintro ⟨n, rfl, rfl⟩
    exact ⟨_, _, ⟨n, rfl, rfl, stops_cons_iff.mpr (by decide)⟩, _, rfl, rfl⟩

/-- The speed before a gap ends where it begins. -/
theorem Gap.stops_speed (g : Gap) (r : List Char) : Stops (fun c => !isBlank c) (g.chars ++ r) :=
  g.stops_append (fun c hc => by rw [hc]; rfl) r

/-- A speed is read between one blank and a gap. -/
theorem scanSpeed_eq_some_iff : scanSpeed cs = some (f, r) ↔
    ∃ c, ∃ g : Gap, isBlank c = true ∧ (∀ x ∈ f, isBlank x = false) ∧
      cs = c :: (f ++ (g.chars ++ r)) ∧ Stops isBlank r := by
  cases cs with
  | nil => exact iff_of_false nofun nofun
  | cons c t =>
    unfold scanSpeed
    simp only [Option.ite_none_right_eq_some, bind, Option.bind_eq_some_iff,
      Scan.blanks_eq_some_iff]
    constructor
    · rintro ⟨hc, _, ⟨g, hg, hr⟩, h⟩
      cases h
      refine ⟨c, g, hc, ?_, ?_, hr⟩
      · intro x hx
        have hx' := List.mem_takeWhile_imp hx
        simpa using hx'
      · rw [← hg, List.takeWhile_append_dropWhile]
    · rintro ⟨_, g, hc, hf, hcs, hr⟩
      obtain ⟨rfl, rfl⟩ := List.cons.inj hcs
      have hspeed : ∀ x ∈ f, (!isBlank x) = true := by simpa using hf
      refine ⟨hc, r, ⟨g, dropWhile_append_of_stops hspeed (Gap.stops_speed g r), hr⟩, ?_⟩
      rw [takeWhile_append_of_stops hspeed (Gap.stops_speed g r)]
      rfl

/-! ## Descriptions -/

/-- The end of one line is one line. -/
theorem OneLine.of_suffix (h : OneLine cs) (hr : r <:+ cs) : OneLine r := by
  obtain ⟨f, rfl⟩ := hr
  cases r with
  | nil => exact List.not_mem_nil
  | cons c r =>
    unfold OneLine at h
    rw [List.dropLast_append_of_ne_nil (List.cons_ne_nil c r)] at h
    exact fun hmem => h (List.mem_append_right f hmem)

/-- One line ends with a line feed at most. -/
theorem OneLine.eq_lineRest_append (h : OneLine cs) :
    ∃ e, cs = Scan.lineRest cs ++ e ∧ ∀ c ∈ e, c = '\n' := by
  obtain rfl | ⟨f, c, rfl⟩ := List.eq_nil_or_concat' cs
  · exact ⟨[], rfl, nofun⟩
  · have hf : '\n' ∉ f := by simpa only [OneLine, List.dropLast_concat] using h
    by_cases hc : c = '\n'
    · subst hc
      have hline : Scan.lineRest (f ++ ['\n']) = f :=
        takeWhile_append_of_stops (List.takeWhile_eq_self_iff.mp (Scan.lineRest_eq_self hf))
          (stops_cons_iff.mpr (by decide))
      exact ⟨['\n'], by rw [hline], fun x hx => List.mem_singleton.mp hx⟩
    · have hwhole : '\n' ∉ f ++ [c] := by
        simp only [List.mem_append, hf, List.mem_singleton, Ne.symm hc, or_self, not_false_eq_true]
      exact ⟨[], by rw [Scan.lineRest_eq_self hwhole, List.append_nil], nofun⟩

/-- On one line, a description goes from the first character that is no blank up to the last
closing parenthesis. -/
theorem scanDescription_of_oneLine (h : OneLine cs) :
    scanDescription cs = Scan.beforeLast (· == ')') (dropBlanks cs) := by
  have hsuffix : dropBlanks cs <:+ cs := List.dropWhile_suffix isBlank
  obtain ⟨e, hbody, he⟩ := (h.of_suffix hsuffix).eq_lineRest_append
  have hfeeds : dropBlanks e = [] :=
    List.dropWhile_eq_nil_iff.mpr fun c hc => by rw [he c hc]; decide
  have hdrop : (dropBlanks cs).drop (Scan.lineRest (dropBlanks cs)).length = e := by
    conv_lhs => arg 2; rw [hbody]
    exact List.drop_left
  have hkeep : Scan.beforeLast (· == ')') (Scan.lineRest (dropBlanks cs) ++ e) =
      Scan.beforeLast (· == ')') (Scan.lineRest (dropBlanks cs)) :=
    Scan.beforeLast_append fun c hc => by rw [he c hc]; decide
  unfold scanDescription
  simp only [hdrop, hfeeds]
  rw [← hkeep, ← hbody]

/-- A text has the description that is read behind the blanks at its beginning. -/
theorem describes_iff :
    Describes rest d ↔ Scan.beforeLast (· == ')') (dropBlanks rest) = some d := by
  rw [Scan.beforeLast_eq_some_iff]
  constructor
  · rintro ⟨lead, behind, hlead, hd, hbehind, rfl⟩
    refine ⟨')', behind, by decide, ?_, ?_⟩
    · intro c hc
      rw [beq_eq_false_iff_ne]
      rintro rfl
      exact hbehind hc
    · refine dropWhile_append_of_stops hlead ?_
      cases d with
      | nil => exact stops_cons_iff.mpr (by decide)
      | cons c d => exact stops_cons_iff.mpr (stops_cons_iff.mp hd)
  · rintro ⟨c, behind, hc, hbehind, hbody⟩
    have hstops : Stops isBlank (dropBlanks rest) := stops_dropWhile isBlank rest
    obtain rfl := beq_iff_eq.mp hc
    refine ⟨rest.takeWhile isBlank, behind, fun c hc => List.mem_takeWhile_imp hc, ?_, ?_, ?_⟩
    · cases d with
      | nil => exact nofun
      | cons c d =>
        rw [hbody, List.cons_append] at hstops
        exact stops_cons_iff.mpr (stops_cons_iff.mp hstops)
    · intro hmem
      exact absurd (hbehind _ hmem) (by decide)
    · rw [← hbody]
      exact List.takeWhile_append_dropWhile.symm

/-- A text has a description exactly if it has a closing parenthesis. -/
theorem exists_describes_iff : (∃ d, Describes rest d) ↔ ')' ∈ rest := by
  constructor
  · rintro ⟨d, lead, behind, -, -, -, rfl⟩
    simp only [List.mem_append, List.mem_cons, true_or, or_true]
  · intro hmem
    have hsplit : rest.takeWhile isBlank ++ dropBlanks rest = rest :=
      List.takeWhile_append_dropWhile
    rw [← hsplit, List.mem_append] at hmem
    have hbody : ')' ∈ dropBlanks rest :=
      hmem.resolve_left fun hlead => absurd (List.mem_takeWhile_imp hlead) (by decide)
    have hsome : Scan.beforeLast (· == ')') (dropBlanks rest) ≠ none :=
      fun hnone => absurd (Scan.beforeLast_eq_none_iff.mp hnone _ hbody) (by decide)
    obtain ⟨d, hd⟩ := Option.ne_none_iff_exists'.mp hsome
    exact ⟨d, describes_iff.mpr hd⟩

/-- A text has one description at most. -/
theorem Describes.unique {d' : List Char} (h : Describes rest d) (h' : Describes rest d') :
    d = d' := by
  rw [describes_iff] at h h'
  exact Option.some.inj (h.symm.trans h')

/-! ## Lines -/

/-- The text behind the opening parenthesis is the last of the line. -/
theorem LinkText.suffix (t : LinkText) (rest : List Char) : rest <:+ t.before rest := by
  refine List.IsSuffix.trans ?_ (t.src.suffix _)
  refine List.IsSuffix.trans ?_ (List.suffix_append _ _)
  refine List.IsSuffix.trans ?_ (List.suffix_append ['x', t.behindWidth] _)
  refine List.IsSuffix.trans ?_ (List.suffix_append _ _)
  refine List.IsSuffix.trans ?_ (List.suffix_append _ _)
  refine List.IsSuffix.trans ?_ (List.suffix_append ['-'] _)
  refine List.IsSuffix.trans ?_ (List.suffix_append _ _)
  exact List.IsSuffix.trans (List.suffix_cons _ _) (t.dest.suffix _)

/-- A line is spelt in one way. -/
theorem LinkText.before_inj {t t' : LinkText} (h : t.before r = t'.before r') :
    t = t' ∧ r = r' := by
  have hx : ∀ r, Stops isDigit ('x' :: r) := fun r => stops_cons_iff.mpr (by decide)
  have hhyphen : ∀ r, Stops isBlank ('-' :: r) := fun r => stops_cons_iff.mpr (by decide)
  have hopen : ∀ r, Stops isBlank ('(' :: r) := fun r => stops_cons_iff.mpr (by decide)
  obtain ⟨hsrc, h⟩ := EndText.before_inj h (Numeral.stops _ _) (Numeral.stops _ _)
  obtain ⟨hlanes, h⟩ := Stretch.append_inj h (hx _) (hx _)
  obtain ⟨hblank, h⟩ := List.cons.inj (List.cons.inj h).2
  obtain ⟨hspeed, h⟩ := append_inj_of_stops h
    (fun c hc => by rw [t.isBlank_speed c hc]; rfl)
    (fun c hc => by rw [t'.isBlank_speed c hc]; rfl) (Gap.stops_speed _ _) (Gap.stops_speed _ _)
  obtain ⟨hbehindSpeed, h⟩ := Stretch.append_inj h (hhyphen _) (hhyphen _)
  obtain ⟨hbehindHyphen, h⟩ := Stretch.append_inj (List.cons.inj h).2 (EndText.stops _ _)
    (EndText.stops _ _)
  obtain ⟨hdest, h⟩ := EndText.before_inj h (hopen _) (hopen _)
  exact ⟨LinkText.ext hsrc hlanes hblank hspeed hbehindSpeed hbehindHyphen hdest,
    (List.cons.inj h).2⟩

/-- A line spells its parts in one way. -/
theorem Spells.unique {raw : String} {t t' : LinkText} (h : Spells raw t rest)
    (h' : Spells raw t' rest') : t = t' ∧ rest = rest' :=
  LinkText.before_inj (h.1.symm.trans h'.1)

/-- The fields of a line with a description. -/
def LinkText.fields (t : LinkText) (d : List Char) : LinkFields :=
  ⟨t.src.parts, t.lanes.chars ++ ['x'], t.speed, t.dest.parts, d⟩

/-- A line is taken apart as it is spelt, with the description that is read behind its opening
parenthesis. -/
theorem scanLink_eq_some_iff_scanDescription {fields : LinkFields} :
    scanLink cs = some fields ↔ ∃ t : LinkText, ∃ rest d, cs = t.before rest ∧
      scanDescription rest = some d ∧ t.fields d = fields := by
  unfold scanLink
  simp only [bind, Option.bind_eq_some_iff, Prod.exists, scanEnd_eq_some_iff,
    scanWidth_eq_some_iff, scanSpeed_eq_some_iff, Scan.word_eq_some_iff, Scan.blanks_eq_some_iff]
  constructor
  · rintro ⟨_, _, ⟨src, rfl, hcs, -⟩, _, _, ⟨lanes, rfl, rfl⟩, speed, _,
      ⟨c, behindSpeed, hc, hspeed, rfl, -⟩, _, rfl, _, ⟨behindHyphen, rfl, -⟩, _, _,
      ⟨dest, rfl, rfl, -⟩, rest, rfl, d, hd, h⟩
    cases h
    exact ⟨⟨src, lanes, c, hc, speed, hspeed, behindSpeed, behindHyphen, dest⟩, rest, d, hcs,
      hd, rfl⟩
  · rintro ⟨t, rest, d, rfl, hd, rfl⟩
    exact ⟨_, _, ⟨t.src, rfl, rfl, Numeral.stops _ _⟩, _, _, ⟨t.lanes, rfl, rfl⟩, _, _,
      ⟨t.behindWidth, t.behindSpeed, t.isBlank_behindWidth, t.isBlank_speed, rfl,
        stops_cons_iff.mpr (by decide)⟩, _, rfl, _, ⟨t.behindHyphen, rfl, EndText.stops _ _⟩,
      _, _, ⟨t.dest, rfl, rfl, stops_cons_iff.mpr (by decide)⟩, _, rfl, d, hd, rfl⟩

/-- A line is taken apart as it is spelt. -/
theorem scanLink_eq_some_iff {fields : LinkFields} (hline : OneLine cs) :
    scanLink cs = some fields ↔ ∃ t : LinkText, ∃ rest d, cs = t.before rest ∧
      Describes rest d ∧ t.fields d = fields := by
  rw [scanLink_eq_some_iff_scanDescription]
  refine exists_congr fun t => exists_congr fun rest => exists_congr fun d =>
    and_congr_right fun hcs => and_congr_left' ?_
  have hrest : OneLine rest := hline.of_suffix (hcs ▸ t.suffix rest)
  rw [scanDescription_of_oneLine hrest, describes_iff]

/-- A line that is spelt as one of a connected port has a record exactly if no number is too long,
and the record is that of its parts. -/
theorem parseLink_of_scan {raw : String} {t : LinkText} {o : Option LinkRecord}
    (hscan : scanLink raw.toList = some (t.fields d)) :
    parseLink raw = .ok o ↔ t.Short ∧ some (t.record d) = o := by
  unfold parseLink
  simp only [hscan, LinkText.fields, EndText.parts, readNumeral_bind_eq_ok_iff]
  simp only [pure, Except.pure, Except.ok.injEq, LinkText.Short, EndText.Short, and_assoc]
  rfl

/-- A line has a record exactly if it is spelt as one of a connected port, with a description, and
no number in it is too long. -/
theorem parseLink_eq_some_iff {raw : String} {r : LinkRecord} (hline : OneLine raw.toList) :
    parseLink raw = .ok (some r) ↔ ∃ t rest d,
      Spells raw t rest ∧ t.Short ∧ Describes rest d ∧ t.record d = r := by
  constructor
  · intro h
    cases hscan : scanLink raw.toList with
    | none =>
      unfold parseLink at h
      rw [hscan] at h
      cases h
    | some fields =>
      obtain ⟨t, rest, d, hcs, hd, rfl⟩ := (scanLink_eq_some_iff hline).mp hscan
      obtain ⟨hshort, hr⟩ := (parseLink_of_scan hscan).mp h
      exact ⟨t, rest, d, ⟨hcs, exists_describes_iff.mp ⟨d, hd⟩⟩, hshort, hd, Option.some.inj hr⟩
  · rintro ⟨t, rest, d, hspells, hshort, hd, rfl⟩
    have hscan := (scanLink_eq_some_iff hline).mpr ⟨t, rest, d, hspells.1, hd, rfl⟩
    exact (parseLink_of_scan hscan).mpr ⟨hshort, rfl⟩

/-- A line has a record exactly if it is spelt as one of a connected port in which no number is
too long; the record holds the parts of the line, with the number of each numeral, and the
description. Any other line is passed over. A line is spelt in one way at most, with one
description, and another text behind the same beginning changes the description in the record
and its two parts only. -/
theorem parseLink_exact (raw : String) (hline : OneLine raw.toList) :
    (∀ r, parseLink raw = .ok (some r) ↔ ∃ t rest d,
      Spells raw t rest ∧ t.Short ∧ Describes rest d ∧ t.record d = r) ∧
    ((∃ r, parseLink raw = .ok (some r)) ↔ ∃ t rest, Spells raw t rest ∧ t.Short) ∧
    (parseLink raw = .ok none ↔ ¬ ∃ t rest, Spells raw t rest) ∧
    (∀ t t' rest rest', Spells raw t rest → Spells raw t' rest' → t = t' ∧ rest = rest') ∧
    (∀ t rest, Spells raw t rest → ∃! d, Describes rest d) ∧
    ∀ t rest raw' rest', Spells raw t rest → OneLine raw'.toList → Spells raw' t rest' →
      ∀ r, parseLink raw = .ok (some r) → ∃ d, Describes rest' d ∧
        parseLink raw' = .ok (some { r with
          description := String.ofList d
          srcDesc := (splitDescription (String.ofList d)).1
          destDesc := (splitDescription (String.ofList d)).2 }) := by
  refine ⟨fun r => parseLink_eq_some_iff hline, ?_, ?_, fun t t' rest rest' => Spells.unique,
    ?_, ?_⟩
  · constructor
    · rintro ⟨r, hr⟩
      obtain ⟨t, rest, d, hspells, hshort, -, -⟩ := (parseLink_eq_some_iff hline).mp hr
      exact ⟨t, rest, hspells, hshort⟩
    · rintro ⟨t, rest, hspells, hshort⟩
      obtain ⟨d, hd⟩ := exists_describes_iff.mpr hspells.2
      exact ⟨t.record d, (parseLink_eq_some_iff hline).mpr ⟨t, rest, d, hspells, hshort, hd, rfl⟩⟩
  · constructor
    · rintro hnone ⟨t, rest, hspells⟩
      obtain ⟨d, hd⟩ := exists_describes_iff.mpr hspells.2
      have hscan := (scanLink_eq_some_iff hline).mpr ⟨t, rest, d, hspells.1, hd, rfl⟩
      cases ((parseLink_of_scan hscan).mp hnone).2
    · intro hno
      have hscan : scanLink raw.toList = none := by
        rw [Option.eq_none_iff_forall_ne_some]
        intro fields hfields
        obtain ⟨t, rest, d, hcs, hd, -⟩ := (scanLink_eq_some_iff hline).mp hfields
        exact hno ⟨t, rest, hcs, exists_describes_iff.mp ⟨d, hd⟩⟩
      unfold parseLink
      simp only [hscan]
  · intro t rest hspells
    obtain ⟨d, hd⟩ := exists_describes_iff.mpr hspells.2
    exact ⟨d, hd, fun d' hd' => hd'.unique hd⟩
  · intro t rest raw' rest' hspells hline' hspells' r hr
    obtain ⟨t₀, rest₀, d₀, hspells₀, hshort, -, rfl⟩ := (parseLink_eq_some_iff hline).mp hr
    obtain ⟨rfl, rfl⟩ := hspells.unique hspells₀
    obtain ⟨d, hd⟩ := exists_describes_iff.mpr hspells'.2
    exact ⟨d, hd, (parseLink_eq_some_iff hline').mpr ⟨t, rest', d, hspells', hshort, hd, rfl⟩⟩

/-- A line without a speed, with a digit of another script, whose description holds a closing
parenthesis. -/
def crowdedLine : String :=
  "SW ٣ 1 0x0002c903000e6c09 4x  - CA 11\t1 0x0002c90200451b68 ( a) - b) c\n"

/-- One blank between two fields. -/
def oneSpace : Gap := .single (show isBlank ' ' = true by decide)

/-- The parts of the line before its description. -/
def crowdedText : LinkText where
  src :=
    { type := .switch, behindType := oneSpace
      lid := .single (show isDigit '٣' = true by decide), behindLid := oneSpace
      port := .single (show isDigit '1' = true by decide), behindPort := oneSpace
      guid := "0002c903000e6c09".toList, isGuid := by decide, behindGuid := oneSpace }
  lanes := .single (show isDigit '4' = true by decide)
  behindWidth := ' '
  isBlank_behindWidth := by decide
  speed := []
  isBlank_speed := nofun
  behindSpeed := oneSpace
  behindHyphen := oneSpace
  dest :=
    { type := .host, behindType := oneSpace
      lid := ⟨['1', '1'], by decide, List.all_eq_true.mp (by decide)⟩
      behindLid := .single (show isBlank '\t' = true by decide)
      port := .single (show isDigit '1' = true by decide), behindPort := oneSpace
      guid := "0002c90200451b68".toList, isGuid := by decide, behindGuid := oneSpace }

/-- What the line records. -/
def crowdedRecord : LinkRecord :=
  { srcType := .switch, srcLid := 3, srcPort := 1, srcGuid := "0002c903000e6c09", width := "4x"
    speed := "", destType := .host, destLid := 11, destPort := 1, destGuid := "0002c90200451b68"
    description := "a) - b", srcDesc := "a)", destDesc := "b" }

/-- The line is read with its description up to the last closing parenthesis. -/
theorem crowdedLine_parsed :
    OneLine crowdedLine.toList ∧ parseLink crowdedLine = .ok (some crowdedRecord) := by
  have hline : OneLine crowdedLine.toList := by decide +kernel
  have hspells : Spells crowdedLine crowdedText " a) - b) c\n".toList :=
    ⟨by decide +kernel, by decide⟩
  have hshort : crowdedText.Short := by
    unfold LinkText.Short EndText.Short
    decide
  have hdescribes : Describes " a) - b) c\n".toList "a) - b".toList :=
    ⟨[' '], " c\n".toList, List.forall_mem_singleton.mpr (by decide),
      stops_cons_iff.mpr (by decide), by decide, rfl⟩
  have hrecord : crowdedText.record "a) - b".toList = crowdedRecord := by decide
  exact ⟨hline, ((parseLink_exact crowdedLine hline).1 crowdedRecord).mpr
    ⟨crowdedText, " a) - b) c\n".toList, "a) - b".toList, hspells, hshort, hdescribes, hrecord⟩⟩

end FabricPaths.Discovery
