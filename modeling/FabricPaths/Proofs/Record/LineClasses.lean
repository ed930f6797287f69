import FabricPaths.Proofs.Record.LinkLine

/-!
# The classes of discovery lines

A discovery line is one of a connected port, one of a port, or one that is passed over. A line of
a connected port is one of a port too, with the same near end, and no line that is passed over is
either, so that the order in which the classes are tried matters only between the first two. A
line of a connected port is read as such unless a number in it has too many digits, in which case
it is not read at all.
-/

namespace FabricPaths

/-- The near end alone, as a port of which no cable is known. -/
def LinkRecord.near (r : LinkRecord) : PortRecord := ⟨r.srcType, r.srcLid, r.srcPort, r.srcGuid⟩

namespace Discovery

open Text

/-- The port of an end. -/
def EndText.record (t : EndText) : PortRecord :=
  ⟨t.type, t.lid.value, t.port.value, String.ofList t.guid⟩

/-- Behind blanks, a description without line feeds and perhaps more blanks, the text comes to a
closing parenthesis. -/
def Closes (rest : List Char) : Prop :=
  ∃ lead description gap behind, (∀ c ∈ lead, isBlank c = true) ∧ '\n' ∉ description ∧
    (∀ c ∈ gap, isBlank c = true) ∧ rest = lead ++ (description ++ (gap ++ ')' :: behind))

/-- The text has the form of a connected port's line, be it on one line or on several. -/
def Linked (raw : String) (t : LinkText) (rest : List Char) : Prop :=
  raw.toList = t.before rest ∧ Closes rest

variable {raw : String} {r rest behind d : List Char} {t : EndText} {l : LinkText}

/-! ## Descriptions on several lines -/

/-- What is behind the current line. -/
theorem drop_lineRest (cs : List Char) :
    cs.drop (Scan.lineRest cs).length = cs.dropWhile (· != '\n') := by
  have hsplit : Scan.lineRest cs ++ cs.dropWhile (· != '\n') = cs :=
    List.takeWhile_append_dropWhile
  conv_lhs => arg 2; rw [← hsplit]
  exact List.drop_left

/-- A text has a description if there is a closing parenthesis on its line. -/
theorem scanDescription_of_mem (h : ')' ∈ Scan.lineRest (dropBlanks rest)) :
    ∃ d, scanDescription rest = some d := by
  have hsome : Scan.beforeLast (· == ')') (Scan.lineRest (dropBlanks rest)) ≠ none :=
    fun hnone => absurd (Scan.beforeLast_eq_none_iff.mp hnone _ h) (by decide)
  unfold scanDescription
  dsimp only
  split
  · exact ⟨_, rfl⟩
  · exact Option.ne_none_iff_exists'.mp hsome

/-- A text has a description if there are only blanks between its line and a closing
parenthesis. -/
theorem scanDescription_of_behind
    (h : dropBlanks ((dropBlanks rest).dropWhile (· != '\n')) = ')' :: behind) :
    ∃ d, scanDescription rest = some d := by
  unfold scanDescription
  dsimp only
  rw [drop_lineRest, h]
  exact ⟨_, rfl⟩

/-- A text that has a description comes to a closing parenthesis. -/
theorem Closes.of_scanDescription (h : scanDescription rest = some d) : Closes rest := by
  have hlead : rest.takeWhile isBlank ++ dropBlanks rest = rest := List.takeWhile_append_dropWhile
  have hline : Scan.lineRest (dropBlanks rest) ++ (dropBlanks rest).dropWhile (· != '\n') =
      dropBlanks rest := List.takeWhile_append_dropWhile
  have hfeed : '\n' ∉ Scan.lineRest (dropBlanks rest) := fun hmem =>
    absurd (List.mem_takeWhile_imp hmem) (by decide)
  have hblank : ∀ cs : List Char, ∀ c ∈ cs.takeWhile isBlank, isBlank c = true :=
    fun cs c hc => List.mem_takeWhile_imp hc
  unfold scanDescription at h
  dsimp only at h
  rw [drop_lineRest] at h
  split at h
  · next behind hbehind =>
    have hgap : ((dropBlanks rest).dropWhile (· != '\n')).takeWhile isBlank ++ ')' :: behind =
        (dropBlanks rest).dropWhile (· != '\n') := by
      rw [← hbehind]
      exact List.takeWhile_append_dropWhile
    refine ⟨_, _, _, behind, hblank rest, hfeed,
      hblank ((dropBlanks rest).dropWhile (· != '\n')), ?_⟩
    rw [hgap, hline, hlead]
  · obtain ⟨c, behind, hc, -, hsplit⟩ := Scan.beforeLast_eq_some_iff.mp h
    obtain rfl := beq_iff_eq.mp hc
    refine ⟨_, d, [], behind ++ (dropBlanks rest).dropWhile (· != '\n'), hblank rest, ?_,
      List.forall_mem_nil _, ?_⟩
    · exact fun hmem => hfeed (hsplit ▸ List.mem_append_left _ hmem)
    · have hbody : d ++ ')' :: (behind ++ (dropBlanks rest).dropWhile (· != '\n')) =
          dropBlanks rest := by
        rw [← List.cons_append, ← List.append_assoc, ← hsplit, hline]
      rw [List.nil_append, hbody, hlead]

/-- A text that comes to a closing parenthesis has a description. -/
theorem Closes.exists_scanDescription (h : Closes rest) : ∃ d, scanDescription rest = some d := by
  obtain ⟨lead, description, gap, behind, hlead, hdescription, hgap, rfl⟩ := h
  have hbody : dropBlanks (lead ++ (description ++ (gap ++ ')' :: behind))) =
      dropBlanks (description ++ (gap ++ ')' :: behind)) := List.dropWhile_append_of_pos hlead
  have hclosing : ∀ r, Stops isBlank (')' :: r) := fun r => stops_cons_iff.mpr (by decide)
  by_cases hempty : (description.dropWhile isBlank).isEmpty = true
  · refine scanDescription_of_mem ?_
    rw [hbody, dropBlanks, List.dropWhile_append, if_pos hempty,
      dropWhile_append_of_stops hgap (hclosing behind)]
    exact List.mem_cons_self
  have hshown : dropBlanks (description ++ (gap ++ ')' :: behind)) =
      description.dropWhile isBlank ++ (gap ++ ')' :: behind) := by
    rw [dropBlanks, List.dropWhile_append, if_neg hempty]
  have hone : ∀ c ∈ description.dropWhile isBlank, (c != '\n') = true := by
    intro c hc
    rw [bne_iff_ne]
    rintro rfl
    exact hdescription ((List.dropWhile_suffix isBlank).subset hc)
  by_cases hfeed : '\n' ∈ gap
  · have hrest : (gap.dropWhile (· != '\n')).isEmpty ≠ true := by
      rw [ne_eq, List.isEmpty_iff, List.dropWhile_eq_nil_iff]
      exact fun hall => absurd (hall _ hfeed) (by decide)
    have hbehind : dropBlanks ((dropBlanks (lead ++ (description ++
        (gap ++ ')' :: behind)))).dropWhile (· != '\n')) = ')' :: behind := by
      rw [hbody, hshown, List.dropWhile_append_of_pos hone, List.dropWhile_append, if_neg hrest]
      exact dropWhile_append_of_stops
        (fun c hc => hgap c ((List.dropWhile_suffix _).subset hc)) (hclosing behind)
    exact scanDescription_of_behind hbehind
  · refine scanDescription_of_mem ?_
    have hgap' : ∀ c ∈ gap, (c != '\n') = true := by
      intro c hc
      rw [bne_iff_ne]
      rintro rfl
      exact hfeed hc
    rw [hbody, hshown, Scan.lineRest, List.takeWhile_append_of_pos hone,
      List.takeWhile_append_of_pos hgap']
    exact List.mem_append_right _ (List.mem_append_right _ List.mem_cons_self)

/-! ## One form and the other -/

/-- A text has the form of a connected port's line exactly if it can be taken apart as one. -/
theorem exists_linked_iff :
    (∃ l rest, Linked raw l rest) ↔ ∃ fields, scanLink raw.toList = some fields := by
  simp only [scanLink_eq_some_iff_scanDescription]
  constructor
  · rintro ⟨l, rest, hraw, hcloses⟩
    obtain ⟨d, hd⟩ := hcloses.exists_scanDescription
    exact ⟨l.fields d, l, rest, d, hraw, hd, rfl⟩
  · rintro ⟨_, l, rest, d, hraw, hd, -⟩
    exact ⟨l, rest, hraw, .of_scanDescription hd⟩

/-- A text that begins with an end and goes on with no blank has the port of the end exactly if no
number in it is too long. -/
theorem parsePort_of_spelt (hraw : raw.toList = t.before r) (hr : Stops isBlank r)
    {o : Option PortRecord} : parsePort raw = .ok o ↔ t.Short ∧ some t.record = o := by
  have hscan : scanEnd raw.toList = some (t.parts, r) := scanEnd_eq_some_iff.mpr ⟨t, rfl, hraw, hr⟩
  unfold parsePort
  simp only [hscan, EndText.parts, readNumeral_bind_eq_ok_iff]
  simp only [pure, Except.pure, Except.ok.injEq, EndText.Short, and_assoc]
  rfl

/-- A line that is read as one of a connected port is read as one of its near port. -/
theorem parsePort_of_parseLink {record : LinkRecord} (h : parseLink raw = .ok (some record)) :
    parsePort raw = .ok (some record.near) := by
  cases hscan : scanLink raw.toList with
  | none =>
    unfold parseLink at h
    rw [hscan] at h
    cases h
  | some fields =>
    obtain ⟨l, rest, d, hraw, -, rfl⟩ := scanLink_eq_some_iff_scanDescription.mp hscan
    obtain ⟨hshort, hrecord⟩ := (parseLink_of_scan hscan).mp h
    obtain rfl := Option.some.inj hrecord
    exact (parsePort_of_spelt hraw (Numeral.stops _ _)).mpr ⟨hshort.1, rfl⟩

/-- A line is none of a connected port exactly if it has not the form of one. -/
theorem parseLink_eq_none_iff : parseLink raw = .ok none ↔ ¬ ∃ l rest, Linked raw l rest := by
  rw [exists_linked_iff]
  cases hscan : scanLink raw.toList with
  | none =>
    have hnone : parseLink raw = .ok none := by
      unfold parseLink
      rw [hscan]
    exact iff_of_true hnone nofun
  | some fields =>
    obtain ⟨l, rest, d, -, -, rfl⟩ := scanLink_eq_some_iff_scanDescription.mp hscan
    refine iff_of_false (fun hnone => ?_) (not_not_intro ⟨_, rfl⟩)
    cases ((parseLink_of_scan hscan).mp hnone).2

/-- A line that begins with an end is not passed over. -/
theorem isIgnorable_of_spelt (hraw : raw.toList = t.before r) : isIgnorable raw = false := by
  unfold isIgnorable
  rw [hraw, EndText.before]
  cases t.type with
  | host => rfl
  | switch => rfl

/-- A line that is passed over does not begin with an end. -/
theorem scanEnd_of_isIgnorable (h : isIgnorable raw = true) : scanEnd raw.toList = none := by
  rw [Option.eq_none_iff_forall_ne_some]
  rintro ⟨e, r⟩ hscan
  obtain ⟨t, -, hraw, -⟩ := scanEnd_eq_some_iff.mp hscan
  rw [isIgnorable_of_spelt hraw] at h
  cases h

/-- A line that does not begin with an end is one of no port. -/
theorem parse_of_scanEnd (h : scanEnd raw.toList = none) :
    parseLink raw = .ok none ∧ parsePort raw = .ok none := by
  have hlink : scanLink raw.toList = none := by
    unfold scanLink
    rw [h]
    rfl
  constructor
  · unfold parseLink
    rw [hlink]
  · unfold parsePort
    rw [h]

/-! ## The forms in their order -/

/-- A line that cannot be read as one of a connected port cannot be read. -/
theorem parseLine_of_error {e : Failure} (h : parseLink raw = .error e) :
    parseLine raw = .error e := by
  unfold parseLine
  rw [h]
  rfl

/-- A line that is read as one of a connected port has the record of the link. -/
theorem parseLine_of_some {record : LinkRecord} (h : parseLink raw = .ok (some record)) :
    parseLine raw = .ok (some (.link record)) := by
  unfold parseLine
  rw [h]
  rfl

/-- A line that is none of a connected port is tried as one of a port. -/
theorem parseLine_of_none (h : parseLink raw = .ok none) :
    parseLine raw = (parsePort raw).map (Option.map .port) := by
  unfold parseLine
  rw [h]
  cases parsePort raw with
  | ok o => rfl
  | error e => rfl

/-- A line has the record of a link exactly if it is read as one of a connected port. -/
theorem parseLine_eq_link_iff {record : LinkRecord} :
    parseLine raw = .ok (some (.link record)) ↔ parseLink raw = .ok (some record) := by
  refine ⟨fun h => ?_, parseLine_of_some⟩
  rcases hlink : parseLink raw with e | _ | record'
  · cases (parseLine_of_error hlink).symm.trans h
  · rw [parseLine_of_none hlink] at h
    rcases hport : parsePort raw with e | _ | port <;> rw [hport] at h <;> cases h
  · cases (parseLine_of_some hlink).symm.trans h
    rfl

/-- A line has the record of a port exactly if it is none of a connected port and is read as one
of a port. -/
theorem parseLine_eq_port_iff {record : PortRecord} : parseLine raw = .ok (some (.port record)) ↔
    parseLink raw = .ok none ∧ parsePort raw = .ok (some record) := by
  constructor
  · intro h
    rcases hlink : parseLink raw with e | _ | record'
    · cases (parseLine_of_error hlink).symm.trans h
    · rw [parseLine_of_none hlink] at h
      rcases hport : parsePort raw with e | _ | port <;> rw [hport] at h <;> cases h
      exact ⟨rfl, rfl⟩
    · cases (parseLine_of_some hlink).symm.trans h
  · rintro ⟨hlink, hport⟩
    rw [parseLine_of_none hlink, hport]
    rfl

/-- The line of a connected port is read as such exactly if no number in it is too long, and
otherwise it is not read at all. -/
theorem Linked.read_iff_short (h : Linked raw l rest) :
    ((∃ record, parseLine raw = .ok (some (.link record))) ↔ l.Short) ∧
      ((∃ e, parseLine raw = .error e) ↔ ¬ l.Short) := by
  obtain ⟨hraw, hcloses⟩ := h
  obtain ⟨d, hd⟩ := hcloses.exists_scanDescription
  have hscan : scanLink raw.toList = some (l.fields d) :=
    scanLink_eq_some_iff_scanDescription.mpr ⟨l, rest, d, hraw, hd, rfl⟩
  by_cases hshort : l.Short
  · have hread : parseLine raw = .ok (some (.link (l.record d))) :=
      parseLine_of_some ((parseLink_of_scan hscan).mpr ⟨hshort, rfl⟩)
    refine ⟨iff_of_true ⟨_, hread⟩ hshort, iff_of_false ?_ (not_not_intro hshort)⟩
    rintro ⟨e, he⟩
    cases hread.symm.trans he
  · have hunread : ∃ e, parseLine raw = .error e := by
      cases hlink : parseLink raw with
      | ok o => exact absurd ((parseLink_of_scan hscan).mp hlink).1 hshort
      | error e => exact ⟨e, parseLine_of_error hlink⟩
    refine ⟨iff_of_false ?_ hshort, iff_of_true hunread hshort⟩
    rintro ⟨record, hread⟩
    obtain ⟨e, he⟩ := hunread
    cases hread.symm.trans he

/-- Whatever the text, with line feeds or without: what is read as the line of a connected port is
read as that of its near port; what is passed over is neither. So the record is that of a link
exactly if the text is read as the line of a connected port, and that of a port exactly if it is
read as the line of a port and has not the other form. A text that has the form of a connected
port's line is read as such exactly if no number in it is too long, and cannot be read otherwise. -/
theorem link_lines_read_iff_short (raw : String) :
    (∀ record, parseLink raw = .ok (some record) → parsePort raw = .ok (some record.near)) ∧
    (isIgnorable raw = true →
      parseLink raw = .ok none ∧ parsePort raw = .ok none ∧ parseLine raw = .ok none) ∧
    (∀ record, parseLine raw = .ok (some (.link record)) ↔ parseLink raw = .ok (some record)) ∧
    (∀ record, parseLine raw = .ok (some (.port record)) ↔
      parseLink raw = .ok none ∧ parsePort raw = .ok (some record)) ∧
    (parseLink raw = .ok none ↔ ¬ ∃ l rest, Linked raw l rest) ∧
    ∀ l rest, Linked raw l rest →
      ((∃ record, parseLine raw = .ok (some (.link record))) ↔ l.Short) ∧
        ((∃ e, parseLine raw = .error e) ↔ ¬ l.Short) := by
  refine ⟨fun record => parsePort_of_parseLink, fun h => ?_, fun record => parseLine_eq_link_iff,
    fun record => parseLine_eq_port_iff, parseLink_eq_none_iff, fun l rest => Linked.read_iff_short⟩
  obtain ⟨hlink, hport⟩ := parse_of_scanEnd (scanEnd_of_isIgnorable h)
  refine ⟨hlink, hport, ?_⟩
  rw [parseLine_of_none hlink, hport]
  rfl

/-- The parts of a line on which the local identifier of the near end has 4301 digits, all of them
zero. -/
def overlongText : LinkText :=
  { crowdedText with
    src := { crowdedText.src with
      lid :=
        ⟨List.replicate 4301 '0', List.cons_ne_nil _ _, isDigit_of_mem_replicate (by decide)⟩ } }

/-- The line, with a description. -/
def overlongLine : String := String.ofList (overlongText.before " 'a' - 'b' )".toList)

/-- The line has the form of a connected port's line, but there is no record of it. -/
theorem overlongLine_not_read :
    (∃ l rest, Linked overlongLine l rest) ∧
      ∀ record, parseLine overlongLine ≠ .ok (some record) := by
  have hlinked : Linked overlongLine overlongText " 'a' - 'b' )".toList :=
    ⟨String.toList_ofList, [' '], "'a' - 'b'".toList, [' '], [],
      List.forall_mem_singleton.mpr (by decide), by decide,
      List.forall_mem_singleton.mpr (by decide), rfl⟩
  have hlong : ¬ overlongText.Short := by
    rintro ⟨⟨hlid, -⟩, -⟩
    have hlength : overlongText.src.lid.chars.length = 4301 := List.length_replicate
    rw [hlength] at hlid
    exact absurd hlid (by decide)
  obtain ⟨e, he⟩ := hlinked.read_iff_short.2.mpr hlong
  refine ⟨⟨_, _, hlinked⟩, fun record hread => ?_⟩
  cases he.symm.trans hread

end Discovery

end FabricPaths
