import Mathlib.Data.List.TakeWhile
import FabricPaths.Proofs.Builder.Lines
import FabricPaths.Proofs.Routing.Dump

/-!
# Every line is accounted for

Both readers of lines count what they read and report what they pass over. A report accounts
for lines if each of them became a record or is reported as skipped, and never both. One more
line keeps it so, whether it is counted as a record or skipped. The main statement says that
each reader that comes to an end leaves such a report, also where it gives up a dump.
-/

namespace FabricPaths

/-! ## Line feeds at the end -/

namespace Text

/-- The text is the line without the line feeds at its end. -/
def IsLineOf (raw text : String) : Prop :=
  (∃ n, raw.toList = text.toList ++ List.replicate n '\n') ∧ text.toList.getLast? ≠ some '\n'

/-- Dropping line feeds drops those at the end. -/
theorem isLineOf_dropLineFeeds (raw : String) : IsLineOf raw (dropLineFeedsString raw) := by
  have htext : (dropLineFeedsString raw).toList =
      (raw.toList.reverse.dropWhile (· == '\n')).reverse := String.toList_ofList
  rw [IsLineOf, htext]
  constructor
  · have hfeeds : raw.toList.reverse.takeWhile (· == '\n') =
        List.replicate (raw.toList.reverse.takeWhile (· == '\n')).length '\n' := by
      refine List.eq_replicate_of_mem fun c hc => ?_
      have hfeed := List.mem_takeWhile_imp hc
      exact beq_iff_eq.mp hfeed
    refine ⟨(raw.toList.reverse.takeWhile (· == '\n')).length, ?_⟩
    rw [← List.reverse_replicate, ← hfeeds, ← List.reverse_append, List.takeWhile_append_dropWhile,
      List.reverse_reverse]
  · rw [List.getLast?_reverse]
    intro hlast
    have hkept := List.head?_dropWhile_not (· == '\n') raw.toList.reverse
    rw [hlast] at hkept
    cases hkept

end Text

/-- The line at the position is so, given those before it. -/
def LineAt (p : List String → String → Prop) (lines : List String) (i : Nat) : Prop :=
  ∃ raw, lines[i]? = some raw ∧ p (lines.take i) raw

/-- The line behind some lines is so, given these. -/
theorem lineAt_length_iff {p : List String → String → Prop} (before : List String) (raw : String)
    (after : List String) : LineAt p (before ++ raw :: after) before.length ↔ p before raw := by
  unfold LineAt
  rw [List.getElem?_append_right (Nat.le_refl _), Nat.sub_self, List.take_left]
  simp only [List.getElem?_cons_zero, Option.some.injEq, exists_eq_left']

/-! ## Reports -/

namespace FileReport

/-- The report accounts for the lines: each became a record or was skipped, and those that became
records are the ones that were taken. -/
structure Accounts (report : FileReport) (lines : List String) (taken : Nat → Prop) : Prop where
  /-- The lines were read. -/
  linesRead_eq : report.linesRead = (lines.length : Nat)
  /-- Each became a record or was skipped. -/
  sum_eq : report.linesRead = report.records + (report.skipped.length : Nat)
  /-- Lines were skipped in their order, each once. -/
  ascending : report.skipped.Pairwise fun s s' => s.lineno < s'.lineno
  /-- Skipped lines are reported with their texts. -/
  text : ∀ s ∈ report.skipped, ∃ (i : Nat) (raw : String),
    s.lineno = (i : Int) + 1 ∧ lines[i]? = some raw ∧ Text.IsLineOf raw s.raw
  /-- The lines that were not skipped are those that were taken. -/
  absent_iff : ∀ i < lines.length,
    (∀ s ∈ report.skipped, s.lineno ≠ (i : Int) + 1) ↔ taken i

namespace Accounts

variable {report : FileReport} {lines : List String} {taken : Nat → Prop}

/-- An empty report accounts for no lines. -/
theorem empty (source : String) (kind : FileKind) (taken : Nat → Prop) :
    ({ path := source, kind } : FileReport).Accounts [] taken where
  linesRead_eq := rfl
  sum_eq := rfl
  ascending := .nil
  text := nofun
  absent_iff := nofun

/-- Skipped lines are among the lines that were read. -/
theorem lineno_le (h : report.Accounts lines taken) {s : LineReport} (hs : s ∈ report.skipped) :
    s.lineno ≤ (lines.length : Nat) := by
  obtain ⟨i, raw, hlineno, hraw, -⟩ := h.text s hs
  have hlt : i < lines.length := (List.getElem?_eq_some_iff.mp hraw).1
  omega

/-- The texts of skipped lines stay what they are. -/
theorem text_concat (h : report.Accounts lines taken) (raw : String) {s : LineReport}
    (hs : s ∈ report.skipped) : ∃ (i : Nat) (raw' : String),
      s.lineno = (i : Int) + 1 ∧ (lines ++ [raw])[i]? = some raw' ∧ Text.IsLineOf raw' s.raw := by
  obtain ⟨i, raw', hlineno, hraw, htext⟩ := h.text s hs
  refine ⟨i, raw', hlineno, ?_, htext⟩
  rw [List.getElem?_append_left (List.getElem?_eq_some_iff.mp hraw).1, hraw]

/-- A line is before the last one or is the last one. -/
theorem lt_or_eq_of_concat {raw : String} {i : Nat} (hi : i < (lines ++ [raw]).length) :
    i < lines.length ∨ i = lines.length := by
  rw [List.length_append, List.length_singleton] at hi
  omega

/-- One more line that is taken is counted as a record. -/
theorem record (h : report.Accounts lines taken) (raw : String) (htaken : taken lines.length) :
    report.countLine.countRecord.Accounts (lines ++ [raw]) taken where
  linesRead_eq := by
    rw [List.length_append, List.length_singleton, Int.natCast_add, ← h.linesRead_eq]
    rfl
  sum_eq := by
    change report.linesRead + 1 = report.records + 1 + (report.skipped.length : Nat)
    rw [h.sum_eq, Int.add_right_comm]
  ascending := h.ascending
  text := fun _ hs => h.text_concat raw hs
  absent_iff := by
    intro i hi
    rcases lt_or_eq_of_concat hi with hi | rfl
    · exact h.absent_iff i hi
    · refine iff_of_true (fun s hs heq => ?_) htaken
      have hle := h.lineno_le hs
      omega

/-- One more line that is not taken is skipped. -/
theorem skip (h : report.Accounts lines taken) {l : SourceLine}
    (hlineno : l.lineno = (lines.length : Int) + 1) (hnot : ¬ taken lines.length)
    (verdict : LineVerdict) (reader detail : String) :
    (report.countLine.skip (l.report verdict reader detail)).Accounts (lines ++ [l.raw])
      taken where
  linesRead_eq := by
    rw [List.length_append, List.length_singleton, Int.natCast_add, ← h.linesRead_eq]
    rfl
  sum_eq := by
    change report.linesRead + 1 = report.records + ((report.skipped ++ [_]).length : Nat)
    rw [List.length_append, List.length_singleton, Int.natCast_add, ← Int.add_assoc, h.sum_eq]
    rfl
  ascending := by
    change (report.skipped ++ [_]).Pairwise _
    rw [List.pairwise_append]
    refine ⟨h.ascending, List.pairwise_singleton _ _, fun s hs t ht => ?_⟩
    have hle := h.lineno_le hs
    have hlast : t.lineno = (lines.length : Int) + 1 := by
      rw [List.mem_singleton.mp ht]
      exact hlineno
    omega
  text := by
    intro s hs
    rcases List.mem_append.mp hs with hs | hs
    · exact h.text_concat l.raw hs
    · rw [List.mem_singleton.mp hs]
      exact ⟨lines.length, l.raw, hlineno, List.getElem?_concat_length,
        Text.isLineOf_dropLineFeeds l.raw⟩
  absent_iff := by
    intro i hi
    change (∀ s ∈ report.skipped ++ [_], s.lineno ≠ (i : Int) + 1) ↔ taken i
    rw [List.forall_mem_append, List.forall_mem_singleton]
    rcases lt_or_eq_of_concat hi with hi | rfl
    · have hother : (l.report verdict reader detail).lineno ≠ (i : Int) + 1 := by
        change l.lineno ≠ _
        omega
      rw [and_iff_left hother]
      exact h.absent_iff i hi
    · exact iff_of_false (fun habsent => habsent.2 hlineno) hnot

end Accounts

end FileReport

/-! ## Discovery lines -/

namespace Builder

/-- A line without a record is reported. -/
theorem passed?_of_none {l : SourceLine} (h : record? l.raw = none) :
    ∃ verdict detail, passed? l = some (l.report verdict reader detail) := by
  unfold record? at h
  unfold passed?
  split at h
  · rename_i hignorable
    rw [if_pos hignorable]
    exact ⟨_, _, rfl⟩
  · rename_i hignorable
    rw [if_neg hignorable]
    cases hparse : Discovery.parseLine l.raw with
    | error e => exact ⟨_, _, rfl⟩
    | ok parsed =>
      cases parsed with
      | none => exact ⟨_, _, rfl⟩
      | some r =>
        rw [hparse] at h
        cases h

variable {β : Type} [Memory] [Bandwidth β]

/-- The line holds a record, and the record is taken in. -/
def Ingests (b : Builder β) (raw : String) : Prop :=
  ∃ r link, record? raw = some r ∧ (ingest r b).outcome = .ok link

/-- The line at a position holds a record, and the record is taken in behind those of the lines
before. -/
def Takes (b : Builder β) : List String → Nat → Prop :=
  LineAt fun before raw => (b.run (recordCalls before)).Ingests raw

/-- A line that does not end the reading is counted as a record or reported, and its record was
taken in or not. -/
theorem ingestLine_cases {report report' : FileReport} {l : SourceLine} {b : Builder β}
    (h : (ingestLine report l b).outcome = .ok report') :
    (ingestLine report l b).state = b.run (recordCalls [l.raw]) ∧
      ((b.Ingests l.raw ∧ report' = report.countLine.countRecord) ∨
        (¬ b.Ingests l.raw ∧ ∃ verdict detail,
          report' = report.countLine.skip (l.report verdict reader detail))) := by
  cases hrecord : record? l.raw with
  | none =>
    have hcalls : recordCalls [l.raw] = [] := by
      simp only [recordCalls, List.filterMap_cons_none hrecord, List.filterMap_nil, List.map_nil]
    obtain ⟨houtcome, hstate⟩ := ingestLine_of_none hrecord report b
    obtain ⟨verdict, detail, hpassed⟩ := passed?_of_none hrecord
    rw [houtcome] at h
    have hreport : report' = account report l := (Except.ok.inj h).symm
    refine ⟨hcalls ▸ hstate, .inr ⟨?_, verdict, detail, ?_⟩⟩
    · rintro ⟨r, link, hr, -⟩
      rw [hrecord] at hr
      cases hr
    · rw [hreport, account, hpassed]
  | some r =>
    have hcalls : recordCalls [l.raw] = [.ingest r] := by
      simp only [recordCalls, List.filterMap_cons_some hrecord, List.filterMap_nil, List.map_cons,
        List.map_nil]
    obtain ⟨houtcome, hstate⟩ := takeIn_run report.countLine l r b
    rw [(ingestLine_of_record hrecord report).1] at h ⊢
    rw [houtcome] at h
    refine ⟨hcalls ▸ hstate, ?_⟩
    cases hingest : (ingest r b).outcome with
    | ok link =>
      rw [hingest] at h
      exact .inl ⟨⟨r, link, hrecord, hingest⟩, (Except.ok.inj h).symm⟩
    | error e =>
      rw [hingest, settled] at h
      refine .inr ⟨?_, .noMatch, e.message, ?_⟩
      · rintro ⟨r', link, hr', hlink⟩
        rw [hrecord] at hr'
        cases hr'
        rw [hingest] at hlink
        cases hlink
      · split at h
        · exact (Except.ok.inj h).symm
        · cases h

/-- Lines that are read to their end are accounted for, together with those before them. -/
theorem accounts_ingestEach (source : String) {b : Builder β} (before rest : List String)
    {report report' : FileReport}
    (h : report.Accounts before (b.Takes (before ++ rest)))
    (hok : (ingestEach report (SourceLine.number source (before.length + 1) rest)
      (b.run (recordCalls before))).outcome = .ok report') :
    report'.Accounts (before ++ rest) (b.Takes (before ++ rest)) := by
  induction rest generalizing before report with
  | nil =>
    rw [List.append_nil] at h ⊢
    cases hok
    exact h
  | cons raw rest ih =>
    rw [SourceLine.number, ingestEach] at hok
    rcases hline : ingestLine report ⟨source, (before.length + 1 : Nat), raw⟩
      (b.run (recordCalls before)) with ⟨outcome, s, log⟩
    cases outcome with
    | error e =>
      rw [Action.bind_of_error hline] at hok
      cases hok
    | ok next =>
      rw [Action.bind_of_ok hline] at hok
      obtain ⟨hstate, hcases⟩ := ingestLine_cases (congrArg Run.outcome hline)
      rw [hline] at hstate
      have hnext : next.Accounts (before ++ [raw]) (b.Takes (before ++ raw :: rest)) := by
        have htakes : b.Takes (before ++ raw :: rest) before.length ↔ _ :=
          lineAt_length_iff before raw rest
        rcases hcases with ⟨htaken, rfl⟩ | ⟨hnot, verdict, detail, rfl⟩
        · exact h.record raw (htakes.mpr htaken)
        · exact h.skip (Int.natCast_add _ _) (mt htakes.mp hnot) verdict reader detail
      have hrun : s = b.run (recordCalls (before ++ [raw])) := by
        rw [recordCalls_append, run_append]
        exact hstate
      have hlength : before.length + 1 + 1 = (before ++ [raw]).length + 1 := by
        rw [List.length_append, List.length_singleton]
      rw [List.append_cons before raw rest] at hnext ⊢
      dsimp only at hok
      rw [hrun, hlength] at hok
      exact ih _ hnext hok

/-- A source that is read to its end is accounted for. -/
theorem accounts_ingestLines {source : String} {lines : List String} {b : Builder β}
    {report : FileReport} (hok : (ingestLines source lines b).outcome = .ok report) :
    report.Accounts lines (b.Takes lines) := by
  unfold ingestLines at hok
  rcases heach : ingestEach { path := source, kind := .discovery }
    (SourceLine.number source 1 lines) b with ⟨outcome, s, log⟩
  cases outcome with
  | error e =>
    rw [Action.bind_of_error heach] at hok
    cases hok
  | ok report' =>
    rw [Action.bind_of_ok heach] at hok
    cases hok
    exact accounts_ingestEach source [] lines (.empty source .discovery _)
      (congrArg Run.outcome heach)

end Builder

/-! ## Route lines -/

namespace Dump

/-- The line at a position is a header, or an entry behind one. -/
def Takes : List String → Nat → Prop :=
  LineAt fun before raw => (∃ s, header? raw = some s) ∨
    ∃ r s, record? raw = some r ∧ latest? before = some s

/-- The report accounts for the lines that were read. These are all lines unless the dump was
given up, and then the last of them is an entry before any header. -/
structure Accounted (report : FileReport) (lines : List String) : Prop where
  /-- The lines that were read are accounted for. -/
  accounts : report.Accounts (lines.take report.linesRead.toNat) (Takes lines)
  /-- All lines were read if the dump was not given up, and none of them is malformed. -/
  whole : report.aborted = false → report.linesRead = (lines.length : Nat) ∧ report.malformed = []
  /-- If the dump was given up, none of its lines became a record, the last line that was read is
  an orphan, and those before it carry no data. -/
  givenUp : report.aborted = true → report.records = 0 ∧ ∃ earlier orphan,
    report.skipped = earlier ++ [orphan] ∧ orphan.lineno = report.linesRead ∧
      orphan.verdict = .orphan ∧ ∀ s ∈ earlier, s.verdict = .ignored

/-- The report on the lines that were read so far, as long as the dump is not given up. -/
structure Progress (report : FileReport) (before : List String) (taken : Nat → Prop) : Prop where
  /-- The lines are accounted for. -/
  accounts : report.Accounts before taken
  /-- The dump is not given up. -/
  going : report.aborted = false
  /-- The lines that were skipped carry no data. -/
  ignored : ∀ s ∈ report.skipped, s.verdict = .ignored
  /-- There are no records before the first header. -/
  headerless : latest? before = none → report.records = 0

namespace Progress

variable {report : FileReport} {before : List String} {taken : Nat → Prop} {raw : String}

/-- A line that becomes a record is a header, or there is one before it. -/
theorem record (h : Progress report before taken) (htaken : taken before.length)
    (hlatest : ∃ s, latest? (before ++ [raw]) = some s) :
    Progress report.countLine.countRecord (before ++ [raw]) taken where
  accounts := h.accounts.record raw htaken
  going := h.going
  ignored := h.ignored
  headerless := by
    obtain ⟨s, hs⟩ := hlatest
    intro hnone
    rw [hs] at hnone
    cases hnone

/-- A line that carries no data is skipped. -/
theorem skip (h : Progress report before taken) {l : SourceLine}
    (hlineno : l.lineno = (before.length : Int) + 1) (hnot : ¬ taken before.length)
    (hheader : header? l.raw = none) (reader detail : String) :
    Progress (report.countLine.skip (l.report .ignored reader detail)) (before ++ [l.raw])
      taken where
  accounts := h.accounts.skip hlineno hnot _ _ _
  going := h.going
  ignored := List.forall_mem_append.mpr ⟨h.ignored, List.forall_mem_singleton.mpr rfl⟩
  headerless := by
    rw [latest?_concat_of_other hheader before]
    exact h.headerless

/-- A dump that was read to its end is accounted for. -/
theorem accounted (h : Progress report before (Takes before)) : Accounted report before where
  accounts := by
    rw [h.accounts.linesRead_eq, Int.toNat_natCast, List.take_length]
    exact h.accounts
  whole := by
    refine fun _ => ⟨h.accounts.linesRead_eq, ?_⟩
    rw [FileReport.malformed, List.filter_eq_nil_iff]
    intro s hs
    rw [h.ignored s hs]
    exact Bool.false_ne_true
  givenUp := by
    intro haborted
    rw [h.going] at haborted
    cases haborted

/-- A dump that is given up for an entry before any header is accounted for up to this entry. -/
theorem givenUp {l : SourceLine} {after : List String}
    (h : Progress report before (Takes (before ++ l.raw :: after)))
    (hlineno : l.lineno = (before.length : Int) + 1)
    (hnot : ¬ Takes (before ++ l.raw :: after) before.length) (hlatest : latest? before = none)
    (reader detail : String) :
    Accounted (report.countLine.skip (l.report .orphan reader detail)).abort
      (before ++ l.raw :: after) := by
  have haccounts := h.accounts.skip hlineno hnot .orphan reader detail
  have hread : (report.countLine.skip (l.report .orphan reader detail)).abort.linesRead =
      ((before ++ [l.raw]).length : Nat) := haccounts.linesRead_eq
  refine ⟨?_, nofun, fun _ =>
    ⟨h.headerless hlatest, report.skipped, _, rfl, ?_, rfl, h.ignored⟩⟩
  · have htake : (before ++ l.raw :: after).take (before ++ [l.raw]).length =
        before ++ [l.raw] := by
      rw [List.append_cons before l.raw after, List.take_left]
    rw [hread, Int.toNat_natCast, htake]
    exact ⟨haccounts.linesRead_eq, haccounts.sum_eq, haccounts.ascending, haccounts.text,
      haccounts.absent_iff⟩
  · rw [hread, List.length_append, List.length_singleton, Int.natCast_add]
    exact hlineno

end Progress

end Dump

namespace Loader

/-- Lines that are read until they end or are given up are accounted for, together with those
before them. -/
theorem accounted_ingestEach (source : String) (before rest : List String)
    {report report' : FileReport} {loader : Loader}
    (h : Dump.Progress report before (Dump.Takes (before ++ rest)))
    (hok : (ingestEach report (Dump.latest? before)
      (SourceLine.number source (before.length + 1) rest) loader).outcome = .ok report') :
    Dump.Accounted report' (before ++ rest) := by
  induction rest generalizing before report loader with
  | nil =>
    rw [List.append_nil] at h ⊢
    cases hok
    exact h.accounted
  | cons raw rest ih =>
    have hlength : before.length + 1 + 1 = (before ++ [raw]).length + 1 := by
      rw [List.length_append, List.length_singleton]
    have hnumber := Int.natCast_add before.length 1
    rw [SourceLine.number, hlength] at hok
    have hstep := ingestEach_step report (Dump.latest? before)
      ⟨source, (before.length + 1 : Nat), raw⟩
      (SourceLine.number source ((before ++ [raw]).length + 1) rest) loader
    generalize ingestEach report (Dump.latest? before) _ loader = run at hok hstep
    have htakes : Dump.Takes (before ++ raw :: rest) before.length ↔ _ :=
      lineAt_length_iff before raw rest
    generalize hcurrent : Dump.latest? before = current at hstep
    cases hstep with
    | unreadable read => cases hok
    | header read =>
      obtain ⟨hheader, -⟩ := Dump.of_read read
      have hlatest := Dump.latest?_concat_of_header hheader before
      have htaken := htakes.mpr (.inl ⟨_, hheader⟩)
      rw [List.append_cons before raw rest] at h htaken ⊢
      rw [← hlatest] at hok
      exact ih _ (h.record htaken ⟨_, hlatest⟩) hok
    | orphan read =>
      obtain ⟨hheader, -⟩ := Dump.of_read read
      cases hok
      have hnot : ¬ Dump.Takes (before ++ raw :: rest) before.length := by
        rw [htakes, hheader, hcurrent]
        rintro (⟨s, hs⟩ | ⟨r, s, -, hs⟩)
        · cases hs
        · cases hs
      exact h.givenUp hnumber hnot hcurrent _ _
    | @entry switch r log read =>
      obtain ⟨hheader, hentry⟩ := Dump.of_read read
      have hlatest := (Dump.latest?_concat_of_other hheader before).trans hcurrent
      have htaken := htakes.mpr (.inr ⟨r, switch, hentry, hcurrent⟩)
      rw [List.append_cons before raw rest] at h htaken ⊢
      rw [← hlatest] at hok
      exact ih _ (h.record htaken ⟨_, hlatest⟩) hok
    | other read =>
      obtain ⟨hheader, hentry⟩ := Dump.of_read read
      have hlatest := (Dump.latest?_concat_of_other hheader before).trans hcurrent
      have hnot : ¬ Dump.Takes (before ++ raw :: rest) before.length := by
        rw [htakes, hheader, hentry]
        rintro (⟨s, hs⟩ | ⟨r, s, hr, -⟩)
        · cases hs
        · cases hr
      rw [List.append_cons before raw rest] at h hnot ⊢
      rw [← hlatest] at hok
      exact ih _ (h.skip hnumber hnot hheader _ _) hok

/-- A source that is read until it ends or is given up is accounted for. -/
theorem accounted_ingestLines {source : String} {lines : List String} {loader : Loader}
    {report : FileReport} (hok : (ingestLines source lines loader).outcome = .ok report) :
    Dump.Accounted report lines := by
  have hstart : Dump.Progress { path := source, kind := .routes } [] (Dump.Takes lines) :=
    ⟨.empty source .routes _, rfl, nofun, fun _ => rfl⟩
  rcases ingestLines_cases source lines loader with
    ⟨report', heach, houtcome, -⟩ | ⟨e, -, herror, -⟩
  · rw [houtcome] at hok
    cases hok
    exact accounted_ingestEach source [] lines hstart heach
  · rw [herror] at hok
    cases hok

end Loader

/-! ## Both readers -/

/-- A reader of discovery lines that comes to an end has read all lines and accounts for them. A
reader of route lines that comes to an end accounts for the lines that it has read. These are all
lines, none of them malformed, unless it gives the dump up; then there are no records, and the
last line that was read is an orphan behind lines without data. -/
theorem lines_accounted_once {β : Type} [Memory] [Bandwidth β] (source : String)
    (lines : List String) :
    (∀ (b : Builder β) report, (Builder.ingestLines source lines b).outcome = .ok report →
      report.Accounts lines (b.Takes lines)) ∧
    ∀ (loader : Loader) report, (Loader.ingestLines source lines loader).outcome = .ok report →
      Dump.Accounted report lines :=
  ⟨fun _ _ hok => Builder.accounts_ingestLines hok,
    fun _ _ hok => Loader.accounted_ingestLines hok⟩

/-- A comment, a link and the entry of a dump. -/
def sampleMixture : List String := [
  "# cables",
  "SW 1 1 0x00000000000000a1 4x QDR - CA 11 1 0x0000000000000011 ( 'sw-1' - 'n-11' )",
  "0x1 1 : (Switch portguid 0x0000000000000011:"]

/-- The link is the record of the discovery, and the entry ends the dump. -/
theorem sampleMixture_accounted :
    (∃ report,
      (Builder.ingestLines (β := Float) "s" sampleMixture (.start "t")).outcome = .ok report ∧
        report.skipped.map (·.lineno) = [1, 3] ∧
        report.Accounts sampleMixture ((Builder.start "t" : Builder Float).Takes sampleMixture)) ∧
    ∃ report, (Loader.ingestLines "s" sampleMixture {}).outcome = .ok report ∧
      report.aborted = true ∧ Dump.Accounted report sampleMixture := by
  obtain ⟨hdiscovery, hroutes⟩ := lines_accounted_once (β := Float) "s" sampleMixture
  have hroom : ∀ raw ∈ sampleMixture, Builder.Roomy raw := by decide +kernel
  have hnone : ∀ raw ∈ sampleMixture, ¬ Builder.Fatal raw := by decide +kernel
  have hlinks := (Builder.ingestLines_of_none_fatal (β := Float) hroom hnone "s" (.start "t")).1
  have hdump : ∃ report, (Loader.ingestLines "s" sampleMixture {}).outcome = .ok report ∧
      report.aborted = true := ⟨_, rfl, rfl⟩
  obtain ⟨report, hread, haborted⟩ := hdump
  exact ⟨⟨_, hlinks, by decide +kernel, hdiscovery _ _ hlinks⟩, report, hread, haborted,
    hroutes _ _ hread⟩

end FabricPaths
