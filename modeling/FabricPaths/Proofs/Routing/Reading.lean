import FabricPaths.Proofs.Action
import FabricPaths.Proofs.Report.Line
import FabricPaths.Proofs.Text.Scan
import FabricPaths.Routing.Loader

/-!
# What becomes of route lines

A line of a dump is a header, an entry or neither, unless it is an entry whose port
has more digits than are read: such a line ends the reading of the dump, and no report
is filed. The main statement says that a dump is read with success exactly if none of
the lines that are looked at is of this kind.
-/

namespace FabricPaths

namespace Route

/-- The line is an entry whose port has more digits than are read. -/
def Overlong (raw : String) : Prop :=
  ∃ f, scanEntry raw.toList = some f ∧ Text.digitLimit < f.port.length

/-- An entry line is refused exactly if its port has too many digits, and for no other
reason. -/
theorem parseEntry_eq_error_iff {raw : String} {e : Failure} :
    parseEntry raw = .error e ↔ ∃ f, scanEntry raw.toList = some f ∧
      Text.digitLimit < f.port.length ∧ e = .numeralTooLong f.port.length := by
  unfold parseEntry
  cases scanEntry raw.toList with
  | none =>
    constructor
    · nofun
    · rintro ⟨f, hf, -⟩
      cases hf
  | some f =>
    simp only [Option.some.injEq, exists_eq_left']
    rw [← Text.readNumeral_eq_error_iff]
    cases Text.readNumeral f.port with
    | error e' =>
      exact ⟨fun h => congrArg Except.error (Except.error.inj h),
        fun h => congrArg Except.error (Except.error.inj h)⟩
    | ok n => exact ⟨nofun, nofun⟩

/-- The lines that are refused are the entries whose port has too many digits. -/
theorem refused_iff_overlong {raw : String} :
    (∃ e, parseEntry raw = .error e) ↔ Overlong raw := by
  constructor
  · rintro ⟨e, h⟩
    obtain ⟨f, hf, hlong, -⟩ := parseEntry_eq_error_iff.mp h
    exact ⟨f, hf, hlong⟩
  · rintro ⟨f, hf, hlong⟩
    exact ⟨_, parseEntry_eq_error_iff.mpr ⟨f, hf, hlong, rfl⟩⟩

/-- A header line is no entry line. -/
theorem scanEntry_of_header {raw : String} {h : RouteHeader} (hh : parseHeader raw = some h) :
    scanEntry raw.toList = none := by
  obtain ⟨r, hword, -⟩ := Option.bind_eq_some_iff.mp hh
  unfold Text.Scan.word at hword
  have hopens : headerWord.isPrefixOf raw.toList = true :=
    (Option.ite_none_right_eq_some.mp hword).1
  obtain ⟨rest, hraw⟩ := List.isPrefixOf_iff_prefix.mp hopens
  rw [← hraw]
  rfl

/-- What follows the port on the line of an entry for a switch. -/
def behindPort : List Char := " : (Switch portguid 0x0000000000000011:".toList

/-- The line of an entry for a switch through a given port. -/
def entryLine (port : List Char) : List Char := "0x1 ".toList ++ (port ++ behindPort)

end Route

namespace Loader

/-- A header line is read as one. -/
theorem RouteLine.read_of_header {raw : String} {h : RouteHeader}
    (hh : Route.parseHeader raw = some h) : RouteLine.read raw = .ok (.header h) := by
  unfold RouteLine.read
  rw [hh]

/-- A line cannot be read exactly if it is an entry that is refused. -/
theorem RouteLine.read_eq_error_iff {raw : String} {e : Failure} :
    RouteLine.read raw = .error e ↔ Route.parseEntry raw = .error e := by
  unfold RouteLine.read
  cases hheader : Route.parseHeader raw with
  | some h =>
    have hentry : Route.parseEntry raw = .ok none := by
      unfold Route.parseEntry
      rw [Route.scanEntry_of_header hheader]
    rw [hentry]
    exact ⟨nofun, nofun⟩
  | none =>
    cases Route.parseEntry raw with
    | error e' =>
      exact ⟨fun h => congrArg Except.error (Except.error.inj h),
        fun h => congrArg Except.error (Except.error.inj h)⟩
    | ok entry =>
      cases entry with
      | none => exact ⟨nofun, nofun⟩
      | some r => exact ⟨nofun, nofun⟩

/-- A line can be read if it is no entry that is refused. -/
theorem RouteLine.read_of_entry {raw : String} (h : ∃ entry, Route.parseEntry raw = .ok entry) :
    ∃ line, RouteLine.read raw = .ok line := by
  cases hread : RouteLine.read raw with
  | ok line => exact ⟨line, rfl⟩
  | error e =>
    obtain ⟨entry, hentry⟩ := h
    rw [RouteLine.read_eq_error_iff.mp hread] at hentry
    cases hentry

/-- A line is not refused exactly if it can be read. -/
theorem not_overlong_iff {raw : String} :
    ¬ Route.Overlong raw ↔ ∃ line, RouteLine.read raw = .ok line := by
  rw [← Route.refused_iff_overlong]
  simp only [← RouteLine.read_eq_error_iff]
  cases RouteLine.read raw with
  | ok line => exact iff_of_true nofun ⟨line, rfl⟩
  | error e => exact iff_of_false (fun h => h ⟨e, rfl⟩) nofun

/-- The lines of a dump that are looked at: all of them, unless an entry comes before
any header. -/
def lookedAt : List String → List String
  | [] => []
  | raw :: rest =>
    match RouteLine.read raw with
    | .ok (.entry _) => [raw]
    | .ok (.header _) => raw :: rest
    | .ok .other | .error _ => raw :: lookedAt rest

/-- The lines that are looked at behind the latest header, or from the first line on. -/
def seen : Option NodeId → List String → List String
  | some _, lines => lines
  | none, lines => lookedAt lines

/-- How the first of several lines is taken in, and what the rest comes to then. -/
inductive Step (report : FileReport) (l : SourceLine) (rest : List SourceLine)
    (loader : Loader) : Option NodeId → Run Loader FileReport → Prop
  /-- The line cannot be read. -/
  | unreadable {current : Option NodeId} {e : Failure} (read : RouteLine.read l.raw = .error e) :
    Step report l rest loader current ⟨.error e, loader, []⟩
  /-- The line names the switch of what follows. -/
  | header {current : Option NodeId} {h : RouteHeader}
    (read : RouteLine.read l.raw = .ok (.header h)) :
    Step report l rest loader current
      (ingestEach report.countLine.countRecord (some h.switchId) rest
        { loader with tables := withTable loader.tables h.switchId })
  /-- The line is an entry of no known switch, for which the dump is given up. -/
  | orphan {r : RouteRecord} {log : List Log.Entry} (read : RouteLine.read l.raw = .ok (.entry r)) :
    Step report l rest loader none
      ⟨.ok (report.countLine.skip
        (l.report .orphan reader "Route entry before any 'Unicast lids' header")).abort,
        loader, log⟩
  /-- The line is an entry of the switch. -/
  | entry {switch : NodeId} {r : RouteRecord} {log : List Log.Entry}
    (read : RouteLine.read l.raw = .ok (.entry r)) :
    Step report l rest loader (some switch)
      ⟨(ingestEach report.countLine.countRecord (some switch) rest
          (loader.addEntry switch r).1).outcome,
        (ingestEach report.countLine.countRecord (some switch) rest
          (loader.addEntry switch r).1).state, log⟩
  /-- The line is passed over. -/
  | other {current : Option NodeId} (read : RouteLine.read l.raw = .ok .other) :
    Step report l rest loader current
      (ingestEach (report.countLine.skip (l.report .ignored reader "Not a header or route entry"))
        current rest loader)

/-- Taking an entry in adds it to the table of the switch. -/
theorem takeEntry_run (report : FileReport) (switch : NodeId) (r : RouteRecord)
    (loader : Loader) : ∃ log,
      takeEntry report switch r loader =
        ⟨.ok report.countRecord, (loader.addEntry switch r).1, log⟩ := by
  unfold takeEntry
  rw [Action.get_bind]
  rcases loader.addEntry switch r with ⟨loader', present⟩
  cases present with
  | none => exact ⟨_, rfl⟩
  | some e => exact ⟨_, rfl⟩

/-- Adding an entry files no report. -/
theorem files_addEntry (loader : Loader) (switch : NodeId) (r : RouteRecord) :
    (loader.addEntry switch r).1.files = loader.files := by
  unfold addEntry
  dsimp only
  split
  · rfl
  · rfl

/-- Lines are taken in one by one. -/
theorem ingestEach_step (report : FileReport) (current : Option NodeId) (l : SourceLine)
    (rest : List SourceLine) (loader : Loader) :
    Step report l rest loader current (ingestEach report current (l :: rest) loader) := by
  rw [ingestEach]
  cases hread : RouteLine.read l.raw with
  | error e => exact .unreadable hread
  | ok line =>
    rw [Action.ofExcept_ok_bind]
    cases line with
    | header h => exact .header hread
    | other => exact .other hread
    | entry r =>
      cases current with
      | none => exact .orphan hread
      | some switch =>
        obtain ⟨log, htake⟩ := takeEntry_run report.countLine switch r loader
        dsimp only
        rw [Action.bind_of_ok htake]
        exact .entry hread

/-- The reading of lines succeeds and none of them is refused, or it fails for one of
them. -/
inductive Reads (raws : List String) (outcome : Except Failure FileReport) : Prop
  /-- The reading succeeds. -/
  | ok {report : FileReport} (succeeds : outcome = .ok report)
    (readable : ∀ raw ∈ raws, ¬ Route.Overlong raw)
  /-- The reading fails for a line. -/
  | error {raw : String} {e : Failure} (mem : raw ∈ raws)
    (refused : RouteLine.read raw = .error e) (fails : outcome = .error e)

/-- A line that can be read makes no difference. -/
theorem Reads.cons {raws : List String} {outcome : Except Failure FileReport} {raw : String}
    {line : RouteLine} (h : Reads raws outcome) (read : RouteLine.read raw = .ok line) :
    Reads (raw :: raws) outcome := by
  cases h with
  | ok succeeds readable =>
    exact .ok succeeds (List.forall_mem_cons.mpr ⟨not_overlong_iff.mpr ⟨line, read⟩, readable⟩)
  | error mem refused fails => exact .error (List.mem_cons_of_mem _ mem) refused fails

/-- Taking in lines fails just for the lines that are looked at. -/
theorem reads_ingestEach (report : FileReport) (current : Option NodeId) (ls : List SourceLine)
    (loader : Loader) :
    Reads (seen current (ls.map (·.raw))) (ingestEach report current ls loader).outcome := by
  induction ls generalizing report current loader with
  | nil =>
    refine .ok rfl ?_
    cases current with
    | none => nofun
    | some switch => nofun
  | cons l rest ih =>
    have hstep := ingestEach_step report current l rest loader
    generalize ingestEach report current (l :: rest) loader = run at hstep
    rw [List.map_cons]
    cases hstep with
    | unreadable read =>
      refine .error ?_ read rfl
      cases current with
      | none =>
        rw [seen, lookedAt, read]
        exact List.mem_cons_self
      | some switch => exact List.mem_cons_self
    | header read =>
      have hseen : seen current (l.raw :: rest.map (·.raw)) = l.raw :: rest.map (·.raw) := by
        cases current with
        | none => rw [seen, lookedAt, read]
        | some switch => rfl
      rw [hseen]
      exact (ih _ (some _) _).cons read
    | orphan read =>
      rw [seen, lookedAt, read]
      exact .ok rfl (List.forall_mem_singleton.mpr (not_overlong_iff.mpr ⟨_, read⟩))
    | entry read => exact (ih _ (some _) _).cons read
    | other read =>
      have hseen : seen current (l.raw :: rest.map (·.raw)) =
          l.raw :: seen current (rest.map (·.raw)) := by
        cases current with
        | none =>
          rw [seen, lookedAt, read]
          rfl
        | some switch => rfl
      rw [hseen]
      exact (ih _ _ _).cons read

/-- Taking in lines files no report. -/
theorem files_ingestEach (report : FileReport) (current : Option NodeId) (ls : List SourceLine)
    (loader : Loader) : (ingestEach report current ls loader).state.files = loader.files := by
  induction ls generalizing report current loader with
  | nil => rfl
  | cons l rest ih =>
    have hstep := ingestEach_step report current l rest loader
    generalize ingestEach report current (l :: rest) loader = run at hstep
    cases hstep with
    | unreadable read => rfl
    | header read => exact ih _ _ _
    | orphan read => rfl
    | entry read => exact (ih _ _ _).trans (files_addEntry _ _ _)
    | other read => exact ih _ _ _

/-- Taking in a source is to take in its lines and to file the report. -/
theorem ingestLines_cases (source : String) (lines : List String) (loader : Loader) :
    (∃ report, (ingestEach { path := source, kind := .routes } none
          (SourceLine.number source 1 lines) loader).outcome = .ok report ∧
        (ingestLines source lines loader).outcome = .ok report ∧
        (ingestLines source lines loader).state =
          { (ingestEach { path := source, kind := .routes } none
              (SourceLine.number source 1 lines) loader).state with
            files := loader.files ++ [report] }) ∨
      ∃ e, (ingestEach { path := source, kind := .routes } none
          (SourceLine.number source 1 lines) loader).outcome = .error e ∧
        (ingestLines source lines loader).outcome = .error e ∧
        (ingestLines source lines loader).state =
          (ingestEach { path := source, kind := .routes } none
            (SourceLine.number source 1 lines) loader).state := by
  have hfiles := files_ingestEach { path := source, kind := .routes } none
    (SourceLine.number source 1 lines) loader
  unfold ingestLines
  rcases hr : ingestEach { path := source, kind := .routes } none
    (SourceLine.number source 1 lines) loader with ⟨outcome, s, log⟩
  rw [hr] at hfiles
  cases outcome with
  | ok report =>
    refine .inl ⟨report, rfl, ?_⟩
    rw [Action.bind_of_ok hr, ← hfiles]
    exact ⟨rfl, rfl⟩
  | error e =>
    refine .inr ⟨e, rfl, ?_⟩
    rw [Action.bind_of_error hr]
    exact ⟨rfl, rfl⟩

/-- Taking in a source fails just for the lines that are looked at. -/
theorem reads_ingestLines (source : String) (lines : List String) (loader : Loader) :
    Reads (lookedAt lines) (ingestLines source lines loader).outcome := by
  have hreads := reads_ingestEach { path := source, kind := .routes } none
    (SourceLine.number source 1 lines) loader
  rw [SourceLine.map_raw_number] at hreads
  rcases ingestLines_cases source lines loader with
    ⟨report, heach, houtcome, -⟩ | ⟨e, heach, houtcome, -⟩
  · rw [houtcome, ← heach]
    exact hreads
  · rw [houtcome, ← heach]
    exact hreads

/-- The line of an entry whose port has 4301 digits. -/
def overlongLine : String := String.ofList (Route.entryLine (List.replicate 4301 '1'))

end Loader

end FabricPaths
