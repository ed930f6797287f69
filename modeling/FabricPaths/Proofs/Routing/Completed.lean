import FabricPaths.Proofs.Routing.Gathering

/-!
# Dumps that were taken in

A dump that was taken in with success adds to the loader what it names and holds, whatever stands
on the lines that were not looked at, and its report bears the name of its source. An entry that
is gathered from several dumps comes from the first one that has an entry for its switch and
destination.
-/

namespace FabricPaths

namespace Dump

/-- The first entry comes from the first dump that has one. -/
theorem first?_flatMap (dumps : List Dump) (switch dest : NodeId) :
    first? (dumps.flatMap added) switch dest =
      dumps.findSome? fun d => first? d.added switch dest := by
  unfold first?
  rw [List.find?_flatMap, List.map_findSome?]
  rfl

end Dump

namespace Loader

/-- All lines of a dump that is not orphaned are looked at. -/
theorem lookedAt_of_not_orphaned {lines : List String} (h : Dump.orphaned lines = false) :
    lookedAt lines = lines := by
  induction lines with
  | nil => rfl
  | cons raw rest ih =>
    unfold lookedAt
    cases hread : RouteLine.read raw with
    | error e =>
      rw [Dump.orphaned_cons, Dump.tells_of_unreadable hread] at h
      exact congrArg (raw :: ·) (ih h)
    | ok line =>
      rw [Dump.orphaned_cons_of_read hread] at h
      cases line with
      | header header => rfl
      | entry r => cases h
      | other => exact congrArg (raw :: ·) (ih h)

/-- Lines of an orphaned dump leave the loader as it is. -/
theorem ingestEach_of_orphaned (report : FileReport) (ls : List SourceLine) (loader : Loader)
    (h : Dump.orphaned (ls.map (·.raw)) = true) :
    (ingestEach report none ls loader).state = loader := by
  induction ls generalizing report with
  | nil => rfl
  | cons l rest ih =>
    have hstep := ingestEach_step report none l rest loader
    generalize ingestEach report none (l :: rest) loader = run at hstep
    rw [List.map_cons] at h
    cases hstep with
    | unreadable read => rfl
    | orphan read => rfl
    | header read =>
      rw [Dump.orphaned_cons_of_read read] at h
      cases h
    | other read =>
      rw [Dump.orphaned_cons_of_read read] at h
      exact ih _ h

/-- A dump that was taken in with success adds what it names and holds. -/
theorem gathers_ingestLines {switches : List NodeId} {entries : List (NodeId × RouteRecord)}
    {loader : Loader} (hg : Gathers loader switches entries) (d : Dump) {report : FileReport}
    (hok : (ingestLines d.source d.lines loader).outcome = .ok report) :
    Gathers (ingestLines d.source d.lines loader).state (switches ++ d.named)
      (entries ++ d.added) := by
  cases horphaned : Dump.orphaned d.lines with
  | false =>
    have hreads := reads_ingestLines d.source d.lines loader
    rw [lookedAt_of_not_orphaned horphaned, hok] at hreads
    cases hreads with
    | error mem refused fails => cases fails
    | ok succeeds readable =>
      have hreadable : d.Readable := by
        intro raw hraw
        cases hentry : Route.parseEntry raw with
        | ok entry => exact ⟨entry, rfl⟩
        | error e => exact absurd (Route.refused_iff_overlong.mp ⟨e, hentry⟩) (readable raw hraw)
      exact (takenIn_ingestLines hg d hreadable).gathers hg
  | true =>
    have hstate : (ingestLines d.source d.lines loader).state.tables = loader.tables ∧
        (ingestLines d.source d.lines loader).state.duplicates = loader.duplicates := by
      have heach := ingestEach_of_orphaned { path := d.source, kind := .routes }
        (SourceLine.number d.source 1 d.lines) loader (by rwa [SourceLine.map_raw_number])
      rcases ingestLines_cases d.source d.lines loader with
        ⟨report, -, -, hstate⟩ | ⟨e, -, -, hstate⟩
      · rw [hstate, heach]
        exact ⟨rfl, rfl⟩
      · rw [hstate, heach]
        exact ⟨rfl, rfl⟩
    unfold Dump.named Dump.added
    rw [if_pos horphaned, if_pos horphaned, List.append_nil, List.append_nil]
    exact hg.congr hstate.1 hstate.2

/-- The report on lines keeps its path. -/
theorem path_ingestEach (report : FileReport) (current : Option NodeId) (ls : List SourceLine)
    (loader : Loader) {report' : FileReport}
    (hok : (ingestEach report current ls loader).outcome = .ok report') :
    report'.path = report.path := by
  induction ls generalizing report current loader with
  | nil =>
    cases hok
    rfl
  | cons l rest ih =>
    have hstep := ingestEach_step report current l rest loader
    generalize ingestEach report current (l :: rest) loader = run at hstep hok
    cases hstep with
    | unreadable read => cases hok
    | header read => exact ih report.countLine.countRecord _ _ hok
    | orphan read =>
      cases hok
      rfl
    | entry read => exact ih report.countLine.countRecord _ _ hok
    | other read => exact ih (report.countLine.skip _) _ _ hok

/-- The report on a dump that was taken in with success is filed under its source. -/
theorem paths_ingestLines (source : String) (lines : List String) (loader : Loader)
    {report : FileReport} (hok : (ingestLines source lines loader).outcome = .ok report) :
    (ingestLines source lines loader).state.files.map (·.path) =
      loader.files.map (·.path) ++ [source] := by
  rcases ingestLines_cases source lines loader with
    ⟨report', heach, -, hstate⟩ | ⟨e, -, houtcome, -⟩
  · rw [hstate]
    dsimp only
    rw [List.map_append, List.map_singleton, path_ingestEach _ _ _ _ heach]
  · rw [houtcome] at hok
    cases hok

end Loader

end FabricPaths
