import FabricPaths.Proofs.Viewer.Watching

/-!
# The verdict on a run

A viewer that is done keeps the event that ended the run, and shows whether the run went well. That
is the verdict of the run itself, unless there was no place for the file of its report: such a run
fails only after it has told that it is done, and the viewer looks no further.
-/

namespace FabricPaths.Viewer

open Extract (ReportLost run)

variable {c : Extract.Config} {w : World} {viewer s : State} {r : Event}

namespace State

/-- The head of the status line for a verdict. -/
def verdictText (ok : Bool) : String :=
  if ok then "  [#00ff88]✓ DONE[/]" else "  [#ff4444]✗ FAILED[/]"

/-- The viewer keeps this event as the end of the run, and shows its verdict. -/
structure Judges (s : State) (r : Event) : Prop where
  /-- The event is kept. -/
  result_eq : s.result = some r
  /-- Its verdict is at the head of the latest status line. -/
  shown : ∃ rest, s.status.getLast? = some (verdictText r.ok ++ rest)

/-- The status line of a viewer with a result begins with its verdict. -/
theorem statusLine_of_result (h : s.result = some r) {t : Moment} {line : String}
    (hline : s.statusLine t = .ok line) : ∃ rest, line = verdictText r.ok ++ rest := by
  unfold statusLine at hline
  rw [h] at hline
  dsimp only at hline
  unfold endLine at hline
  cases hsubnets : r.subnets.text with
  | error e =>
    rw [hsubnets] at hline
    cases hline
  | ok subnets =>
    cases hpaths : r.pathsComplete.text with
    | error e =>
      rw [hsubnets, hpaths] at hline
      cases hline
    | ok paths =>
      cases hmissing : r.pathsMissing.text with
      | error e =>
        rw [hsubnets, hpaths, hmissing] at hline
        cases hline
      | ok missing =>
        rw [hsubnets, hpaths, hmissing] at hline
        cases hline
        unfold verdictText
        cases r.ok with
        | true => exact ⟨_, by simp only [String.append_assoc]; rfl⟩
        | false => exact ⟨_, by simp only [String.append_assoc]; rfl⟩

/-- An event that ends a run becomes the result. -/
theorem result_learn (h : r.kind = .runDone) (s : State) : (s.learn r).result = some r := by
  unfold learn absorb
  rw [h]
  rfl

/-- A viewer judges by the event that ends a run, when it has taken that in last. -/
theorem judges_of_took {es : List Event} (h : Took (es ++ [r]) viewer s) (hr : r.kind = .runDone) :
    s.Judges r := by
  have hresult : s.result = some r := by
    change s.untimed.result = some r
    rw [h.untimed_eq, List.foldl_append]
    exact result_learn hr _
  obtain ⟨t, line, hline, hstatus⟩ :=
    h.status_current (.inl (List.append_ne_nil_of_right_ne_nil _ nofun))
  obtain ⟨rest, rfl⟩ := statusLine_of_result hresult hline
  exact ⟨hresult, rest, hstatus⟩

end State

/-- The events up to the end of a run are those on the way and the first that ends it. -/
theorem upToEnd_of_underway {es : List Event} (h : ∀ e ∈ es, e.Underway) (hr : r.kind = .runDone)
    (rest : List Event) : upToEnd (es ++ r :: rest) = es ++ [r] := by
  rw [upToEnd_append (fun e he => (h e he).not_done), upToEnd_cons_of_done hr]

/-- A viewer that is done judges a run, and judges it as it ended exactly unless the report on the
run is lost: such a run failed, but is shown to be done. -/
theorem verdict_right_iff [Memory] (c : Extract.Config) (w : World) (hviewer : viewer.Legible)
    (schedule : Schedule) (n : Nat)
    (done : ((Scene.start c w viewer).after schedule.turns n).exchange.done = true) :
    ∃ r, ((Scene.start c w viewer).after schedule.turns n).viewer.Judges r ∧
      ((r.ok = true ↔ ∃ report, (run (watched c) w).outcome = .ok report) ↔
        ¬ ReportLost (watched c) w) := by
  obtain ⟨hstands, hfollows, -⟩ := Scene.follows_after (c := c) (w := w) schedule hviewer n
  have htook := hfollows.took
  rw [hstands.taken_of_done done] at htook
  obtain ⟨es, hes, ⟨report, hok, hemitted, hkept⟩ |
    ⟨e, he, ⟨hemitted, hkept⟩ | ⟨report, hemitted, hlost⟩⟩⟩ := emitted_cases c w
  · rw [hemitted, upToEnd_of_underway hes rfl] at htook
    refine ⟨.runDone report, State.judges_of_took htook rfl, iff_of_true ?_ hkept⟩
    exact ⟨fun _ => ⟨report, hok⟩, fun _ => rfl⟩
  · rw [hemitted, upToEnd_of_underway hes rfl] at htook
    refine ⟨.runFailed e, State.judges_of_took htook rfl, iff_of_true ?_ hkept⟩
    refine ⟨nofun, fun ⟨report, hok⟩ => ?_⟩
    cases he.symm.trans hok
  · rw [hemitted, upToEnd_of_underway hes rfl] at htook
    refine ⟨.runDone report, State.judges_of_took htook rfl, iff_of_false (fun h => ?_) ?_⟩
    · obtain ⟨report', hok⟩ := h.mp rfl
      cases he.symm.trans hok
    · exact fun hkept => hkept hlost

/-- An extraction of a directory that is not there. -/
def missingInput : Extract.Config := { inputDir := "in" }

/-- A run without its input directory is shown to have failed. -/
theorem missingInput_shown_failed :
    ∃ n, let x := (Scene.start missingInput (Extract.worldOf []) fresh).after turnByTurn.turns n
      x.exchange.done = true ∧ ∃ r, x.viewer.Judges r ∧ r.ok = false := by
  obtain ⟨n, done⟩ := Scene.exists_done missingInput (Extract.worldOf []) fresh_legible turnByTurn
  obtain ⟨r, hjudges, hright⟩ := verdict_right_iff missingInput _ fresh_legible turnByTurn n done
  have hfailed : (run (watched missingInput) (Extract.worldOf [])).outcome.toOption = none := by
    decide +kernel
  have hkept : ¬ ReportLost (watched missingInput) (Extract.worldOf []) := by
    rintro ⟨report, path, -, hpath, -⟩
    cases hpath
  refine ⟨n, done, r, hjudges, Bool.eq_false_iff.mpr fun hok => ?_⟩
  obtain ⟨report, hreport⟩ := (hright.mpr hkept).mp hok
  rw [hreport] at hfailed
  cases hfailed

/-- An extraction whose report has no place, since a directory has its name. -/
def misplacedReport : Extract.Config := { inputDir := "in", diagFile := .text "in" }

/-- An input directory without dumps. -/
def emptyInput : World := Extract.worldOf [(["in"], .directory)]

/-- The viewer shows that a run is done whose report could not be written. -/
theorem misplacedReport_shown_done :
    (run (watched misplacedReport) emptyInput).outcome.toOption = none ∧
      ((present (.live misplacedReport) emptyInput).toOption.bind (·.state.result)).map (·.ok) =
        some true := by
  decide +kernel

end FabricPaths.Viewer
