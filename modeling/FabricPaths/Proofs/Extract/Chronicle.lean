import FabricPaths.Proofs.Extract.Story

/-!
# What is told of a run

A run that succeeds tells the stories of its subnets, one after another, and then that it is
done. The totals that it tells at the end are those of the subnets, and those of its report.
-/

namespace FabricPaths

/-- The member of a document under a name. -/
def Json.member? (name : String) : Json → Option Json
  | .obj members => members.lookup name
  | _ => none

/-- A figure in the summary of the document of a report. -/
def RunReport.figure? (report : RunReport) (withLines : Bool) (name : String) : Option Json :=
  ((report.toJson withLines).member? "summary").bind (Json.member? name)

/-- The event tells that a subnet is done. -/
def Event.endsSubnet (e : Event) : Bool := decide (e.kind = .subnetDone)

namespace Extract

open World (Silent Tells)

variable {c : Config} {hwlocDir : Option String} {subnets : List (String × String)}
  {w w' : World} {outcome : Except Failure Unit}

/-- Setting up the log is silent. -/
theorem silent_setUpLog (s : Log.Settings) : Silent (World.setUpLog s) := by
  intro es
  have hC := Action.Keeps.compositional (I := fun w : World => w.told = es)
  have hfile : ∀ p, Action.Keeps (fun w : World => w.told = es) (World.fileHandler p) := by
    intro p
    unfold World.fileHandler
    refine hC.bind (fun _ h => h) fun v => ?_
    rw [World.create_eq]
    exact hC.bind (keeps_putFile (fun _ _ h => h) _ _) fun _ => hC.pure _
  have hput : ∀ file, Action.Keeps (fun w : World => w.told = es)
      (Action.modify fun w => { w with handlers := s.handlers file }) :=
    fun file => Action.Keeps.modify fun _ h => h
  unfold World.setUpLog
  refine hC.bind (Action.Keeps.modify fun _ h => h) fun _ => ?_
  dsimp only
  cases s.file.chosen? with
  | none => exact hC.bind (hC.pure _) hput
  | some p => exact hC.bind (hC.bind (hfile p) fun _ => hC.pure _) hput

/-- Opening a run is silent. -/
theorem silent_opening (c : Config) : Silent (opening c) := by
  intro es
  have hC := Action.Keeps.compositional (I := fun w : World => w.told = es)
  unfold opening prepare
  refine hC.bind (hC.bind (silent_setUpLog _ es) fun _ => hC.bind (silent_now es) fun started =>
    hC.bind (Action.Keeps.modify fun _ h => h) fun _ => keeps_checkDirectories c) fun hwlocDir => ?_
  refine hC.bind (hC.bind (World.keeps_list _) fun _ => hC.pure _) fun subnets => ?_
  split
  · exact hC.bind ((World.quiet_told es).keeps_say _ _ _) fun _ => hC.pure _
  · exact hC.pure _

/-- The closing of a run tells that the run is done. -/
theorem tells_closing (ho : c.observer = some Observer.recorder) :
    Tells (fun report es => es = [.runDone report]) (closing c) := by
  have hwrite : ∀ path text, Silent (World.write path text) := by
    intro path text es
    have hC := Action.Keeps.compositional (I := fun w : World => w.told = es)
    rw [World.write_eq]
    exact hC.bind (keeps_putFile (fun _ _ h => h) _ _) fun _ => hC.pure _
  unfold closing modifyReport currentReport
  refine Tells.after_any silent_now fun completed => ?_
  refine Tells.after_any (fun _ => Action.Keeps.modify fun _ h => h) fun _ => ?_
  refine Tells.after_any (fun _ _ h => h) fun report => ?_
  refine (Tells.configNotify ho _).bind ?_
  rintro _ _ rfl
  cases c.diagFile.chosen? with
  | none => exact .pure rfl
  | some path => exact Tells.after_any (hwrite _ _) fun _ => .pure rfl

namespace Story

/-- The story is that of the subnet at a stage. -/
def OfStage (stage : Stage) (story : Story) : Prop :=
  story.entry = stage.entry ∧ ∃ f, stage.run.outcome = .ok (f, story.report) ∧ story.Fits f

/-- The end of a story is told once. -/
theorem Fits.filter_events {s : Story} {f : Fabric Float} (h : s.Fits f) :
    s.events.filter Event.endsSubnet = [.subnetDone s.report] := by
  have hkinds : ∀ e ∈ s.walks, e.kind = .path := by
    have hwalks := h.walks
    generalize Fabric.hostPairs f.hosts = pairs, s.walks = walks at hwalks
    induction hwalks with
    | nil => exact fun _ he => absurd he List.not_mem_nil
    | cons htold _ ih => exact List.forall_mem_cons.mpr ⟨htold.kind_eq, ih⟩
  have hwalks : s.walks.filter Event.endsSubnet = [] := by
    rw [List.filter_eq_nil_iff]
    intro e he
    rw [Event.endsSubnet, hkinds e he]
    exact Bool.false_ne_true
  have hgroups : (partitionEvents s.subnet s.groups).filter Event.endsSubnet = [] := by
    rw [List.filter_eq_nil_iff]
    intro e he
    obtain ⟨i, hi, rfl⟩ := List.mem_mapIdx.mp he
    exact Bool.false_ne_true
  rw [events, List.filter_append, List.filter_append, List.filter_cons_of_neg Bool.false_ne_true,
    hwalks, hgroups]
  rfl

end Story

/-- Subnets that are extracted have their stories told. -/
theorem Extracts.tells [Memory] (ho : c.observer = some Observer.recorder) {run : List Stage}
    (h : Extracts c hwlocDir subnets w run outcome w') (hok : outcome = .ok ()) :
    ∃ stories : List Story, w'.told = w.told ++ stories.flatMap Story.events ∧
      List.Forall₂ Story.OfStage run stories := by
  induction h with
  | done => exact ⟨[], (List.append_nil _).symm, .nil⟩
  | failed hrun => cases hok
  | @next subnet file rest w w' w'' f report log later outcome hrun others ih =>
    obtain ⟨stories, htold, hstories⟩ := ih hok
    have hfirst := tells_processSubnet ho hwlocDir subnet file w (f, report)
    rw [hrun] at hfirst
    obtain ⟨_, hevents, story, hentry, rfl, rfl, hfits⟩ := hfirst rfl
    refine ⟨story :: stories, ?_, .cons ⟨hentry, f, rfl, hfits⟩ hstories⟩
    have hkept : (withSubnet story.report w').told = w'.told := rfl
    rw [htold, hkept, hevents, List.flatMap_cons, List.append_assoc]

/-- The totals that an event tells are those of the subnets that others tell to be done. -/
structure Totals (e : Event) (told : List Event) : Prop where
  /-- The subnets. -/
  subnets : e.subnets.value = (told.filter Event.endsSubnet).length
  /-- The complete walks. -/
  complete : e.pathsComplete.value =
    ((told.filter Event.endsSubnet).map (·.pathsComplete.value)).foldr (· + ·) 0
  /-- The walks that stopped short. -/
  missing : e.pathsMissing.value =
    ((told.filter Event.endsSubnet).map (·.pathsMissing.value)).foldr (· + ·) 0

/-- The document of a report has the totals of an event in its summary. -/
structure Summarizes (report : RunReport) (e : Event) (withLines : Bool) : Prop where
  /-- The subnets. -/
  subnets : report.figure? withLines "subnets" = some (.int e.subnets.value)
  /-- The complete walks. -/
  complete : report.figure? withLines "paths_complete" = some (.int e.pathsComplete.value)
  /-- The walks that stopped short. -/
  missing : report.figure? withLines "paths_missing" = some (.int e.pathsMissing.value)

/-- The document of a report has the totals that are told at the end. -/
theorem summarizes_runDone (report : RunReport) (withLines : Bool) :
    Summarizes report (.runDone report) withLines :=
  ⟨rfl, rfl, rfl⟩

/-- The stories have the reports of the stages, and tell the ends of the subnets in order. -/
theorem reports_of_stories {run : List Stage} {stories : List Story}
    (h : List.Forall₂ Story.OfStage run stories) :
    run.map Stage.entry = stories.map Story.entry ∧
      run.filterMap Stage.report? = stories.map (·.report) ∧
      (stories.flatMap Story.events).filter Event.endsSubnet =
        stories.map fun story => .subnetDone story.report := by
  induction h with
  | nil => exact ⟨rfl, rfl, rfl⟩
  | @cons stage story run stories hstage _ ih =>
    obtain ⟨hentry, f, hrun, hfits⟩ := hstage
    obtain ⟨hentries, hreports, hevents⟩ := ih
    have hreport : stage.report? = some story.report := by
      rw [Stage.report?, hrun]
    refine ⟨?_, ?_, ?_⟩
    · rw [List.map_cons, List.map_cons, hentry, hentries]
    · rw [List.filterMap_cons_some hreport, List.map_cons, hreports]
    · rw [List.flatMap_cons, List.filter_append, hfits.filter_events, hevents]
      rfl

/-- A run that succeeds tells the stories of its subnets in order, and then that it is done,
with the totals of the subnets, which are those of its report. -/
theorem run_tells_stories [Memory] {report : RunReport}
    (ho : c.observer = some Observer.recorder)
    (h : (run c w).outcome = .ok report) : ∃ stories : List Story,
      (run c w).state.told = w.told ++ stories.flatMap Story.events ++ [.runDone report] ∧
      stories.map Story.entry = (findings c w).2 ∧
      List.Forall₂ Story.OfStage (stagesOf c w) stories ∧
      report.subnets = stories.map (·.report) ∧
      Totals (.runDone report) (stories.flatMap Story.events) ∧
      ∀ withLines, Summarizes report (.runDone report) withLines := by
  obtain ⟨hsubnets, hentries⟩ := report_of_run h
  rcases run_cases c w with ⟨e, -, he, -⟩ |
    ⟨-, outcome, u, hextracts, ⟨e, -, he, -⟩ | ⟨hok, houtcome, hstate⟩⟩
  · cases h.symm.trans he
  · cases h.symm.trans he
  obtain ⟨stories, htold, hstories⟩ := hextracts.tells ho hok
  obtain ⟨_, hclosed, rfl⟩ := tells_closing ho u report (houtcome.symm.trans h)
  obtain ⟨hsame, hreports, hends⟩ := reports_of_stories hstories
  have hopened : (opening c w).state.told = w.told := silent_opening c w.told w rfl
  rw [hreports] at hsubnets
  refine ⟨stories, ?_, hsame.symm.trans hentries, hstories, hsubnets, ?_,
    summarizes_runDone report⟩
  · rw [hstate, hclosed, htold, hopened]
  · refine ⟨?_, ?_, ?_⟩
    · rw [hends, List.length_map, ← List.length_map (·.report), ← hsubnets]
      rfl
    · rw [hends, List.map_map]
      change (report.subnets.map (·.counts.complete)).foldr (· + ·) 0 = _
      rw [hsubnets, List.map_map]
      rfl
    · rw [hends, List.map_map]
      change (report.subnets.map (·.counts.missing)).foldr (· + ·) 0 = _
      rw [hsubnets, List.map_map]
      rfl

/-- The dump of a subnet with two hosts at one switch. -/
def twoHosts : World := worldOf
  [(["in"], .directory),
    (["in", "ib-subnet-fe80:0000:0000:0001.txt"], .file (
      "CA 1 1 0x0000000000000001 4x QDR - SW 3 1 0x0000000000000003 ( 'a' - 's' )\n" ++
      "CA 2 1 0x0000000000000002 4x QDR - SW 3 2 0x0000000000000003 ( 'b' - 's' )\n").toUTF8)]

/-- An extraction of which each event is recorded. -/
def recording : Config :=
  { inputDir := "in", progress := false, observer := some Observer.recorder }

/-- The story of two hosts is told, with the walks both ways. -/
theorem twoHosts_told : recording.observer = some Observer.recorder ∧ ∃ report,
    (run recording twoHosts).outcome = .ok report ∧
    report.subnets.map (fun s => (s.hosts, s.counts.missing)) = [(2, 2)] ∧
    ∃ stories : List Story, (run recording twoHosts).state.told =
      stories.flatMap Story.events ++ [.runDone report] := by
  have hok : ∃ report ∈ (run recording twoHosts).outcome.toOption,
      report.subnets.map (fun s => (s.hosts, s.counts.missing)) = [(2, 2)] := by decide +kernel
  obtain ⟨report, hreport, hfigures⟩ := hok
  have hrun : (run recording twoHosts).outcome = .ok report := eq_ok_of_mem_toOption hreport
  obtain ⟨stories, htold, -⟩ := run_tells_stories rfl hrun
  exact ⟨rfl, report, hrun, hfigures, stories, htold⟩

end Extract

end FabricPaths
