import FabricPaths.Proofs.Extract.Stages

/-!
# The report on a run

While a subnet is extracted, the report on the run stays as it is. Afterwards the report on the
subnet is put at its end, so that the reports on the subnets are those of the stages.
-/

namespace FabricPaths.Extract

variable {c : Config} {hwlocDir : Option String} {subnets : List (String × String)}
  {w w' : World} {run : List Stage} {outcome : Except Failure Unit}

namespace Stage

/-- The subnet, with its discovery dump. -/
def entry (s : Stage) : String × String := (s.subnet, s.file)

/-- The report on the subnet, if it was extracted. -/
def report? (s : Stage) : Option SubnetReport :=
  match s.run.outcome with
  | .ok (_, report) => some report
  | .error _ => none

end Stage

/-- Putting a file keeps what has nothing to do with the storage. -/
theorem keeps_putFile {I : World → Prop} (hstorage : ∀ w storage, I w → I { w with storage })
    (p : String) (bytes : ByteArray) : Action.Keeps I (World.putFile p bytes) := by
  intro w hw
  unfold World.putFile
  cases w.storage.placeToWrite w.workingDir p with
  | ok l => exact hstorage w _ hw
  | error e => exact hw

/-- Writing a fabric keeps what has nothing to do with the log and the storage. -/
theorem keeps_export? {I : World → Prop} (hI : World.Quiet I)
    (hstorage : ∀ w storage, I w → I { w with storage }) (c : Config) (f : Fabric Float)
    (report : SubnetReport) : Action.Keeps I (export? c f report) := by
  have hC := Action.Keeps.compositional (I := I)
  unfold export?
  cases c.outputDir.chosen? with
  | none => exact hC.pure _
  | some outputDir =>
    refine hC.bind ?_ fun _ => hC.pure _
    unfold writeFabric
    dsimp only
    rw [World.create_eq]
    refine hC.bind (keeps_putFile hstorage _ _) fun _ => hC.bind (fun _ hw => hw) fun document => ?_
    rw [World.write_eq]
    refine hC.bind (hC.bind (keeps_putFile hstorage _ _) fun _ => hC.pure _) fun _ => ?_
    exact hC.bind (hI.keeps_say _ _ _) fun _ => hC.pure _

/-- Finishing a subnet keeps what has nothing to do with the log, the clock and the storage. -/
theorem keeps_finishSubnet {I : World → Prop} (hI : World.Attends c.observer I)
    (hclock : ∀ w clock, I w → I { w with clock })
    (hstorage : ∀ w storage, I w → I { w with storage }) (f : Fabric Float)
    (report : SubnetReport) : Action.Keeps I (finishSubnet c f report) := by
  have hC := Action.Keeps.compositional (I := I)
  unfold finishSubnet completeReport
  refine hC.bind (keeps_export? hI.toQuiet hstorage c f report) fun report => ?_
  refine hC.bind (World.keeps_now hclock) fun completed => ?_
  refine hC.bind ?_ fun _ => hC.pure _
  exact hI.keeps_configNotify (Event.underway_subnetDone _)

/-- Extracting a subnet keeps what has nothing to do with the log, the clock and the storage. -/
theorem keeps_processSubnet [Memory] {I : World → Prop} (hI : World.Attends c.observer I)
    (hclock : ∀ w clock, I w → I { w with clock })
    (hstorage : ∀ w storage, I w → I { w with storage }) (hwlocDir : Option String)
    (subnet file : String) : Action.Keeps I (processSubnet c hwlocDir subnet file) := by
  have hC := Action.Keeps.compositional (I := I)
  unfold processSubnet
  refine hC.bind (keeps_buildSubnet hI hclock hwlocDir subnet file) ?_
  rintro ⟨f, report⟩
  exact hC.bind (keeps_finishSubnet hI hclock hstorage f report) fun _ => hC.pure _

/-- The report on the run has nothing to do with what is shown, told and logged. -/
theorem aloof_report (r : Option RunReport) : World.Aloof fun w => w.report = r :=
  .of_core (fun _ _ hw => hw) fun _ _ hcore hw => (World.of_core_eq hcore).2.2.2.2.trans hw

/-- Extracting a subnet leaves the report on the run. -/
theorem report_of_processSubnet [Memory] {subnet file : String}
    {r : Run World (Fabric Float × SubnetReport)}
    (h : processSubnet c hwlocDir subnet file w = r) : r.state.report = w.report := by
  subst h
  have hI := (aloof_report w.report).attends c.observer
  exact keeps_processSubnet hI (fun _ _ hw => hw) (fun _ _ hw => hw) hwlocDir subnet file w rfl

namespace Extracts

/-- The reports on the subnets come one after another to the report on the run. -/
theorem report_eq [Memory] (h : Extracts c hwlocDir subnets w run outcome w') {r : RunReport}
    (hr : w.report = some r) :
    w'.report = some { r with subnets := r.subnets ++ run.filterMap Stage.report? } := by
  induction h generalizing r with
  | done => rw [hr, List.filterMap_nil, List.append_nil]
  | failed hrun =>
    rw [List.filterMap_cons_none rfl, List.filterMap_nil, List.append_nil]
    exact (report_of_processSubnet hrun).trans hr
  | @next _ _ _ w w' _ f report _ _ _ hrun others ih =>
    have hadded : (withSubnet report w').report =
        some { r with subnets := r.subnets ++ [report] } := by
      have hkept : w'.report = some r := (report_of_processSubnet hrun).trans hr
      unfold withSubnet
      rw [hkept]
      rfl
    rw [ih hadded]
    dsimp only
    rw [List.append_assoc]
    rfl

/-- The stages are those of the subnets, or of the first of them. -/
theorem entries [Memory] (h : Extracts c hwlocDir subnets w run outcome w') :
    ∃ rest, subnets = run.map Stage.entry ++ rest ∧ (outcome = .ok () → rest = []) := by
  induction h with
  | done => exact ⟨[], rfl, fun _ => rfl⟩
  | @failed subnet file rest _ _ _ _ _ => exact ⟨rest, rfl, nofun⟩
  | next hrun others ih =>
    obtain ⟨rest, hsubnets, hok⟩ := ih
    exact ⟨rest, by rw [hsubnets]; rfl, hok⟩

end Extracts

/-- A run that is prepared has an empty report. -/
theorem report_of_prepare (h : (prepare c w).outcome = .ok hwlocDir) :
    ∃ started, (prepare c w).state.report =
      some { inputDir := c.inputDir, outputDir := c.outputDir, started := some started } := by
  unfold prepare at h ⊢
  rcases Action.bind_cases (World.setUpLog c.logSettings) _ w with ⟨e, -, he, -⟩ |
    ⟨⟨⟩, -, houtcome, hstate⟩
  · cases h.symm.trans he
  rw [houtcome] at h
  rw [hstate]
  generalize (World.setUpLog c.logSettings w).state = u at h ⊢
  rcases World.now_cases u with ⟨started, hnow⟩ | hnow
  · rw [Action.bind_of_ok hnow] at h ⊢
    refine ⟨started, ?_⟩
    dsimp only
    rw [Action.modify_bind]
    exact keeps_checkDirectories (I := fun v => v.report = some
      { inputDir := c.inputDir, outputDir := c.outputDir, started := some started }) c _ rfl
  · rw [Action.bind_of_error hnow] at h
    cases h

/-- A run that is opened has an empty report. -/
theorem report_of_opening {found : Option String × List (String × String)}
    (h : (opening c w).outcome = .ok found) :
    ∃ started, (opening c w).state.report =
      some { inputDir := c.inputDir, outputDir := c.outputDir, started := some started } := by
  unfold opening at h ⊢
  rcases Action.bind_cases (prepare c) _ w with ⟨e, -, he, -⟩ | ⟨hwlocDir, hok, -, hstate⟩
  · cases h.symm.trans he
  obtain ⟨started, hreport⟩ := report_of_prepare hok
  refine ⟨started, ?_⟩
  rw [hstate]
  have hI := aloof_report (some
    { inputDir := c.inputDir, outputDir := c.outputDir, started := some started })
  have hC := Action.Keeps.compositional (I := fun v : World => v.report = some
    { inputDir := c.inputDir, outputDir := c.outputDir, started := some started })
  refine hC.bind (hC.bind (World.keeps_list _) fun _ => hC.pure _) (fun subnets => ?_) _ hreport
  split
  · exact hC.bind (hI.keeps_say _ _ _) fun _ => hC.pure _
  · exact hC.pure _

/-- The closing of a run completes the report on it. -/
theorem report_of_closing {u : World} {r report : RunReport} (hr : u.report = some r)
    (h : (closing c u).outcome = .ok report) :
    ∃ completed, report = { r with completed := some completed } := by
  unfold closing modifyReport currentReport at h
  rcases World.now_cases u with ⟨completed, hnow⟩ | hnow
  · refine ⟨completed, ?_⟩
    rw [Action.bind_of_ok hnow, Action.modify_bind, Action.gets_bind] at h
    dsimp only at h
    rw [hr, Option.map_some, Option.getD_some] at h
    rcases Action.bind_cases (c.notify (.runDone { r with completed := some completed })) _
      { u with clock := u.clock.read.2, report := some { r with completed := some completed } } with
      ⟨e, -, he, -⟩ | ⟨⟨⟩, -, houtcome, -⟩
    · cases h.symm.trans he
    rw [houtcome] at h
    generalize (c.notify _ _).state = u' at h
    cases hchosen : c.diagFile.chosen? with
    | none =>
      rw [hchosen] at h
      cases h
      rfl
    | some path =>
      rw [hchosen] at h
      exact (Action.Ensures.bind_last (fun _ => .pure rfl) u' report h).symm
  · rw [Action.bind_of_error hnow] at h
    cases h

/-- The report on a run consists of the reports on its subnets. -/
theorem report_of_run [Memory] {report : RunReport}
    (h : (Extract.run c w).outcome = .ok report) :
    report.subnets = (stagesOf c w).filterMap Stage.report? ∧
      (stagesOf c w).map Stage.entry = (findings c w).2 := by
  rcases run_cases c w with ⟨e, -, he, -⟩ |
    ⟨hopened, outcome, u, hextracts, ⟨e, -, he, -⟩ | ⟨hok, houtcome, -⟩⟩
  · cases h.symm.trans he
  · cases h.symm.trans he
  rw [houtcome] at h
  obtain ⟨started, hempty⟩ := report_of_opening hopened
  obtain ⟨completed, rfl⟩ := report_of_closing (hextracts.report_eq hempty) h
  obtain ⟨rest, hentries, hrest⟩ := hextracts.entries
  rw [hrest hok, List.append_nil] at hentries
  exact ⟨List.nil_append _, hentries.symm⟩

end FabricPaths.Extract
