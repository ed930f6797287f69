import FabricPaths.Proofs.Extract.Chronicle

/-!
# How a run ends

A run without a file for its report tells of its end exactly if it succeeds. With such a file, it
first comes to the same end and only then writes the report, so that it can fail after it has told
that it is done.
-/

namespace FabricPaths.Extract

open World (Attends)

variable {c : Config} {hwlocDir : Option String} {subnets : List (String × String)}
  {w w' : World} {stages : List Stage} {outcome : Except Failure Unit}

/-! ## The report at the end -/

/-- The settings without a file for the report. -/
def Config.unreported (c : Config) : Config := { c with diagFile := .absent }

/-- Writes the report on a run, if there is a file for it. -/
def writeReport (c : Config) (report : RunReport) : Action World RunReport := do
  if let some path := c.diagFile.chosen? then
    World.write path (report.toJson true).render
  return report

/-- Partitions are told of in the same way without a file for the report. -/
theorem tellPartitions_unreported (f : Fabric Float) (index : Nat) (partitions : List Partition) :
    tellPartitions c.unreported f index partitions = tellPartitions c f index partitions := by
  induction partitions generalizing index with
  | nil => rfl
  | cons p rest ih =>
    unfold tellPartitions
    simp only [ih]
    rfl

/-- Partitions are added in the same way without a file for the report. -/
theorem addPartitions_unreported (f : Fabric Float) (report : SubnetReport) :
    addPartitions c.unreported f report = addPartitions c f report := by
  unfold addPartitions
  simp only [tellPartitions_unreported]
  rfl

/-- A subnet is extracted in the same way without a file for the report. -/
theorem processSubnet_unreported [Memory] (hwlocDir : Option String) (subnet file : String) :
    processSubnet c.unreported hwlocDir subnet file = processSubnet c hwlocDir subnet file := by
  unfold processSubnet buildSubnet
  simp only [addPartitions_unreported]
  rfl

/-- Subnets are extracted in the same way without a file for the report. -/
theorem processEach_unreported [Memory] (hwlocDir : Option String)
    (subnets : List (String × String)) :
    processEach c.unreported hwlocDir subnets = processEach c hwlocDir subnets := by
  induction subnets with
  | nil => rfl
  | cons first rest ih =>
    unfold processEach
    rw [ih, processSubnet_unreported]

/-- The closing of a run writes the report behind all that it does without a file for it. -/
theorem closing_eq (c : Config) : closing c = closing c.unreported >>= writeReport c := by
  unfold closing
  simp only [Action.bind_bind]
  rfl

/-- A run writes its report behind all that it does without a file for it. -/
theorem run_eq [Memory] (c : Config) : run c = run c.unreported >>= writeReport c := by
  unfold run
  simp only [Action.bind_bind, processEach_unreported, closing_eq c]
  rfl

/-- The run comes to its end, but there is no place for the file of its report. -/
def ReportLost [Memory] (c : Config) (w : World) : Prop :=
  ∃ report path, (run c.unreported w).outcome = .ok report ∧ c.diagFile.chosen? = some path ∧
    (run c.unreported w).state.placeFor? path = none

/-- The report is written if there is a place for its file, or no file. Otherwise nothing is
done. -/
theorem writeReport_cases (c : Config) (report : RunReport) (u : World) :
    ((writeReport c report u).outcome = .ok report ∧
        ∀ path, c.diagFile.chosen? = some path → u.placeFor? path ≠ none) ∨
      ∃ e path, (writeReport c report u).outcome = .error e ∧
        c.diagFile.chosen? = some path ∧ u.placeFor? path = none := by
  unfold writeReport
  cases hchosen : c.diagFile.chosen? with
  | none => exact .inl ⟨rfl, nofun⟩
  | some path =>
    dsimp only
    rw [World.write_eq]
    cases hplace : u.storage.placeToWrite u.workingDir path with
    | error e =>
      have hnone : u.placeFor? path = none := by
        unfold World.placeFor?
        rw [hplace]
        rfl
      rw [Action.bind_of_error (Action.bind_of_error (World.putFile_of_error hplace _) _)]
      exact .inr ⟨e, path, rfl, rfl, hnone⟩
    | ok l =>
      have hsome : u.placeFor? path = some l := World.placeFor?_eq_some_iff.mpr hplace
      rw [Action.bind_of_ok (Action.bind_of_ok (World.putFile_of_place hplace _) _)]
      refine .inl ⟨rfl, fun path' hpath' => ?_⟩
      cases hpath'
      rw [hsome]
      exact nofun

/-- Writing the report tells nothing. -/
theorem silent_writeReport (c : Config) (report : RunReport) :
    World.Silent (writeReport c report) := by
  intro es
  have hC := Action.Keeps.compositional (I := fun w : World => w.told = es)
  unfold writeReport
  cases c.diagFile.chosen? with
  | none => exact hC.pure report
  | some path =>
    dsimp only
    rw [World.write_eq]
    exact hC.bind (hC.bind (keeps_putFile (fun _ _ h => h) _ _) fun _ => hC.pure _) fun _ =>
      hC.pure _

/-- A run succeeds exactly if it does so without a file for its report, and its report is not
lost. -/
theorem run_ok_iff [Memory] {report : RunReport} : (run c w).outcome = .ok report ↔
    (run c.unreported w).outcome = .ok report ∧ ¬ ReportLost c w := by
  rw [run_eq]
  rcases Action.bind_cases (run c.unreported) (writeReport c) w with
    ⟨e, he, houtcome, -⟩ | ⟨report', hreport', houtcome, -⟩
  · constructor
    · intro h
      cases houtcome.symm.trans h
    · rintro ⟨h, -⟩
      cases he.symm.trans h
  rcases writeReport_cases c report' (run c.unreported w).state with
    ⟨hok, hplaces⟩ | ⟨e, path, he, hpath, hnone⟩
  · rw [houtcome, hok, hreport']
    refine ⟨fun h => ⟨h, ?_⟩, fun h => h.1⟩
    rintro ⟨_, path, -, hpath, hnone⟩
    exact hplaces path hpath hnone
  · constructor
    · intro h
      cases (houtcome.trans he).symm.trans h
    · rintro ⟨-, hlost⟩
      exact absurd ⟨report', path, hreport', hpath, hnone⟩ hlost

/-! ## What is told up to the end -/

/-- Since these events were told, others were told that are on the way. -/
def ToldUnderway (before : List Event) (w : World) : Prop :=
  ∃ es, w.told = before ++ es ∧ ∀ e ∈ es, e.Underway

/-- Telling of something on the way is telling of something on the way. -/
theorem attends_toldUnderway (observer : Option Observer) (before : List Event) :
    Attends observer (ToldUnderway before) := by
  have hquiet : World.Quiet (ToldUnderway before) := ⟨fun _ _ h => h, fun _ _ h => h⟩
  refine ⟨hquiet, fun e he => ?_⟩
  have hC := Action.Keeps.compositional (I := ToldUnderway before)
  have htell : ∀ o, Action.Keeps (ToldUnderway before) (World.tell o e) := by
    rintro o w ⟨es, htold, hes⟩
    unfold World.tell
    dsimp only
    split
    · refine ⟨es ++ [e], ?_, ?_⟩
      · dsimp only
        rw [htold, List.append_assoc]
      · exact List.forall_mem_append.mpr ⟨hes, List.forall_mem_singleton.mpr he⟩
    · exact ⟨es, htold, hes⟩
  cases observer with
  | none => exact hC.pure ()
  | some o =>
    refine hC.bind (hC.attempt (htell o)) fun outcome => ?_
    cases outcome with
    | ok _ => exact hC.pure ()
    | error e =>
      dsimp only
      exact hC.bind (fun _ h => h) fun _ => hC.say _ _ _

/-- While subnets are extracted, what is told is on the way. -/
theorem Extracts.toldUnderway [Memory]
    (h : Extracts c hwlocDir subnets w stages outcome w')
    {before : List Event} (hbefore : ToldUnderway before w) : ToldUnderway before w' := by
  have hstep : ∀ subnet file, Action.Keeps (ToldUnderway before)
      (processSubnet c hwlocDir subnet file) :=
    keeps_processSubnet (attends_toldUnderway c.observer before) (fun _ _ h => h)
      (fun _ _ h => h) hwlocDir
  induction h with
  | done => exact hbefore
  | @failed subnet file rest w w' e log hrun =>
    have hlater := hstep subnet file w hbefore
    rw [hrun] at hlater
    exact hlater
  | @next subnet file rest w w' w'' f report log later outcome hrun others ih =>
    have hlater := hstep subnet file w hbefore
    rw [hrun] at hlater
    exact ih hlater

/-- The closing of a run without a file for its report tells of the end, unless the clock has run
out. -/
theorem closing_unreported_cases (ho : c.observer = some Observer.recorder) (u : World) :
    (∃ e, (closing c.unreported u).outcome = .error e ∧
        (closing c.unreported u).state.told = u.told) ∨
      ∃ report, (closing c.unreported u).outcome = .ok report ∧
        (closing c.unreported u).state.told = u.told ++ [.runDone report] := by
  have htells := tells_closing (c := c.unreported) ho u
  have hwords : World.Articulate c.unreported.observer := by
    change World.Articulate c.observer
    rw [ho]
    exact World.articulate_recorder
  rcases World.now_cases u with ⟨completed, hnow⟩ | hnow
  · have hok : ∃ report, (closing c.unreported u).outcome = .ok report := by
      unfold closing modifyReport currentReport
      rw [Action.bind_of_ok hnow, Action.modify_bind, Action.gets_bind,
        Action.bind_of_outcome (World.configNotify_outcome hwords _ _)]
      exact ⟨_, rfl⟩
    obtain ⟨report, hreport⟩ := hok
    obtain ⟨_, htold, rfl⟩ := htells report hreport
    exact .inr ⟨report, hreport, htold⟩
  · refine .inl ⟨.momentOutOfRange, ?_⟩
    unfold closing
    rw [Action.bind_of_error hnow]
    exact ⟨rfl, rfl⟩

/-- A run without a file for its report tells of things on the way, and then of its end exactly if
it succeeds. -/
theorem run_unreported_tells [Memory] (ho : c.observer = some Observer.recorder) (w : World) :
    ∃ es, (∀ e ∈ es, e.Underway) ∧
      ((∃ e, (run c.unreported w).outcome = .error e ∧
          (run c.unreported w).state.told = w.told ++ es) ∨
        ∃ report, (run c.unreported w).outcome = .ok report ∧
          (run c.unreported w).state.told = w.told ++ es ++ [.runDone report]) := by
  have hopened : (opening c.unreported w).state.told = w.told :=
    silent_opening c.unreported w.told w rfl
  rcases run_cases c.unreported w with ⟨e, -, he, hstate, -⟩ | ⟨-, outcome, u, hextracts, hend⟩
  · refine ⟨[], List.forall_mem_nil _, .inl ⟨e, he, ?_⟩⟩
    rw [hstate, hopened, List.append_nil]
  have hbefore : ToldUnderway w.told (opening c.unreported w).state :=
    ⟨[], by rw [hopened, List.append_nil], List.forall_mem_nil _⟩
  obtain ⟨es, htold, hes⟩ := hextracts.toldUnderway hbefore
  refine ⟨es, hes, ?_⟩
  rcases hend with ⟨e, -, he, hstate⟩ | ⟨-, houtcome, hstate⟩
  · exact .inl ⟨e, he, by rw [hstate, htold]⟩
  rw [houtcome, hstate]
  rcases closing_unreported_cases ho u with ⟨e, he, hclosed⟩ | ⟨report, hok, hclosed⟩
  · exact .inl ⟨e, he, by rw [hclosed, htold]⟩
  · exact .inr ⟨report, hok, by rw [hclosed, htold]⟩

/-- What a run tells, and how it ends: it tells of its end exactly if all was extracted, and
succeeds exactly if, beyond that, its report is not lost. -/
theorem run_tells [Memory] (ho : c.observer = some Observer.recorder) (w : World) :
    ∃ es, (∀ e ∈ es, e.Underway) ∧
      ((∃ e, (run c w).outcome = .error e ∧ (run c w).state.told = w.told ++ es ∧
          ¬ ReportLost c w) ∨
        ∃ report, (run c w).state.told = w.told ++ es ++ [.runDone report] ∧
          ((run c w).outcome = .ok report ∧ ¬ ReportLost c w ∨
            (∃ e, (run c w).outcome = .error e) ∧ ReportLost c w)) := by
  obtain ⟨es, hes, hcases⟩ := run_unreported_tells ho w
  refine ⟨es, hes, ?_⟩
  have hsplit := Action.bind_cases (run c.unreported) (writeReport c) w
  rw [← run_eq] at hsplit
  rcases hcases with ⟨e, he, htold⟩ | ⟨report, hok, htold⟩
  · rcases hsplit with ⟨e', -, houtcome, hstate⟩ | ⟨report, hok, -⟩
    · refine .inl ⟨e', houtcome, by rw [hstate, htold], ?_⟩
      rintro ⟨report, -, hok, -⟩
      cases he.symm.trans hok
    · cases he.symm.trans hok
  · rcases hsplit with ⟨e', he', -⟩ | ⟨report', hok', houtcome, hstate⟩
    · cases hok.symm.trans he'
    cases hok.symm.trans hok'
    have hwritten := silent_writeReport c report _ (run c.unreported w).state rfl
    refine .inr ⟨report, by rw [hstate, hwritten, htold], ?_⟩
    rcases writeReport_cases c report (run c.unreported w).state with
      ⟨hdone, -⟩ | ⟨e, path, hfailed, hpath, hnone⟩
    · have hrun : (run c w).outcome = .ok report := houtcome.trans hdone
      exact .inl ⟨hrun, (run_ok_iff.mp hrun).2⟩
    · exact .inr ⟨⟨e, houtcome.trans hfailed⟩, report, path, hok, hpath, hnone⟩

end FabricPaths.Extract
