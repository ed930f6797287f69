import FabricPaths.Proofs.Extract.Leaving

/-!
# The stages of a run

A run opens with its log, extracts subnets one after another, each in the world that the
earlier ones left, and closes with its report. The stages are the subnets that it came to,
with the worlds in which it did.
-/

namespace FabricPaths

open Storage

/-- Each handler for a log writes to the file of the log, or to no file. -/
theorem Log.Settings.handlers_writesTo {places : Location → Prop} (s : Log.Settings)
    {file : Option Log.Handler} (hfile : ∀ h ∈ file, h.WritesTo places) :
    ∀ h ∈ s.handlers file, h.WritesTo places := by
  have hstream : ∀ h ∈ s.streamHandlers, h.WritesTo places := by
    intro h hh l offset hsink
    unfold Log.Settings.streamHandlers at hh
    split at hh
    · cases hh
    · rw [List.mem_singleton.mp hh] at hsink
      cases hsink
  have hall : ∀ h ∈ file.toList ++ s.streamHandlers, h.WritesTo places := by
    intro h hh
    rcases List.mem_append.mp hh with hh | hh
    · exact hfile h (Option.mem_toList.mp hh)
    · exact hstream h hh
  unfold Log.Settings.handlers
  split
  · intro h hh l offset hsink
    rw [List.mem_singleton.mp hh] at hsink
    cases hsink
  · exact hall

namespace World

/-- The place of the file that a path leads to in writing, if there is one. -/
def placeFor? (w : World) (p : String) : Option Location :=
  (w.storage.placeToWrite w.workingDir p).toOption

/-- There is such a place exactly if the file can be written there. -/
theorem placeFor?_eq_some_iff {w : World} {p : String} {l : Location} :
    w.placeFor? p = some l ↔ w.storage.placeToWrite w.workingDir p = .ok l := by
  unfold placeFor?
  cases w.storage.placeToWrite w.workingDir p with
  | ok l' =>
    constructor
    · exact fun h => congrArg Except.ok (Option.some.inj h)
    · exact fun h => congrArg some (Except.ok.inj h)
  | error e => exact ⟨nofun, nofun⟩

end World

namespace Extract

/-- The place of the log file. -/
def Config.logPlace? (c : Config) (w : World) : Option Location :=
  c.logFile.chosen?.bind fun p => w.placeFor? (PathText.absolute w.workingDir.text p)

/-- The place of the file of a subnet's fabric. -/
def Config.fabricPlace? (c : Config) (w : World) (subnet : String) : Option Location :=
  c.outputDir.chosen?.bind fun dir => w.placeFor? (PathText.child dir (FileName.fabric subnet))

/-- The log file is put where its path leads. -/
theorem fileHandler_run (p : String) (w : World) :
    (∃ l, w.storage.placeToWrite w.workingDir (PathText.absolute w.workingDir.text p) = .ok l ∧
        World.fileHandler p w = ⟨.ok ⟨.file l 0, some .debug⟩,
          { w with storage := w.storage.put l (.file .empty) }, []⟩) ∨
      ∃ e, World.fileHandler p w = ⟨.error e, w, []⟩ := by
  unfold World.fileHandler
  rw [Action.get_bind]
  generalize PathText.absolute w.workingDir.text p = q
  rw [World.create_eq]
  cases hplace : w.storage.placeToWrite w.workingDir q with
  | ok l => exact .inl ⟨l, rfl, Action.bind_of_ok (World.putFile_of_place hplace .empty) _⟩
  | error e => exact .inr ⟨e, Action.bind_of_error (World.putFile_of_error hplace .empty) _⟩

/-- Setting up the log changes the log file at most. -/
theorem setUpLog_calm (c : Config) (w : World) :
    World.Calm ⟨fun l => c.logPlace? w = some l, True⟩ w.storage w.workingDir
      (World.setUpLog c.logSettings w).state := by
  have hfile : c.logSettings.file = c.logFile := rfl
  unfold World.setUpLog
  rw [Action.modify_bind, hfile]
  cases hchosen : c.logFile.chosen? with
  | none =>
    refine ⟨.refl _ _, rfl, c.logSettings.handlers_writesTo ?_⟩
    intro h hh
    cases hh
  | some p =>
    dsimp only
    rcases fileHandler_run p { w with handlers := [] } with ⟨l, hplace, hrun⟩ | ⟨e, hrun⟩
    · dsimp only at hplace
      have hlog : c.logPlace? w = some l := by
        unfold Config.logPlace?
        rw [hchosen, Option.bind_some, World.placeFor?_eq_some_iff]
        exact hplace
      have hhandlers : ∀ h ∈ c.logSettings.handlers (some ⟨.file l 0, some .debug⟩),
          h.WritesTo fun l => c.logPlace? w = some l := by
        refine c.logSettings.handlers_writesTo ?_
        rintro h ⟨⟩ l' offset hsink
        cases hsink
        exact hlog
      rw [Action.bind_of_ok (Action.map_of_ok hrun some)]
      exact ⟨.of_put hlog trivial (Tree.item?_of_placeToWrite hplace) .empty, rfl, hhandlers⟩
    · rw [Action.bind_of_error (Action.map_of_error hrun some)]
      exact ⟨.refl _ _, rfl, nofun⟩

/-- Checking a directory changes nothing. -/
theorem keeps_checkDirectory {I : World → Prop} (role path : String) :
    Action.Keeps I (checkDirectory role path) := by
  intro w hw
  unfold checkDirectory
  rw [Action.get_bind]
  rcases w.storage.directory w.workingDir path with e | d
  · cases e <;> exact hw
  · exact hw

/-- Checking the directories of the settings changes nothing. -/
theorem keeps_checkDirectories {I : World → Prop} (c : Config) :
    Action.Keeps I (checkDirectories c) := by
  have hC := Action.Keeps.compositional (I := I)
  unfold checkDirectories
  refine hC.bind (keeps_checkDirectory _ _) fun _ => ?_
  cases c.hwlocDir.chosen? with
  | none =>
    cases c.outputDir.chosen? with
    | none => exact hC.pure _
    | some out => exact hC.bind (keeps_checkDirectory _ _) fun _ => hC.pure _
  | some dir =>
    have hhwloc := hC.bind (keeps_checkDirectory (I := I) "hwloc" (resolveHwlocDir dir c.outputDir))
      fun _ => hC.pure (some (resolveHwlocDir dir c.outputDir))
    cases c.outputDir.chosen? with
    | none => exact hhwloc
    | some out => exact hC.bind (keeps_checkDirectory _ _) fun _ => hhwloc

/-- Preparing a run changes the log file at most. -/
theorem prepare_calm (c : Config) (w : World) :
    World.Calm ⟨fun l => c.logPlace? w = some l, True⟩ w.storage w.workingDir
      (prepare c w).state := by
  have hC := Action.Keeps.compositional
    (I := World.Calm ⟨fun l => c.logPlace? w = some l, True⟩ w.storage w.workingDir)
  unfold prepare
  refine Action.Keeps.bind_from (setUpLog_calm c w) fun _ => ?_
  refine hC.bind (World.keeps_now World.Calm.tick) fun started => ?_
  refine hC.bind (Action.Keeps.modify fun v hv => ?_) fun _ => keeps_checkDirectories c
  exact ⟨hv.storage, hv.workingDir, hv.logsTo⟩

/-- Opening a run changes the log file at most. -/
theorem opening_calm (c : Config) (w : World) :
    World.Calm ⟨fun l => c.logPlace? w = some l, True⟩ w.storage w.workingDir
      (opening c w).state := by
  have hI := World.aloof_calm ⟨fun l => c.logPlace? w = some l, True⟩ w.storage w.workingDir
  have hC := Action.Keeps.compositional
    (I := World.Calm ⟨fun l => c.logPlace? w = some l, True⟩ w.storage w.workingDir)
  unfold opening
  refine Action.Keeps.bind_from (prepare_calm c w) fun hwlocDir => ?_
  refine hC.bind (hC.bind (World.keeps_list _) fun _ => hC.pure _) fun subnets => ?_
  split
  · exact hC.bind (hI.keeps_say _ _ _) fun _ => hC.pure _
  · exact hC.pure _

/-- What a run finds when it opens: the directory with hardware descriptions, and the
subnets. -/
def findings (c : Config) (w : World) : Option String × List (String × String) :=
  match (opening c w).outcome with
  | .ok found => found
  | .error _ => (none, [])

/-- What is found is what the opening of a run returns. -/
theorem findings_of_opening {c : Config} {w : World}
    {found : Option String × List (String × String)} (h : (opening c w).outcome = .ok found) :
    findings c w = found := by
  unfold findings
  rw [h]

/-- The world with one more subnet in the report on the run. -/
def withSubnet (report : SubnetReport) (w : World) : World :=
  { w with report := w.report.map fun r => { r with subnets := r.subnets ++ [report] } }

/-- A subnet that a run came to. -/
structure Stage where
  /-- The subnet. -/
  subnet : String
  /-- Its discovery dump. -/
  file : String
  /-- The world in which the run came to it. -/
  before : World
  /-- What became of it. -/
  run : Run World (Fabric Float × SubnetReport)

section Running

variable [Memory]

/-- The subnets that a run comes to: each in the world that the one before left, up to the
first that cannot be extracted. -/
def stages (c : Config) (hwlocDir : Option String) : List (String × String) → World → List Stage
  | [], _ => []
  | (subnet, file) :: rest, w =>
    let r := processSubnet c hwlocDir subnet file w
    ⟨subnet, file, w, r⟩ ::
      match r.outcome with
      | .ok (_, report) => stages c hwlocDir rest (withSubnet report r.state)
      | .error _ => []

/-- The subnets that a run comes to, from its opening on. -/
def stagesOf (c : Config) (w : World) : List Stage :=
  stages c (findings c w).1 (findings c w).2 (opening c w).state

/-- After a subnet that is extracted, a run comes to the others. -/
theorem stages_cons_of_ok {c : Config} {hwlocDir : Option String} {subnet file : String}
    {rest : List (String × String)} {w : World} {f : Fabric Float} {report : SubnetReport}
    (h : (processSubnet c hwlocDir subnet file w).outcome = .ok (f, report)) :
    stages c hwlocDir ((subnet, file) :: rest) w =
      ⟨subnet, file, w, processSubnet c hwlocDir subnet file w⟩ ::
        stages c hwlocDir rest
          (withSubnet report (processSubnet c hwlocDir subnet file w).state) := by
  rw [stages, h]

/-- After a subnet that is not extracted, a run comes to no other. -/
theorem stages_cons_of_error {c : Config} {hwlocDir : Option String} {subnet file : String}
    {rest : List (String × String)} {w : World} {e : Failure}
    (h : (processSubnet c hwlocDir subnet file w).outcome = .error e) :
    stages c hwlocDir ((subnet, file) :: rest) w =
      [⟨subnet, file, w, processSubnet c hwlocDir subnet file w⟩] := by
  rw [stages, h]

/-- Extracting subnets in a world leads through stages to an end in another world. -/
inductive Extracts (c : Config) (hwlocDir : Option String) :
    List (String × String) → World → List Stage → Except Failure Unit → World → Prop
  /-- No subnet is left. -/
  | done {w : World} : Extracts c hwlocDir [] w [] (.ok ()) w
  /-- A subnet cannot be extracted. -/
  | failed {subnet file : String} {rest : List (String × String)} {w w' : World} {e : Failure}
    {log : List Log.Entry} (run : processSubnet c hwlocDir subnet file w = ⟨.error e, w', log⟩) :
    Extracts c hwlocDir ((subnet, file) :: rest) w [⟨subnet, file, w, ⟨.error e, w', log⟩⟩]
      (.error e) w'
  /-- A subnet is extracted, and others come after it. -/
  | next {subnet file : String} {rest : List (String × String)} {w w' w'' : World}
    {f : Fabric Float} {report : SubnetReport} {log : List Log.Entry} {later : List Stage}
    {outcome : Except Failure Unit}
    (run : processSubnet c hwlocDir subnet file w = ⟨.ok (f, report), w', log⟩)
    (others : Extracts c hwlocDir rest (withSubnet report w') later outcome w'') :
    Extracts c hwlocDir ((subnet, file) :: rest) w
      (⟨subnet, file, w, ⟨.ok (f, report), w', log⟩⟩ :: later) outcome w''

/-- Subnets are extracted stage by stage. -/
theorem processEach_extracts (c : Config) (hwlocDir : Option String)
    (subnets : List (String × String)) (w : World) :
    Extracts c hwlocDir subnets w (stages c hwlocDir subnets w)
      (processEach c hwlocDir subnets w).outcome (processEach c hwlocDir subnets w).state := by
  induction subnets generalizing w with
  | nil => exact .done
  | cons first rest ih =>
    obtain ⟨subnet, file⟩ := first
    rcases hrun : processSubnet c hwlocDir subnet file w with ⟨outcome, w', log⟩
    unfold processEach
    cases outcome with
    | error e =>
      rw [stages_cons_of_error (by rw [hrun]), Action.bind_of_error hrun, hrun]
      exact .failed hrun
    | ok result =>
      rw [stages_cons_of_ok (by rw [hrun]), Action.bind_of_ok hrun, hrun]
      exact .next hrun (ih _)

/-- What a run comes to: it cannot be opened, or it extracts subnets and ends with one that
cannot be extracted, or with its closing. -/
theorem run_cases (c : Config) (w : World) :
    (∃ e, (opening c w).outcome = .error e ∧ (run c w).outcome = .error e ∧
        (run c w).state = (opening c w).state ∧ stagesOf c w = []) ∨
      (opening c w).outcome = .ok (findings c w) ∧ ∃ outcome u,
        Extracts c (findings c w).1 (findings c w).2 (opening c w).state (stagesOf c w) outcome u ∧
        ((∃ e, outcome = .error e ∧ (run c w).outcome = .error e ∧ (run c w).state = u) ∨
          outcome = .ok () ∧ (run c w).outcome = (closing c u).outcome ∧
            (run c w).state = (closing c u).state) := by
  have hcases := Action.bind_cases (opening c) (fun found => do
    processEach c found.1 found.2
    closing c) w
  unfold stagesOf findings
  rcases hcases with ⟨e, he, houtcome, hstate⟩ | ⟨found, hfound, houtcome, hstate⟩
  · rw [he]
    exact .inl ⟨e, rfl, houtcome, hstate, rfl⟩
  · rw [hfound]
    have hextracts := processEach_extracts c found.1 found.2 (opening c w).state
    refine .inr ⟨rfl, _, _, hextracts, ?_⟩
    rcases Action.bind_cases (processEach c found.1 found.2) (fun _ => closing c)
      (opening c w).state with ⟨e, he, houtcome', hstate'⟩ | ⟨⟨⟩, hok, houtcome', hstate'⟩
    · exact .inl ⟨e, he, houtcome.trans houtcome', hstate.trans hstate'⟩
    · exact .inr ⟨hok, houtcome.trans houtcome', hstate.trans hstate'⟩

end Running

/-- The closing of a run leaves the files alone but for those of the log, unless the report is
written at the end. -/
theorem closing_cases (c : Config) {places : Location → Prop} {u : World}
    (hlogs : u.LogsTo places) :
    (Overlaid ⟨places, False⟩ u.storage (closing c u).state.storage ∧
        (c.diagFile.chosen?.isSome → ∃ e, (closing c u).outcome = .error e)) ∨
      ∃ report path l t, (closing c u).outcome = .ok report ∧ c.diagFile.chosen? = some path ∧
        Overlaid ⟨places, False⟩ u.storage t ∧ t.placeToWrite u.workingDir path = .ok l ∧
        (closing c u).state.storage = t.put l (.file (report.toJson true).render.toUTF8) ∧
        (closing c u).state.workingDir = u.workingDir := by
  have hcalm : World.Calm ⟨places, False⟩ u.storage u.workingDir u := ⟨.refl _ _, rfl, hlogs⟩
  have hI := World.aloof_calm ⟨places, False⟩ u.storage u.workingDir
  unfold closing
  rcases World.now_cases u with ⟨completed, hnow⟩ | hnow
  · rw [Action.bind_of_ok hnow]
    unfold modifyReport currentReport
    rw [Action.modify_bind, Action.gets_bind]
    generalize Option.getD _ _ = report
    have htold := hI.keeps_configNotify c (.runDone report)
      { u with
        clock := u.clock.read.2
        report := u.report.map fun r => { r with completed := some completed } }
      ⟨hcalm.storage, rfl, hlogs⟩
    dsimp only
    generalize hnotify : c.notify (.runDone report)
      { u with
        clock := u.clock.read.2
        report := u.report.map fun r => { r with completed := some completed } } = r at htold
    rcases r with ⟨e | _, u', log⟩
    · rw [Action.bind_of_error hnotify]
      exact .inl ⟨htold.storage, fun _ => ⟨e, rfl⟩⟩
    rw [Action.bind_of_ok hnotify]
    dsimp only at htold ⊢
    cases hchosen : c.diagFile.chosen? with
    | none => exact .inl ⟨htold.storage, nofun⟩
    | some path =>
      dsimp only
      rw [World.write_eq]
      cases hplace : u'.storage.placeToWrite u'.workingDir path with
      | error e =>
        rw [Action.bind_of_error (Action.bind_of_error (World.putFile_of_error hplace _) _)]
        exact .inl ⟨htold.storage, fun _ => ⟨e, rfl⟩⟩
      | ok l =>
        rw [Action.bind_of_ok (Action.bind_of_ok (World.putFile_of_place hplace _) _)]
        rw [htold.workingDir] at hplace
        exact .inr ⟨report, path, l, u'.storage, rfl, rfl, htold.storage, hplace, rfl,
          htold.workingDir⟩
  · rw [Action.bind_of_error hnow]
    exact .inl ⟨.refl _ _, fun _ => ⟨_, rfl⟩⟩

/-! ## Small worlds -/

/-- A world with some items in its storage, at the start of a year. -/
def worldOf (items : List (Location × Item)) : World :=
  { storage := items.foldl (fun t e => t.put e.1 e.2) {}
    clock := { start := .ofParts 2024 1 1 0 0 0 0 } }

/-- An extraction with a log file and a file for the report. -/
def loggingTo (logFile : String) : Config :=
  { inputDir := "in", outputDir := .text "out", logFile := .text logFile
    diagFile := .text "report.json" }

end Extract

end FabricPaths
