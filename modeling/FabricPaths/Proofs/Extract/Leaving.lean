import FabricPaths.Proofs.Extract.SideBySide

/-!
# What the extraction of a subnet leaves in the storage

The extraction of a subnet writes the file of its fabric once all else is done, and touches no
other file but those of the log. If it fails, no fabric is written, unless it was the clock
that ran out behind that, or the observer that failed without words.
-/

namespace FabricPaths

open Storage

namespace World

/-- Reading a file changes nothing. -/
theorem keeps_readLines {I : World → Prop} (p : String) : Action.Keeps I (readLines p) :=
  fun _ hw => hw

/-- Reading a directory changes nothing. -/
theorem keeps_list {I : World → Prop} (p : String) : Action.Keeps I (World.list p) :=
  fun _ hw => hw

/-- Reading the clock changes the clock at most. -/
theorem keeps_now {I : World → Prop} (h : ∀ w clock, I w → I { w with clock }) :
    Action.Keeps I World.now :=
  fun w hw => h w w.clock.read.2 hw

end World

namespace Extract

variable {I : World → Prop}

/-- Reading a discovery dump keeps what has nothing to do with the log. -/
theorem keeps_readDiscovery [Memory] (hI : World.Quiet I) (subnet path : String) :
    Action.Keeps I (readDiscovery subnet path) := by
  have hC := Action.Keeps.compositional (I := I)
  unfold readDiscovery
  refine hC.bind (hI.keeps_say _ _ _) fun _ => ?_
  refine hC.bind (World.keeps_readLines path) fun lines => ?_
  refine hC.bind (hI.keeps_apart _ _) ?_
  rintro ⟨report, b⟩
  refine hC.bind (hI.keeps_apart _ _) ?_
  rintro ⟨_, b'⟩
  exact hC.pure _

/-- Reading route dumps keeps what has nothing to do with the log. -/
theorem keeps_readRouteFiles (hI : World.Quiet I) (path : String) (loader : Loader)
    (names : List String) : Action.Keeps I (readRouteFiles path loader names) := by
  have hC := Action.Keeps.compositional (I := I)
  induction names generalizing loader with
  | nil => exact hC.pure _
  | cons name rest ih =>
    unfold readRouteFiles
    refine hC.bind (World.keeps_readLines _) fun lines => ?_
    refine hC.bind (hI.keeps_apart _ _) ?_
    rintro ⟨report, loader'⟩
    exact ih loader'

/-- Adding what route dumps tell keeps what has nothing to do with the log. -/
theorem keeps_addRoutes (hI : World.Quiet I) (c : Config) (f : Fabric Float)
    (report : SubnetReport) : Action.Keeps I (addRoutes c f report) := by
  have hC := Action.Keeps.compositional (I := I)
  have hread : Action.Keeps I (readRoutes c.inputDir f.subnet) := by
    unfold readRoutes
    rw [routeDirectory?_eq]
    refine hC.bind (fun _ hw => hw) fun found => ?_
    cases found with
    | none => exact hC.bind (hI.keeps_say _ _ _) fun _ => hC.pure _
    | some path =>
      refine hC.bind (World.keeps_list path) fun names => ?_
      refine hC.bind (fun _ hw => hw) fun order => ?_
      refine hC.bind (keeps_readRouteFiles hI path {} order) fun loader => ?_
      exact hC.bind (hI.keeps_say _ _ _) fun _ => hC.pure _
  unfold addRoutes
  refine hC.bind hread fun loader => ?_
  cases loader with
  | none => exact hC.bind (hI.keeps_showProgress _ _) fun _ => hC.pure _
  | some loader => exact hC.pure _

/-- Pairing the edges keeps what has nothing to do with the log. -/
theorem keeps_addReverseEdges (hI : World.Quiet I) (f : Fabric Float) :
    Action.Keeps I (addReverseEdges f) := by
  have hC := Action.Keeps.compositional (I := I)
  unfold addReverseEdges
  dsimp only
  split
  · exact hC.bind (hI.keeps_say _ _ _) fun _ => hC.pure _
  · exact hC.pure _

/-- Telling of partitions keeps what has nothing to do with the log. -/
theorem keeps_tellPartitions {c : Config} (hI : World.Attends c.observer I) (f : Fabric Float)
    (index : Nat) (partitions : List Partition) :
    Action.Keeps I (tellPartitions c f index partitions) := by
  have hC := Action.Keeps.compositional (I := I)
  induction partitions generalizing index with
  | nil => exact hC.pure _
  | cons p rest ih =>
    unfold tellPartitions
    refine hC.bind (hI.keeps_showProgress _ _) fun _ => ?_
    refine hC.bind (fun _ hw => hw) fun members => ?_
    refine hC.bind ?_ fun _ => ih (index + 1)
    exact hI.keeps_configNotify (Event.underway_partitionFound _ _ _ _)

/-- Building a fabric keeps what has nothing to do with the log and with the clock. -/
theorem keeps_buildSubnet [Memory] {c : Config} (hI : World.Attends c.observer I)
    (hclock : ∀ w clock, I w → I { w with clock }) (hwlocDir : Option String)
    (subnet file : String) : Action.Keeps I (buildSubnet c hwlocDir subnet file) := by
  have hC := Action.Keeps.compositional (I := I)
  unfold buildSubnet
  refine hC.bind (World.keeps_now hclock) fun started => ?_
  refine hC.bind (hI.keeps_showProgress _ _) fun _ => ?_
  refine hC.bind (hI.keeps_configNotify (Event.underway_subnetStarts _ _)) fun _ => ?_
  refine hC.bind (keeps_readDiscovery hI.toQuiet _ _) ?_
  rintro ⟨fileReport, b⟩
  refine hC.bind (keeps_addRoutes hI.toQuiet c _ _) ?_
  rintro ⟨f, report⟩
  refine hC.bind (hC.bind ?_ fun s => hC.pure _) ?_
  · exact hI.keeps_logging (Fabric.keeps_survey fun a _ => keeps_announce hI f a)
  rintro ⟨f, report⟩
  refine hC.bind (hC.bind (hI.keeps_apart _ _) ?_) ?_
  · rintro ⟨partitions, f⟩
    refine hC.bind (hI.keeps_showProgress _ _) fun _ => ?_
    exact hC.bind (keeps_tellPartitions hI f 0 partitions) fun _ => hC.pure _
  rintro ⟨f, report⟩
  exact hC.bind (keeps_addReverseEdges hI.toQuiet f) fun f => hC.pure _

/-- What work on a subnet came to, and what it left in the storage; the fabric can be read off
the result. -/
inductive Leaves {α : Type} (c : Config) (places : Location → Prop) (subnet : String)
    (fabric : α → Fabric Float) (v : World) : Run World α → Prop
  /-- It failed and wrote no fabric. -/
  | failed {e : Failure} {w : World} {log : List Log.Entry}
    (calm : World.Calm ⟨places, False⟩ v.storage v.workingDir w) :
    Leaves c places subnet fabric v ⟨.error e, w, log⟩
  /-- The clock ran out, or the observer failed without words; the fabric may have been written. -/
  | late {e : Failure} {w : World} {log : List Log.Entry}
    (reason : World.Articulate c.observer → e = .momentOutOfRange)
    (kept : ∀ l, ¬ places l → (∀ outputDir, c.outputDir.chosen? = some outputDir →
      v.storage.placeToWrite v.workingDir (PathText.child outputDir (FileName.fabric subnet)) ≠
        .ok l) → w.storage.item? l = v.storage.item? l) :
    Leaves c places subnet fabric v ⟨.error e, w, log⟩
  /-- The fabric was not to be written. -/
  | unwritten {a : α} {w : World} {log : List Log.Entry} (kept : c.outputDir.chosen? = none)
    (calm : World.Calm ⟨places, False⟩ v.storage v.workingDir w) :
    Leaves c places subnet fabric v ⟨.ok a, w, log⟩
  /-- The fabric was written. -/
  | written {a : α} {w : World} {log : List Log.Entry} {outputDir : String} {l : Location}
    {document : Export.Document Float} {t : Tree}
    (chosen : c.outputDir.chosen? = some outputDir)
    (place : v.storage.placeToWrite v.workingDir
      (PathText.child outputDir (FileName.fabric subnet)) = .ok l)
    (exported : (fabric a).document = .ok document)
    (before : Overlaid ⟨places, False⟩ v.storage t)
    (calm : World.Calm ⟨places, False⟩ (t.put l (.file document.text.toUTF8)) v.workingDir w) :
    Leaves c places subnet fabric v ⟨.ok a, w, log⟩

/-- A wired fabric is written where its path leads, unless there is no place for it. -/
theorem writeFabric_cases {f : Fabric Float} (wired : f.Wired) (outputDir : String)
    {places : Location → Prop} {u : World} (hlogs : u.LogsTo places) :
    (∃ e, writeFabric f outputDir u = ⟨.error e, u, []⟩) ∨
      ∃ l document, u.storage.placeToWrite u.workingDir
          (PathText.child outputDir (FileName.fabric f.subnet)) = .ok l ∧
        f.document = .ok document ∧
        (writeFabric f outputDir u).outcome =
          .ok (PathText.child outputDir (FileName.fabric f.subnet)) ∧
        World.Calm ⟨places, False⟩ (u.storage.put l (.file document.text.toUTF8)) u.workingDir
          (writeFabric f outputDir u).state := by
  obtain ⟨document, hdocument⟩ := wired.document_ok
  have hI := World.aloof_calm ⟨places, False⟩
  unfold writeFabric
  rw [World.create_eq, hdocument]
  cases hplace : u.storage.placeToWrite u.workingDir
      (PathText.child outputDir (FileName.fabric f.subnet)) with
  | error e =>
    exact .inl ⟨e, Action.bind_of_error (World.putFile_of_error hplace .empty) _⟩
  | ok l =>
    have hcreate := World.putFile_of_place hplace .empty
    have hwrite : World.write (PathText.child outputDir (FileName.fabric f.subnet)) document.text
        { u with storage := u.storage.put l (.file .empty) } =
        ⟨.ok (), { u with storage := u.storage.put l (.file document.text.toUTF8) }, []⟩ := by
      have hagain := World.putFile_of_place
        (w := { u with storage := u.storage.put l (.file .empty) })
        (Tree.placeToWrite_put hplace .empty) document.text.toUTF8
      rw [Tree.put_put] at hagain
      rw [World.write_eq]
      exact Action.bind_of_ok hagain _
    refine .inr ⟨l, document, rfl, rfl, ?_⟩
    rw [Action.bind_of_ok hcreate, Action.ofExcept_ok_bind, Action.bind_of_ok hwrite]
    refine ⟨rfl, ?_⟩
    exact (hI _ _).keeps_say _ _ _ _ ⟨.refl _ _, rfl, hlogs⟩

/-- Completing the report leaves the storage alone. Before an observer who fails in words only it
succeeds unless the clock has run out. -/
theorem completeReport_cases (c : Config) (f : Fabric Float) (report : SubnetReport)
    {places : Location → Prop} {t : Tree} {dir : Location} {u : World}
    (hu : World.Calm ⟨places, False⟩ t dir u) :
    World.Calm ⟨places, False⟩ t dir (completeReport c f report u).state ∧
      ((∃ e, (completeReport c f report u).outcome = .error e ∧
          (World.Articulate c.observer → e = .momentOutOfRange)) ∨
        ∃ report', (completeReport c f report u).outcome = .ok report') := by
  have htick := World.Calm.tick u u.clock.read.2 hu
  unfold completeReport
  rcases World.now_cases u with ⟨completed, hnow⟩ | hnow
  · rw [Action.bind_of_ok hnow]
    dsimp only
    generalize hreport : { withFigures f report with completed := some completed } = report'
    have htold := (World.aloof_calm ⟨places, False⟩ t dir).keeps_configNotify c
      (.subnetDone report') _ htick
    rcases hnotify : c.notify (.subnetDone report') { u with clock := u.clock.read.2 } with
      ⟨outcome, u', log⟩
    rw [hnotify] at htold
    cases outcome with
    | ok _ =>
      rw [Action.bind_of_ok hnotify]
      exact ⟨htold, .inr ⟨_, rfl⟩⟩
    | error e =>
      rw [Action.bind_of_error hnotify]
      refine ⟨htold, .inl ⟨e, rfl, fun h => ?_⟩⟩
      have hok := World.configNotify_outcome h (.subnetDone report')
        { u with clock := u.clock.read.2 }
      rw [hnotify] at hok
      cases hok
  · rw [Action.bind_of_error hnow]
    exact ⟨htick, .inl ⟨_, rfl, fun _ => rfl⟩⟩

/-- What finishing a subnet can come to. -/
theorem finishSubnet_leaves (c : Config) {f : Fabric Float} (wired : f.Wired)
    (report : SubnetReport) {places : Location → Prop} {u : World} (hlogs : u.LogsTo places) :
    Leaves c places f.subnet (fun _ => f) u (finishSubnet c f report u) := by
  have hcalm : World.Calm ⟨places, False⟩ u.storage u.workingDir u := ⟨.refl _ _, rfl, hlogs⟩
  have hcomplete : ∀ {u' : World} {t : Tree} (report : SubnetReport),
      World.Calm ⟨places, False⟩ t u.workingDir u' →
      World.Calm ⟨places, False⟩ t u.workingDir (completeReport c f report u').state ∧
        ((∃ e, (completeReport c f report u').outcome = .error e ∧
            (World.Articulate c.observer → e = .momentOutOfRange)) ∨
          ∃ report', (completeReport c f report u').outcome = .ok report') :=
    fun report h => completeReport_cases c f report h
  unfold finishSubnet export?
  cases houtput : c.outputDir.chosen? with
  | none =>
    change Leaves c places f.subnet _ u (completeReport c f report u)
    rcases hr : completeReport c f report u with ⟨outcome, w, log⟩
    have hcases := hcomplete report hcalm
    rw [hr] at hcases
    obtain ⟨hw, ⟨e, hlate, reason⟩ | ⟨report', hok⟩⟩ := hcases
    · cases hlate
      exact .late reason fun l hl _ => (hw.storage.item?_eq hl).symm
    · cases hok
      exact .unwritten houtput hw
  | some outputDir =>
    dsimp only
    rcases hw : writeFabric f outputDir u with ⟨outcome, u', log⟩
    have hwrite := writeFabric_cases wired outputDir hlogs
    rw [hw] at hwrite
    rcases hwrite with ⟨e, herror⟩ | ⟨l, document, hplace, hdocument, hok, hwritten⟩
    · cases herror
      rw [Action.bind_of_error (Action.bind_of_error hw _)]
      exact .failed hcalm
    · cases hok
      rw [Action.bind_of_ok (Action.bind_of_ok hw _)]
      have hcases := hcomplete
        { report with outputFile := some (PathText.child outputDir (FileName.fabric f.subnet)) }
        hwritten
      dsimp only [Action.pure_run]
      generalize completeReport c f _ u' = r at hcases ⊢
      rcases r with ⟨outcome, w, log'⟩
      obtain ⟨hw', ⟨e, hlate, reason⟩ | ⟨report', hok⟩⟩ := hcases
      · cases hlate
        refine .late reason fun l' hl' hother => ?_
        have hne : l' ≠ l := fun heq => hother outputDir houtput (heq ▸ hplace)
        rw [← hw'.storage.item?_eq hl', Tree.item?_put _ (Tree.ne_nil_of_placeToWrite hplace),
          if_neg hne]
      · cases hok
        exact .written houtput hplace hdocument (.refl _ _) hw'

/-- What the extraction of a subnet can come to. -/
theorem processSubnet_leaves [Memory] (c : Config) (hwlocDir : Option String) (subnet file : String)
    {places : Location → Prop} {v : World} (hlogs : v.LogsTo places) :
    Leaves c places subnet Prod.fst v (processSubnet c hwlocDir subnet file v) := by
  have hcalm : World.Calm ⟨places, False⟩ v.storage v.workingDir v := ⟨.refl _ _, rfl, hlogs⟩
  have hI := World.aloof_calm ⟨places, False⟩ v.storage v.workingDir
  have hbuild := keeps_buildSubnet (hI.attends c.observer) World.Calm.tick hwlocDir subnet file v
    hcalm
  have hmade := ensures_buildSubnet c hwlocDir subnet file v
  unfold processSubnet
  rcases hr : buildSubnet c hwlocDir subnet file v with ⟨outcome, u, log⟩
  rw [hr] at hbuild hmade
  cases outcome with
  | error e =>
    rw [Action.bind_of_error hr]
    exact .failed hbuild
  | ok result =>
    obtain ⟨f, report⟩ := result
    obtain ⟨k, hk, -⟩ := hmade (f, report) rfl
    have hfinish := finishSubnet_leaves c hk.wired report hbuild.logsTo
    rw [hk.subnet_eq] at hfinish
    rw [Action.bind_of_ok hr]
    dsimp only
    rcases hr' : finishSubnet c f report u with ⟨outcome, w, log'⟩
    rw [hr'] at hfinish
    cases hfinish with
    | failed calm =>
      rw [Action.bind_of_error hr']
      refine .failed ?_
      rw [hbuild.workingDir] at calm
      exact calm.since hbuild.storage
    | late reason kept =>
      rw [Action.bind_of_error hr']
      refine .late reason fun l hl hother => ?_
      refine (kept l hl fun outputDir chosen place => hother outputDir chosen ?_).trans
        (hbuild.storage.item?_eq hl).symm
      rw [hbuild.workingDir] at place
      exact (hbuild.storage.placeToWrite_eq _ _).trans place
    | unwritten kept calm =>
      rw [Action.bind_of_ok hr']
      refine .unwritten kept ?_
      rw [hbuild.workingDir] at calm
      exact calm.since hbuild.storage
    | written chosen place exported before calm =>
      rw [Action.bind_of_ok hr']
      rw [hbuild.workingDir] at calm place
      refine .written chosen ?_ exported (hbuild.storage.trans before) calm
      exact (hbuild.storage.placeToWrite_eq _ _).trans place

end Extract

end FabricPaths
