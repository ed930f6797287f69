import FabricPaths.Proofs.Extract.Stages
import FabricPaths.Proofs.Path.Trail

/-!
# Runs whoever observes them

Two runs that differ in their observers come to the same result and leave the same files but
for the log, as long as the log is not read for a subnet and the observers fail in words only.
-/

namespace FabricPaths

open Storage
open FabricPaths.Action (Parallel)

namespace World.Beside

variable {m : Slack} {v w : World}

/-- Worlds with equal reports on the run get equal reports on one more subnet. -/
theorem withSubnet (h : World.Beside m v w) (report : SubnetReport) :
    World.Beside m (Extract.withSubnet report v) (Extract.withSubnet report w) := by
  refine ⟨h.storage, h.workingDir, h.logsLeft, h.logsRight, fun hl => ?_⟩
  obtain ⟨hclock, hreport⟩ := h.exact hl
  refine ⟨hclock, ?_⟩
  unfold Extract.withSubnet
  rw [hreport]

end World.Beside

namespace Extract

variable {c c' : Config} {places : Location → Prop}

/-- Subnets are extracted in the same way in two worlds, if nothing in which these differ is
read for one of them. -/
theorem agree_processEach [Memory] (hc : Alike c c') (hwlocDir : Option String)
    (subnets : List (String × String)) {v w : World}
    (h : World.Beside ⟨places, False⟩ v w)
    (hunread : ∀ stage ∈ stages c' hwlocDir subnets w, Unread c'.inputDir stage.subnet stage.file
      stage.before.storage stage.before.workingDir places) :
    (processEach c hwlocDir subnets v).Agree (World.Beside ⟨places, False⟩) False Eq
      (processEach c' hwlocDir subnets w) := by
  induction subnets generalizing v w with
  | nil => exact .ok rfl h
  | cons first rest ih =>
    obtain ⟨subnet, file⟩ := first
    have hfirst := agree_processSubnet hc hwlocDir h (hunread _ List.mem_cons_self) False.elim
    unfold processEach
    refine hfirst.bind_from ?_
    rintro ⟨f, r⟩ ⟨_, r'⟩ - hright ⟨rfl, hr⟩ hstates
    cases hr.eq not_false
    refine ih (hstates.withSubnet r) fun stage hstage => hunread stage ?_
    rw [stages_cons_of_ok hright]
    exact List.mem_cons_of_mem _ hstage

/-- A run is closed in the same way in two worlds with equal reports and clocks. -/
theorem parallel_closing (hc : Alike c c') (hdiag : c.diagFile = c'.diagFile) :
    Parallel (World.Beside ⟨places, False⟩) False Eq (closing c) (closing c') := by
  have hR := World.companions_beside ⟨places, False⟩
  unfold closing currentReport
  refine hR.now.bind fun completed completed' hcompleted => ?_
  cases hcompleted not_false
  refine Parallel.bind (Parallel.modify fun v w h => ?_) fun _ _ _ => ?_
  · refine ⟨h.storage, h.workingDir, h.logsLeft, h.logsRight, fun hl => ?_⟩
    obtain ⟨hclock, hreport⟩ := h.exact hl
    exact ⟨hclock, by rw [hreport]⟩
  refine Parallel.bind (Q := Eq) (fun v w h => ?_) ?_
  · refine .ok ?_ h
    dsimp only
    rw [hc.inputDir, hc.outputDir, (h.exact not_false).2]
  · rintro report _ rfl
    refine (hR.notify hc.wordsLeft hc.wordsRight _ _).bind fun _ _ _ => ?_
    rw [hdiag]
    cases c'.diagFile.chosen? with
    | none => exact .pure rfl
    | some path => exact (World.parallel_write path _).bind fun _ _ _ => .pure rfl

/-- A run comes to what it comes to when nobody is told of it. -/
theorem agree_run_unobserved [Memory] (c : Config) (w : World)
    (hlog : ∀ stage ∈ stagesOf { c with observer := none } w, ∀ l, c.logPlace? w = some l →
      isInput c.inputDir stage.subnet stage.file stage.before.storage stage.before.workingDir l =
        false) {observer : Option Observer} (ho : World.Articulate observer) :
    (run { c with observer } w).Agree
      (World.Beside ⟨fun l => c.logPlace? w = some l, False⟩) False Eq
      (run { c with observer := none } w) := by
  have hopened : opening { c with observer } w = opening { c with observer := none } w := rfl
  have hlogs := (opening_calm { c with observer := none } w).logsTo
  have hbeside : World.Beside ⟨fun l => c.logPlace? w = some l, False⟩
      (opening { c with observer := none } w).state
      (opening { c with observer := none } w).state :=
    ⟨.refl _ _, rfl, hlogs, hlogs, fun _ => ⟨rfl, rfl⟩⟩
  unfold run
  refine Run.Agree.bind_from (Q := Eq) ?_ ?_
  · rw [hopened]
    generalize opening { c with observer := none } w = r at hbeside
    rcases r with ⟨outcome, u, log⟩
    cases outcome with
    | ok found => exact .ok rfl hbeside
    | error e => exact .error hbeside
  · rintro ⟨hwlocDir, subnets⟩ _ - hfound rfl hstates
    have halike : Alike { c with observer } { c with observer := none } := ⟨rfl, rfl, ho, nofun⟩
    have heach := agree_processEach halike hwlocDir subnets hstates fun stage hstage =>
      unread_of_isInput fun l hl =>
        hlog stage (by unfold stagesOf; rwa [findings_of_opening hfound]) l hl
    exact heach.bind fun _ _ _ => parallel_closing halike rfl

/-- The file of the report has the report, once a run is over. -/
theorem read_of_run [Memory] {c : Config} {w : World} {report : RunReport} {path : String}
    (hreport : (run c w).outcome = .ok report) (hpath : c.diagFile.chosen? = some path) :
    (run c w).state.storage.read (run c w).state.workingDir path =
      .ok (report.toJson true).render.toUTF8 := by
  rcases run_cases c w with ⟨e, -, he, -⟩ |
    ⟨-, outcome, u, -, ⟨e, -, he, -⟩ | ⟨-, houtcome, hstate⟩⟩
  · cases hreport.symm.trans he
  · cases hreport.symm.trans he
  rw [houtcome] at hreport
  rw [hstate]
  have hlogs : ∀ u : World, u.LogsTo fun _ => True := fun _ _ _ _ _ _ => trivial
  rcases closing_cases c (hlogs _) with ⟨-, herror⟩ |
    ⟨report', path', l, t, hreport', hpath', -, hplace, hstorage, hdir⟩
  · obtain ⟨e, he⟩ := herror (by rw [hpath]; rfl)
    cases hreport.symm.trans he
  · cases hreport.symm.trans hreport'
    cases hpath.symm.trans hpath'
    rw [hstorage, hdir]
    exact Tree.read_put hplace _

/-- Whoever is told of a run, and whatever comes of telling, the run comes to the same end with
the same report. It leaves the same files but for the log, and the same file of the report. The
log must not be read for a subnet, and the observers must fail in words only. Likewise all walks
come to the same paths and counts, whichever discreet observer is shown them. -/
theorem run_whoever_observes [Memory] (c : Config) (w : World)
    (hlog : ∀ stage ∈ stagesOf { c with observer := none } w, ∀ l, c.logPlace? w = some l →
      isInput c.inputDir stage.subnet stage.file stage.before.storage stage.before.workingDir l =
        false) {o o' : Option Observer} (ho : World.Articulate o) (ho' : World.Articulate o') :
    let r := run { c with observer := o } w
    let r' := run { c with observer := o' } w
    r.outcome = r'.outcome ∧ r.state.report = r'.state.report ∧
      (∀ l, c.logPlace? w ≠ some l → r.state.storage.item? l = r'.state.storage.item? l) ∧
      (∀ report path, r.outcome = .ok report → c.diagFile.chosen? = some path →
        r.state.storage.read r.state.workingDir path =
          r'.state.storage.read r'.state.workingDir path) ∧
      ∀ (σ : Type) (f : Fabric Float) (observe observe' : Option (WalkObserver σ)),
        (∀ o ∈ observe, o.Discreet) → (∀ o ∈ observe', o.Discreet) →
        ∀ (kept kept' : StatusCounts) (s s' : σ),
          (f.walkAll observe kept s).outcome = (f.walkAll observe' kept' s').outcome := by
  intro r r'
  have hagree := agree_run_unobserved c w hlog ho
  have hagree' := agree_run_unobserved c w hlog ho'
  have houtcome : r.outcome = r'.outcome := hagree.outcome_eq.trans hagree'.outcome_eq.symm
  refine ⟨houtcome, ?_, ?_, ?_, fun σ f _ _ h h' => f.walkAll_outcome h h'⟩
  · exact (hagree.states.exact not_false).2.trans (hagree'.states.exact not_false).2.symm
  · intro l hl
    have hsame : ∀ {v v' : World}, World.Beside ⟨fun l => c.logPlace? w = some l, False⟩ v v' →
        v.storage.item? l = v'.storage.item? l :=
      fun h => h.storage.item?_eq hl
    exact (hsame hagree.states).trans (hsame hagree'.states).symm
  · intro report path hreport hpath
    exact (read_of_run hreport hpath).trans
      (read_of_run (houtcome.symm.trans hreport) hpath).symm

/-- The dump of a subnet without hosts, and a directory for its route dumps. -/
def bareSubnet : World := worldOf
  [(["in"], .directory), (["out"], .directory),
    (["in", "ib-subnet-fe80:0000:0000:0001.txt"], .file .empty),
    (["in", "ibroutes-fe80:0000:0000:0001"], .directory)]

/-- An observer who can be told of nothing, and says so. -/
def closedObserver : Observer := fun _ _ => some (.observer "display gone")

/-- An observer of walks who can be shown nothing, and says so. -/
def closedWalkObserver : WalkObserver Unit :=
  .onlooker fun _ => Action.fail (.observer "display gone")

/-- The fabric of the star, with the tables that lead to its third host. -/
def starFabric : Fabric Float :=
  (Builder.after "s" Fabric.sampleStar).fabric.withRoutes Fabric.sampleStarRoutes

/-- A log beside the directories is not read, so the observer makes no difference; nor does it to
the walks of a star. -/
theorem bareSubnet_whoever_observes :
    (∀ stage ∈ stagesOf { loggingTo "run.log" with observer := none } bareSubnet, ∀ l,
      (loggingTo "run.log").logPlace? bareSubnet = some l →
        isInput "in" stage.subnet stage.file stage.before.storage stage.before.workingDir l =
          false) ∧
    World.Articulate (some closedObserver) ∧ closedWalkObserver.Discreet ∧
    (run { loggingTo "run.log" with observer := none } bareSubnet).outcome =
      (run { loggingTo "run.log" with observer := some closedObserver } bareSubnet).outcome ∧
    (starFabric.walkAll none ∅ ()).outcome =
      (starFabric.walkAll (some closedWalkObserver) ∅ ()).outcome := by
  have hplace : (loggingTo "run.log").logPlace? bareSubnet = some ["run.log"] := by
    decide +kernel
  have hall : ((stagesOf { loggingTo "run.log" with observer := none } bareSubnet).all
      fun stage => !isInput "in" stage.subnet stage.file stage.before.storage
        stage.before.workingDir ["run.log"]) = true := by decide +kernel
  have hlog : ∀ stage ∈ stagesOf { loggingTo "run.log" with observer := none } bareSubnet, ∀ l,
      (loggingTo "run.log").logPlace? bareSubnet = some l →
        isInput "in" stage.subnet stage.file stage.before.storage stage.before.workingDir l =
          false := by
    intro stage hstage l hl
    cases hplace.symm.trans hl
    have hunread := List.all_eq_true.mp hall stage hstage
    rwa [Bool.not_eq_true'] at hunread
  have hwords : World.Articulate (some closedObserver) := by
    rintro o ⟨⟩ n e failure ⟨⟩
    exact ⟨"display gone", rfl⟩
  have hdiscreet : closedWalkObserver.Discreet := by
    refine ⟨?_, fun _ _ => rfl⟩
    rintro s a e ⟨⟩
    exact ⟨"display gone", rfl⟩
  obtain ⟨houtcome, -, -, -, hwalks⟩ := run_whoever_observes (loggingTo "run.log") bareSubnet hlog
    (o := none) nofun hwords
  refine ⟨hlog, hwords, hdiscreet, houtcome,
    hwalks Unit starFabric none (some closedWalkObserver) nofun ?_ ∅ ∅ () ()⟩
  rintro o ⟨⟩
  exact hdiscreet

/-- How many lines were read from the dumps of each subnet, if all were extracted. -/
def linesRead : Except Failure RunReport → Option (List Int)
  | .ok report => some (report.subnets.flatMap fun s => s.files.map (·.linesRead))
  | .error _ => none

/-- A log among the route dumps of a subnet. -/
def logAmongDumps : Config :=
  loggingTo "in/ibroutes-fe80:0000:0000:0001/ibroute-fe80:0000:0000:0001-1.txt"

/-- What a failing observer leaves in a log among the route dumps is read with them and
counted in the report. -/
theorem logAmongDumps_tells_observers :
    (run { logAmongDumps with observer := none } bareSubnet).outcome ≠
      (run { logAmongDumps with observer := some closedObserver } bareSubnet).outcome := by
  have hsilent : linesRead (run { logAmongDumps with observer := none } bareSubnet).outcome =
      some [0, 2] := by decide +kernel
  have hfailing : linesRead
      (run { logAmongDumps with observer := some closedObserver } bareSubnet).outcome =
        some [0, 3] := by decide +kernel
  intro hsame
  rw [hsame, hfailing] at hsilent
  exact absurd hsilent (by decide)

/-- An observer who can be told of nothing, and cannot even say so. -/
def speechlessObserver : Observer := fun _ _ => some (.speechless .numberTooLong)

/-- An observer who cannot say why it failed ends a run. -/
theorem speechlessObserver_ends_run :
    (run { loggingTo "run.log" with observer := none } bareSubnet).outcome ≠
      (run { loggingTo "run.log" with observer := some speechlessObserver }
        bareSubnet).outcome := by
  have hsilent : linesRead
      (run { loggingTo "run.log" with observer := none } bareSubnet).outcome = some [0] := by
    decide +kernel
  have hfailing : linesRead
      (run { loggingTo "run.log" with observer := some speechlessObserver } bareSubnet).outcome =
        none := by decide +kernel
  intro hsame
  rw [hsame, hfailing] at hsilent
  cases hsilent

/-- An observer of walks who can be shown nothing, and cannot even say so. -/
def speechlessWalkObserver : WalkObserver Unit :=
  .onlooker fun _ => Action.fail (.speechless .numberTooLong)

/-- An observer who takes the links out of the walks that it is shown. -/
def editingObserver : WalkObserver Unit := fun (s, a) => ⟨.ok (), (s, { a with links := [] }), []⟩

/-- The numbers of links of the paths that walks came to, if they came to any. -/
def pathLengths : Except Failure Survey → Option (List Nat)
  | .ok s => some (s.paths.values.flatMap fun dests => dests.values.map List.length)
  | .error _ => none

/-- The walks of the star come to two paths when nobody is shown them. -/
theorem pathLengths_starFabric :
    pathLengths (starFabric.walkAll none ∅ ()).outcome = some [2, 2] := by decide +kernel

/-- An observer of walks who cannot say why it failed ends them. -/
theorem speechlessWalkObserver_ends_walks : (starFabric.walkAll none ∅ ()).outcome ≠
    (starFabric.walkAll (some speechlessWalkObserver) ∅ ()).outcome := by
  have hfailing : pathLengths (starFabric.walkAll (some speechlessWalkObserver) ∅ ()).outcome =
      none := by decide +kernel
  intro hsame
  have halone := pathLengths_starFabric
  rw [hsame, hfailing] at halone
  cases halone

/-- An observer who changes the walks that it is shown changes the paths that come of them. -/
theorem editingObserver_changes_paths : (starFabric.walkAll none ∅ ()).outcome ≠
    (starFabric.walkAll (some editingObserver) ∅ ()).outcome := by
  have hedited : pathLengths (starFabric.walkAll (some editingObserver) ∅ ()).outcome =
      some [0, 0] := by decide +kernel
  intro hsame
  have halone := pathLengths_starFabric
  rw [hsame, hedited] at halone
  exact absurd halone (by decide)

/-- An observer who fails makes a difference to a run whose log is read for a subnet, one who fails
without words ends a run or the walks, and one who changes the walks changes the paths. -/
theorem observers_make_differences :
    (run { logAmongDumps with observer := none } bareSubnet).outcome ≠
      (run { logAmongDumps with observer := some closedObserver } bareSubnet).outcome ∧
    (run { loggingTo "run.log" with observer := none } bareSubnet).outcome ≠
      (run { loggingTo "run.log" with observer := some speechlessObserver } bareSubnet).outcome ∧
    (starFabric.walkAll none ∅ ()).outcome ≠
      (starFabric.walkAll (some speechlessWalkObserver) ∅ ()).outcome ∧
    (starFabric.walkAll none ∅ ()).outcome ≠
      (starFabric.walkAll (some editingObserver) ∅ ()).outcome :=
  ⟨logAmongDumps_tells_observers, speechlessObserver_ends_run, speechlessWalkObserver_ends_walks,
    editingObserver_changes_paths⟩

end Extract

end FabricPaths
