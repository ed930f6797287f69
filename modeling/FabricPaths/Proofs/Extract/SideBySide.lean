import FabricPaths.Proofs.Extract.Inputs
import FabricPaths.Proofs.Extract.Making
import FabricPaths.Proofs.Path.Observers
import FabricPaths.Proofs.Path.Telling
import FabricPaths.Proofs.World.Attending

/-!
# Subnets extracted side by side

One subnet is extracted in two worlds whose storages differ in files that are not read for it.
The fabrics are the same then, and so are the reports but for the times in them.
-/

namespace FabricPaths

open Storage
open FabricPaths.Action (Parallel)

namespace SubnetReport

/-- The report without its times. -/
def timeless (r : SubnetReport) : SubnetReport := { r with started := none, completed := none }

/-- The reports are the same, but for their times in a loose comparison. -/
structure Like (loose : Prop) (r r' : SubnetReport) : Prop where
  /-- All else is the same. -/
  timeless : r.timeless = r'.timeless
  /-- The times are the same, if that is asked for. -/
  times : ¬ loose → r.started = r'.started ∧ r.completed = r'.completed

/-- Reports with the same times are the same. -/
theorem Like.eq {loose : Prop} {r r' : SubnetReport} (h : r.Like loose r') (hl : ¬ loose) :
    r = r' := by
  obtain ⟨hstarted, hcompleted⟩ := h.times hl
  have htimed : ∀ r : SubnetReport,
      r = { r.timeless with started := r.started, completed := r.completed } := fun _ => rfl
  rw [htimed r, htimed r', h.timeless, hstarted, hcompleted]

end SubnetReport

namespace Extract

/-- The settings ask for the same data to be read and written at the same places, and their
observers fail in words only. -/
structure Alike (c c' : Config) : Prop where
  /-- The dumps are read from the same directory. -/
  inputDir : c.inputDir = c'.inputDir
  /-- The fabrics are written to the same directory. -/
  outputDir : c.outputDir = c'.outputDir
  /-- The first observer fails in words only. -/
  wordsLeft : World.Articulate c.observer
  /-- The second observer fails in words only. -/
  wordsRight : World.Articulate c'.observer

variable {m : Slack} {t t' : Tree} {dir : Location} {c c' : Config}
  {inputDir subnet file : String} {R : World → World → Prop} {loose : Prop}

/-- The discovery dump is read into the same fabric. -/
theorem parallel_readDiscovery [Memory] (hunread : Unread inputDir subnet file t' dir m.places) :
    Parallel (World.Abreast m t t' dir) m.loose Eq
      (readDiscovery subnet (PathText.join inputDir file))
      (readDiscovery subnet (PathText.join inputDir file)) := by
  have hR := World.companions_abreast m t t' dir
  unfold readDiscovery
  refine (hR.say _ _ _).bind fun _ _ _ => ?_
  refine (World.parallel_readLines hunread.discovery).bind ?_
  rintro lines _ rfl
  refine (hR.apart _ _).bind ?_
  rintro ⟨report, builder⟩ _ rfl
  refine (hR.apart _ _).bind ?_
  rintro ⟨⟨⟩, builder'⟩ _ rfl
  exact .pure rfl

/-- Route dumps are read into the same tables. -/
theorem parallel_readRouteFiles {names : List String} {path : String} (loader : Loader)
    (h : ∀ name ∈ names, ∀ l bytes,
      t'.find dir (PathText.child path name) = .ok (l, .file bytes) → ¬ m.places l) :
    Parallel (World.Abreast m t t' dir) m.loose Eq (readRouteFiles path loader names)
      (readRouteFiles path loader names) := by
  have hR := World.companions_abreast m t t' dir
  induction names generalizing loader with
  | nil => exact .pure rfl
  | cons name rest ih =>
    unfold readRouteFiles
    refine (World.parallel_readLines (h name List.mem_cons_self)).bind ?_
    rintro lines _ rfl
    refine (hR.apart _ _).bind ?_
    rintro ⟨report, loader'⟩ _ rfl
    exact ih loader' fun name hname => h name (List.mem_cons_of_mem _ hname)

/-- The route dumps of a subnet are read into the same tables. -/
theorem parallel_readRoutes (hunread : Unread inputDir subnet file t' dir m.places)
    (hopen : m.loose → t'.isBarred dir (routePath inputDir subnet) = true →
      t.isBarred dir (routePath inputDir subnet) = true) :
    Parallel (World.Abreast m t t' dir) m.loose Eq (readRoutes inputDir subnet)
      (readRoutes inputDir subnet) := by
  have hR := World.companions_abreast m t t' dir
  unfold readRoutes
  refine (parallel_routeDirectory? hopen).bind ?_
  rintro found _ ⟨rfl, hpath⟩
  cases found with
  | none => exact (hR.say _ _ _).bind fun _ _ _ => .pure rfl
  | some path =>
    cases hpath path rfl
    refine (parallel_list hunread).bind fun names names' hnames => ?_
    rw [Loader.readingOrder_congr hnames.1]
    refine Parallel.ofExcept_bind fun order horder => ?_
    have hread : ∀ name ∈ order, ∀ l bytes,
        t'.find dir (PathText.child (routePath inputDir subnet) name) = .ok (l, .file bytes) →
          ¬ m.places l := by
      intro name hname
      obtain ⟨hin, hdump⟩ := Loader.mem_readingOrder horder hname
      exact hunread.routes names' hnames.2 name hin hdump
    refine (parallel_readRouteFiles {} hread).bind ?_
    rintro loader _ rfl
    exact (hR.say _ _ _).bind fun _ _ _ => .pure rfl

/-- A fabric and the report on it are the same as others, but for times in the report. -/
def SameResult (loose : Prop) (a b : Fabric Float × SubnetReport) : Prop :=
  a.1 = b.1 ∧ a.2.Like loose b.2

/-- What the route dumps tell is the same. -/
theorem parallel_addRoutes (hc : Alike c c') {f : Fabric Float} (hf : f.subnet = subnet)
    {r r' : SubnetReport} (hr : r.Like m.loose r')
    (hunread : Unread c'.inputDir subnet file t' dir m.places)
    (hopen : m.loose → t'.isBarred dir (routePath c'.inputDir subnet) = true →
      t.isBarred dir (routePath c'.inputDir subnet) = true) :
    Parallel (World.Abreast m t t' dir) m.loose (SameResult m.loose) (addRoutes c f r)
      (addRoutes c' f r') := by
  have hR := World.companions_abreast m t t' dir
  unfold addRoutes
  rw [hc.inputDir, hf]
  refine (parallel_readRoutes hunread hopen).bind ?_
  rintro loader _ rfl
  cases loader with
  | none => exact (hR.showProgress _ _ _ _).bind fun _ _ _ => .pure ⟨rfl, hr⟩
  | some loader =>
    refine .pure ⟨rfl, ?_, hr.times⟩
    exact congrArg (fun r : SubnetReport =>
      { r with
        routeDirFound := true
        tables := (loader.tables.size : Nat)
        files := r.files ++ loader.files }) hr.timeless

/-- Announcing a walk keeps what is kept in telling of it. -/
theorem keeps_announce {I : World → Prop} {c : Config} (hI : World.Attends c.observer I)
    (f : Fabric Float) (a : Attempt) : Action.Keeps I (Fabric.announce (walkObserver c f) a) := by
  intro w hw
  have htells := hI.tells
  unfold walkObserver
  cases hc : c.observer with
  | none =>
    rw [Option.map_none, Fabric.announce_none]
    exact hw
  | some o =>
    rw [Option.map_some, Fabric.announce_state]
    refine Action.Keeps.ofExcept_bind (fun e he => ?_) w hw
    rw [← hc]
    exact htells e (Event.underway_walked he)

/-- If the observer fails in words only, so does telling of walks. -/
theorem articulate_walkObserver (h : World.Articulate c.observer) (f : Fabric Float) :
    Fabric.Articulate (walkObserver c f) := by
  intro tell htell a w e he
  obtain ⟨o, ho, rfl⟩ := Option.map_eq_some_iff.mp htell
  dsimp only at he
  cases hwalked : Event.walked f a with
  | error e' =>
    rw [hwalked] at he
    cases he
    exact Event.hasWords_of_walked hwalked
  | ok event =>
    rw [hwalked, Action.ofExcept_ok_bind] at he
    rw [ho] at h
    cases (World.notify_outcome h event w).symm.trans he

/-- The paths between the hosts are the same. -/
theorem parallel_addPaths (hR : World.Companions loose R) (hc : Alike c c') (f : Fabric Float)
    {r r' : SubnetReport} (hr : r.Like loose r') :
    Parallel R loose (SameResult loose) (addPaths c f r) (addPaths c' f r') := by
  have hannounce : ∀ a, Parallel R loose Eq (Fabric.announce (walkObserver c f) a)
      (Fabric.announce (walkObserver c' f) a) := by
    intro a
    refine hR.of_keeps (fun v w => ?_) (fun _ hI => keeps_announce (hI.attends _) f a)
      fun _ hI => keeps_announce (hI.attends _) f a
    rw [Fabric.announce_outcome (articulate_walkObserver hc.wordsLeft f),
      Fabric.announce_outcome (articulate_walkObserver hc.wordsRight f)]
  unfold addPaths
  refine (hR.logging (f.parallel_survey hannounce)).bind ?_
  rintro s _ rfl
  refine .pure ⟨rfl, ?_, hr.times⟩
  exact congrArg (fun r : SubnetReport => { r with counts := s.counts }) hr.timeless

/-- The same is told of the partitions, if anything is. -/
theorem parallel_tellPartitions (hR : World.Companions loose R) (hc : Alike c c')
    (f : Fabric Float) (index : Nat) (partitions : List Partition) :
    Parallel R loose Eq (tellPartitions c f index partitions)
      (tellPartitions c' f index partitions) := by
  induction partitions generalizing index with
  | nil => exact .pure rfl
  | cons p rest ih =>
    unfold tellPartitions
    refine (hR.showProgress _ _ _ _).bind fun _ _ _ => ?_
    refine Parallel.ofExcept_bind fun members _ => ?_
    exact (hR.notify hc.wordsLeft hc.wordsRight _ _).bind fun _ _ _ => ih (index + 1)

/-- The partitions are the same. -/
theorem parallel_addPartitions (hR : World.Companions loose R) (hc : Alike c c')
    (f : Fabric Float) {r r' : SubnetReport} (hr : r.Like loose r') :
    Parallel R loose (SameResult loose) (addPartitions c f r) (addPartitions c' f r') := by
  unfold addPartitions
  refine (hR.apart _ _).bind ?_
  rintro ⟨partitions, g⟩ _ rfl
  refine (hR.showProgress _ _ _ _).bind fun _ _ _ => ?_
  refine (parallel_tellPartitions hR hc g 0 partitions).bind fun _ _ _ => ?_
  refine .pure ⟨rfl, ?_, hr.times⟩
  exact congrArg (fun r : SubnetReport => { r with partitions := partitions.map Partition.name })
    hr.timeless

/-- The edges are paired in the same way. -/
theorem parallel_addReverseEdges (hR : World.Companions loose R) (f : Fabric Float) :
    Parallel R loose Eq (addReverseEdges f) (addReverseEdges f) := by
  unfold addReverseEdges
  dsimp only
  split
  · exact (hR.say _ _ _).bind fun _ _ _ => .pure rfl
  · exact .pure rfl

/-- The fabric of a subnet is built in the same way, if its inputs are the same. -/
theorem parallel_buildSubnet [Memory] (hc : Alike c c') (hwlocDir : Option String)
    (hunread : Unread c'.inputDir subnet file t' dir m.places)
    (hopen : m.loose → t'.isBarred dir (routePath c'.inputDir subnet) = true →
      t.isBarred dir (routePath c'.inputDir subnet) = true) :
    Parallel (World.Abreast m t t' dir) m.loose (SameResult m.loose)
      (buildSubnet c hwlocDir subnet file) (buildSubnet c' hwlocDir subnet file) := by
  have hR := World.companions_abreast m t t' dir
  unfold buildSubnet
  refine hR.now.bind fun started started' hstarted => ?_
  refine (hR.showProgress _ _ _ _).bind fun _ _ _ => ?_
  refine (hR.notify hc.wordsLeft hc.wordsRight _ _).bind fun _ _ _ => ?_
  rw [hc.inputDir]
  refine ((parallel_readDiscovery hunread).ensuring (ensures_readDiscovery subnet _)).bind ?_
  rintro ⟨fileReport, builder⟩ _ ⟨rfl, hready⟩
  have hreport : SubnetReport.Like m.loose
      { subnet, started := some started, files := [fileReport]
        unresolved := (builder.unresolved : Nat) }
      { subnet, started := some started', files := [fileReport]
        unresolved := (builder.unresolved : Nat) } :=
    ⟨rfl, fun hl => ⟨congrArg some (hstarted hl), rfl⟩⟩
  have hf : ({ builder.fabric with hwlocDir } : Fabric Float).subnet = subnet := hready.subnet_eq
  refine (parallel_addRoutes hc hf hreport hunread hopen).bind ?_
  rintro ⟨f, r⟩ ⟨_, r'⟩ ⟨rfl, hr⟩
  refine (parallel_addPaths hR hc f hr).bind ?_
  rintro ⟨f, r⟩ ⟨_, r'⟩ ⟨rfl, hr⟩
  refine (parallel_addPartitions hR hc f hr).bind ?_
  rintro ⟨f, r⟩ ⟨_, r'⟩ ⟨rfl, hr⟩
  refine (parallel_addReverseEdges hR f).bind ?_
  rintro g _ rfl
  exact .pure ⟨rfl, hr⟩

/-- A fabric is written to the same place. -/
theorem parallel_writeFabric (f : Fabric Float) (outputDir : String) :
    Parallel (World.Beside m) m.loose Eq (writeFabric f outputDir) (writeFabric f outputDir) := by
  have hR := World.companions_beside m
  unfold writeFabric
  refine (World.parallel_create _).bind fun _ _ _ => ?_
  refine Parallel.ofExcept_bind fun document _ => ?_
  refine (World.parallel_write _ _).bind fun _ _ _ => ?_
  exact (hR.say _ _ _).bind fun _ _ _ => .pure rfl

/-- A finished fabric is written to the same place, if it is written. -/
theorem parallel_export? (hc : Alike c c') (f : Fabric Float) {r r' : SubnetReport}
    (hr : r.Like m.loose r') :
    Parallel (World.Beside m) m.loose (SubnetReport.Like m.loose) (export? c f r)
      (export? c' f r') := by
  unfold export?
  rw [hc.outputDir]
  cases c'.outputDir.chosen? with
  | none => exact .pure hr
  | some path =>
    refine (parallel_writeFabric f path).bind ?_
    rintro outputFile _ rfl
    refine .pure ⟨?_, hr.times⟩
    exact congrArg (fun r : SubnetReport => { r with outputFile := some outputFile }) hr.timeless

/-- A subnet is finished in the same way. -/
theorem parallel_finishSubnet (hc : Alike c c') (f : Fabric Float) {r r' : SubnetReport}
    (hr : r.Like m.loose r') :
    Parallel (World.Beside m) m.loose (SubnetReport.Like m.loose) (finishSubnet c f r)
      (finishSubnet c' f r') := by
  have hR := World.companions_beside m
  unfold finishSubnet
  refine (parallel_export? hc f hr).bind fun r r' hr => ?_
  unfold completeReport
  refine hR.now.bind fun completed completed' hcompleted => ?_
  refine (hR.notify hc.wordsLeft hc.wordsRight _ _).bind fun _ _ _ => .pure ⟨?_, fun hl => ?_⟩
  · exact congrArg (fun r : SubnetReport => withFigures f r) hr.timeless
  · exact ⟨(hr.times hl).1, congrArg some (hcompleted hl)⟩

/-- A subnet is extracted in the same way, if its inputs are the same: into the same fabric,
with the same report but for its times. -/
theorem agree_processSubnet [Memory] (hc : Alike c c') (hwlocDir : Option String) {v w : World}
    (h : World.Beside m v w)
    (hunread : Unread c'.inputDir subnet file w.storage w.workingDir m.places)
    (hopen : m.loose → w.storage.isBarred w.workingDir (routePath c'.inputDir subnet) = true →
      v.storage.isBarred w.workingDir (routePath c'.inputDir subnet) = true) :
    (processSubnet c hwlocDir subnet file v).Agree (World.Beside m) m.loose
      (SameResult m.loose) (processSubnet c' hwlocDir subnet file w) := by
  have habreast : World.Abreast m v.storage w.storage w.workingDir v w :=
    ⟨h, .refl _ _, .refl _ _, rfl⟩
  have hbuilt := parallel_buildSubnet hc hwlocDir hunread hopen v w habreast
  have hbeside := hbuilt.weaken (fun _ _ h => h.toBeside) fun _ _ h => h
  unfold processSubnet
  refine hbeside.bind ?_
  rintro ⟨f, r⟩ ⟨_, r'⟩ ⟨rfl, hr⟩
  exact (parallel_finishSubnet hc f hr).bind fun _ _ hr => .pure ⟨rfl, hr⟩

end Extract

end FabricPaths
