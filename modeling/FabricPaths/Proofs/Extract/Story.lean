import FabricPaths.Proofs.Extract.Reporting
import FabricPaths.Proofs.Extract.Walks
import FabricPaths.Proofs.Partition.Members

/-!
# What is told of a subnet

The extraction of a subnet tells that it begins, of each walk between two hosts, of each
partition with its members, and that it is done. What is told agrees with the report and with
the fabric.
-/

namespace FabricPaths

/-- The name of a partition, with the host names of its members. -/
def Fabric.named (f : Fabric Float) (p : Partition) : String × List String :=
  (p.name, p.members.map f.hostnameOf)

namespace Extract

open World (Silent Tells)

variable {c : Config}

/-! ## What is done in silence -/

/-- Reading the clock is silent. -/
theorem silent_now : Silent World.now := fun _ => World.keeps_now fun _ _ h => h

/-- Showing the progress is silent. -/
theorem silent_showProgress (c : Config) (s : String) : Silent (c.showProgress s) :=
  fun es => (World.quiet_told es).keeps_showProgress c s

/-- Reading a discovery dump is silent. -/
theorem silent_readDiscovery [Memory] (subnet path : String) : Silent (readDiscovery subnet path) :=
  fun es => keeps_readDiscovery (World.quiet_told es) subnet path

/-- Adding what route dumps tell is silent. -/
theorem silent_addRoutes (c : Config) (f : Fabric Float) (report : SubnetReport) :
    Silent (addRoutes c f report) :=
  fun es => keeps_addRoutes (World.quiet_told es) c f report

/-- Pairing the edges is silent. -/
theorem silent_addReverseEdges (f : Fabric Float) : Silent (addReverseEdges f) :=
  fun es => keeps_addReverseEdges (World.quiet_told es) f

/-- Writing a fabric is silent. -/
theorem silent_export? (c : Config) (f : Fabric Float) (report : SubnetReport) :
    Silent (export? c f report) :=
  fun es => keeps_export? (World.quiet_told es) (fun _ _ h => h) c f report

/-! ## What is told -/

/-- The events that tell of partitions, numbered from zero. -/
def partitionEvents (subnet : String) (groups : List (String × List String)) : List Event :=
  groups.mapIdx fun i g => .partitionFound subnet g.1 i g.2

/-- What is told of a subnet that is extracted. -/
structure Story where
  /-- The subnet. -/
  subnet : String
  /-- Its discovery dump. -/
  file : String
  /-- What is told of the walks. -/
  walks : List Event
  /-- The names of the partitions, with the host names of their members. -/
  groups : List (String × List String)
  /-- The report at the end. -/
  report : SubnetReport

namespace Story

/-- The subnet, with its discovery dump. -/
def entry (s : Story) : String × String := (s.subnet, s.file)

/-- The events in order. -/
def events (s : Story) : List Event :=
  .subnetStarts s.subnet s.file :: s.walks ++ partitionEvents s.subnet s.groups ++
    [.subnetDone s.report]

/-- What is told agrees with the report and with the fabric of the subnet. -/
structure Fits (s : Story) (f : Fabric Float) : Prop where
  /-- The walks between all pairs of hosts are told of in order. -/
  walks : List.Forall₂ f.WalkTold (Fabric.hostPairs f.hosts) s.walks
  /-- The partitions of the fabric are told of in order. -/
  groups : s.groups = f.partitions.map f.named
  /-- They are those of the report. -/
  names : s.report.partitions = s.groups.map Prod.fst
  /-- Their members are the hosts, each of them once. -/
  members : (s.groups.flatMap Prod.snd).Perm (f.hosts.map (·.hostname))
  /-- As many complete walks are told of as are counted at the end. -/
  complete : (Event.subnetDone s.report).pathsComplete.value = s.walks.countP Event.ofComplete
  /-- All other walks are counted as walks that stopped short. -/
  missing : (Event.subnetDone s.report).pathsMissing.value =
    s.walks.countP (!Event.ofComplete ·)

end Story

/-- The host names that are found are those of the nodes. -/
theorem hostnames_eq {f : Fabric Float} {ids : List NodeId} {names : List String}
    (h : hostnames f ids = .ok names) : names = ids.map f.hostnameOf := by
  induction ids generalizing names with
  | nil =>
    cases h
    rfl
  | cons id rest ih =>
    unfold hostnames at h
    cases hn : f.node id with
    | error e =>
      rw [hn] at h
      cases h
    | ok n =>
      rw [hn] at h
      cases hrest : hostnames f rest with
      | error e =>
        rw [hrest] at h
        cases h
      | ok names' =>
        rw [hrest] at h
        cases h
        rw [List.map_cons, ← ih hrest, Fabric.hostnameOf, Fabric.node_eq_ok_iff.mp hn]
        rfl

/-- Each partition is told of, with the host names of its members. -/
theorem tells_tellPartitions (ho : c.observer = some Observer.recorder) (f : Fabric Float)
    (index : Nat) (partitions : List Partition) :
    Tells (fun _ es => es = (partitions.map f.named).mapIdx fun i g =>
        .partitionFound f.subnet g.1 (index + i) g.2)
      (tellPartitions c f index partitions) := by
  induction partitions generalizing index with
  | nil => exact .pure rfl
  | cons p rest ih =>
    unfold tellPartitions
    refine Tells.after_any (silent_showProgress c _) fun _ => .ofExcept_bind fun members hm => ?_
    refine (Tells.configNotify ho _).bind ?_
    rintro _ _ rfl
    refine (ih (index + 1)).mono ?_
    rintro _ _ rfl
    rw [List.map_cons, List.mapIdx_cons, List.singleton_append, Fabric.named, hostnames_eq hm]
    simp only [Nat.add_right_comm index 1, Nat.add_assoc, Nat.add_zero]

/-- The walks that a survey counts are told of. -/
theorem tells_addPaths (ho : c.observer = some Observer.recorder) {f : Fabric Float}
    (wired : f.Wired) (report : SubnetReport) :
    Tells (fun r es => Tallied ∅ r.2.counts es ∧
        List.Forall₂ f.WalkTold (Fabric.hostPairs f.hosts) es)
      (addPaths c f report) := by
  unfold addPaths
  refine (tells_survey wired ho).logging.bind fun s es h => .pure ?_
  rw [List.append_nil]
  exact h

/-- The partitions into which the fabric is divided are told of. -/
theorem tells_addPartitions (ho : c.observer = some Observer.recorder) (f : Fabric Float)
    (report : SubnetReport) :
    Tells (fun r es => ∃ partitions g log,
        Fabric.setPartitions f = ⟨.ok partitions, g, log⟩ ∧
        r = (g, { report with partitions := partitions.map (·.name) }) ∧
        es = partitionEvents g.subnet (partitions.map g.named))
      (addPartitions c f report) := by
  unfold addPartitions
  refine Tells.after (R := fun r => ∃ log, Fabric.setPartitions f = ⟨.ok r.1, r.2, log⟩)
    (fun es => (World.quiet_told es).keeps_apart f _)
    (World.ensures_apart fun partitions h => ⟨(Fabric.setPartitions f).log, ?_⟩) ?_
  · rw [← h]
  · rintro ⟨partitions, g⟩ ⟨log, hset⟩
    refine Tells.after_any (silent_showProgress c _) fun _ => ?_
    refine (tells_tellPartitions ho g 0 partitions).bind ?_
    rintro _ _ rfl
    refine .pure ⟨partitions, g, log, hset, rfl, ?_⟩
    simp only [List.append_nil, partitionEvents, Nat.zero_add]

/-- What is told of the walks and the partitions agrees with the fabric that comes about. -/
theorem Making.Leads.fits {k : Making} {subnet file : String} {f : Fabric Float}
    {report report' : SubnetReport} (h : k.Leads subnet f report) {walks : List Event}
    (htallied : Tallied ∅ report.counts walks)
    (hwalks : List.Forall₂ k.surveyed.WalkTold (Fabric.hostPairs k.surveyed.hosts) walks)
    (hcounts : report'.counts = report.counts)
    (hpartitions : report'.partitions = report.partitions) :
    Story.Fits ⟨subnet, file, walks, k.partitions.map k.divided.named, report'⟩ f := by
  obtain ⟨hgrouped, hkept, hbare, hroutes⟩ := h.division
  have hdivided : k.surveyed.Redecorates k.divided := ⟨hbare, hroutes⟩
  have hf : k.surveyed.Redecorates f := ⟨h.bare_eq, h.routes_eq⟩
  have hnamed : k.divided.named = f.named := by
    funext p
    rw [Fabric.named, Fabric.named, hdivided.hostnameOf_eq, hf.hostnameOf_eq]
  constructor
  case walks => exact hf.walksTold hwalks
  case groups =>
    have hpart : f.partitions = k.partitions := by
      rw [h.fabric]
      exact hkept
    dsimp only
    rw [hpart, hnamed]
  case names =>
    dsimp only
    rw [hpartitions, h.partitions, List.map_map]
    rfl
  case members =>
    have hflat : (k.partitions.map k.divided.named).flatMap Prod.snd =
        (k.partitions.flatMap (·.members)).map f.hostnameOf := by
      rw [hnamed, List.flatMap_map, List.map_flatMap]
      rfl
    dsimp only
    rw [hflat, hgrouped, ← h.wired.hostnameOf_hosts, hf.ids_eq]
    exact k.surveyed.members_grouped.map _
  case complete =>
    change report'.counts.complete = _
    rw [hcounts, htallied.complete]
    exact Int.zero_add _
  case missing =>
    change report'.counts.missing = _
    rw [hcounts, htallied.missing]
    exact Int.zero_add _

/-- Building the fabric of a subnet tells its story up to the end. The walks are told of the fabric
as it was surveyed and the partitions of the one that was divided, but what is told holds of the
finished fabric, which has other decorations. -/
theorem tells_buildSubnet [Memory] (ho : c.observer = some Observer.recorder)
    (hwlocDir : Option String) (subnet file : String) :
    Tells (fun r es => ∃ walks groups,
        es = .subnetStarts subnet file :: walks ++ partitionEvents subnet groups ∧
        ∀ report : SubnetReport, report.counts = r.2.counts → report.partitions = r.2.partitions →
          Story.Fits ⟨subnet, file, walks, groups, report⟩ r.1)
      (buildSubnet c hwlocDir subnet file) := by
  unfold buildSubnet
  refine Tells.after_any silent_now fun started => ?_
  refine Tells.after_any (silent_showProgress c _) fun _ => ?_
  refine (Tells.configNotify ho _).bind ?_
  rintro _ _ rfl
  refine Tells.after (silent_readDiscovery _ _) (ensures_readDiscovery subnet _) ?_
  rintro ⟨fileReport, b⟩ hb
  have hready : Ready subnet { b.fabric with hwlocDir } :=
    ⟨hb.subnet_eq, hb.divisible.equipped hwlocDir b.fabric.routes⟩
  refine Tells.after (silent_addRoutes c _ _) (ensures_addRoutes hready c _) ?_
  rintro ⟨f, report⟩ hf
  refine ((tells_addPaths ho hf.divisible.wired report).ensuring
    (ensures_addPaths f c report)).bind ?_
  rintro _ walks ⟨⟨htallied, hwalks⟩, s, hs, rfl⟩
  refine (tells_addPartitions ho _ _).bind ?_
  rintro _ _ ⟨partitions, g, log, hset, rfl, rfl⟩
  refine Tells.after (silent_addReverseEdges g) (ensures_addReverseEdges g) ?_
  rintro _ rfl
  have hk : Making.Leads ⟨f, s, partitions, g⟩ subnet g.pairEdges
      { report with counts := s.counts, partitions := partitions.map (·.name) } :=
    ⟨hf, hs, ⟨log, hset⟩, rfl, rfl, rfl⟩
  have hsubnet : g.subnet = subnet := hk.subnet_eq
  refine .pure ⟨walks, _, ?_, fun report' => hk.fits htallied hwalks⟩
  rw [hsubnet, List.append_nil]
  rfl

/-- Finishing a subnet tells that it is done. -/
theorem tells_finishSubnet (ho : c.observer = some Observer.recorder) (f : Fabric Float)
    (report : SubnetReport) :
    Tells (fun r es => es = [.subnetDone r] ∧ r.counts = report.counts ∧
        r.partitions = report.partitions)
      (finishSubnet c f report) := by
  have hexported : Action.Ensures
      (fun r : SubnetReport => r.counts = report.counts ∧ r.partitions = report.partitions)
      (export? c f report) := by
    unfold export?
    cases c.outputDir.chosen? with
    | none => exact .pure ⟨rfl, rfl⟩
    | some dir => exact .bind_last fun _ => .pure ⟨rfl, rfl⟩
  unfold finishSubnet completeReport
  refine Tells.after (silent_export? c f report) hexported fun report' hreport => ?_
  refine Tells.after_any silent_now fun completed => ?_
  refine (Tells.configNotify ho _).bind ?_
  rintro _ _ rfl
  exact .pure ⟨rfl, hreport⟩

/-- Extracting a subnet tells its story. -/
theorem tells_processSubnet [Memory] (ho : c.observer = some Observer.recorder)
    (hwlocDir : Option String) (subnet file : String) :
    Tells (fun r es => ∃ story : Story, story.entry = (subnet, file) ∧ story.report = r.2 ∧
        es = story.events ∧ story.Fits r.1)
      (processSubnet c hwlocDir subnet file) := by
  unfold processSubnet
  refine (tells_buildSubnet ho hwlocDir subnet file).bind ?_
  rintro ⟨f, report⟩ _ ⟨walks, groups, rfl, hfits⟩
  refine (tells_finishSubnet ho f report).bind ?_
  rintro report' _ ⟨rfl, hcounts, hpartitions⟩
  refine .pure ⟨⟨subnet, file, walks, groups, report'⟩, rfl, rfl, ?_,
    hfits report' hcounts hpartitions⟩
  rw [List.append_nil]
  rfl

end Extract

end FabricPaths
