import FabricPaths.Extract.Run
import FabricPaths.Proofs.Builder.Frame
import FabricPaths.Proofs.Builder.Lookups
import FabricPaths.Proofs.Builder.Pairing
import FabricPaths.Proofs.Path.Observers
import FabricPaths.Proofs.World.Frame

/-!
# How the fabric of a subnet comes about

The fabric of a subnet goes through the hands of a builder, is given its forwarding tables,
is surveyed and divided into partitions, and has its edges paired. Each of these steps leaves
it in a state in which the next one succeeds, and in which it can be exported at the end.
-/

namespace FabricPaths

/-- The number of links without a way back. -/
def Fabric.unreturned {β : Type} (f : Fabric β) : Nat :=
  f.links.values.countP fun l => l.otherLink.isNone

/-- Marks make no difference to the number of links without a way back. -/
theorem Fabric.unreturned_marked {β : Type} (f : Fabric β) (m : Marking) :
    (f.marked m).unreturned = f.unreturned := by
  have hlinks := congrArg (fun links => links.values.countP fun l => l.otherLink.isNone)
    (f.links_unmarked m)
  simp only [OrderedMap.values_mapValues, List.countP_map] at hlinks
  exact hlinks

namespace Extract

open FabricPaths.Action (Ensures)

/-- The fabric is the subnet's and is ready to be divided. -/
structure Ready (subnet : String) (f : Fabric Float) : Prop where
  /-- It is the subnet's. -/
  subnet_eq : f.subnet = subnet
  /-- It is ready to be divided. -/
  divisible : f.Divisible

section Running

variable [Memory]

/-- A discovery dump is read into what a builder leaves that took in its lines and could pair the
links. -/
theorem ensures_builder (subnet path : String) :
    Ensures (fun r => ∃ lines,
        (Builder.after subnet [.ingestLines path lines] : Builder Float).Finishes ∧
        r.2 = Builder.after subnet ([.ingestLines path lines] ++ [.finish]))
      (readDiscovery subnet path) := by
  unfold readDiscovery
  refine Ensures.bind_last fun _ => Ensures.bind_last fun lines => ?_
  refine Ensures.bind (Q := fun r => r.2 = (Builder.ingestLines path lines (.start subnet)).state)
    (World.ensures_apart fun _ _ => rfl) ?_
  rintro ⟨report, b⟩ hb
  refine Ensures.bind (Q := fun r => b.Finishes ∧ r.2 = (Builder.finish b).state)
    (World.ensures_apart fun _ h => ⟨h, rfl⟩) ?_
  rintro ⟨_, b'⟩ ⟨hfinishes, hb'⟩
  dsimp only at hb hb'
  subst hb
  exact Ensures.pure ⟨lines, hfinishes, hb'⟩

/-- What a discovery dump is read into can be divided. -/
theorem ensures_readDiscovery (subnet path : String) :
    Ensures (fun r => Ready subnet r.2.fabric) (readDiscovery subnet path) := by
  refine (ensures_builder subnet path).mono ?_
  rintro ⟨report, _⟩ ⟨lines, hfinishes, rfl⟩
  have hrest : (Builder.after subnet ([.ingestLines path lines] ++ [.finish])).fabric.rest =
      ({ subnet } : Fabric Float) := Builder.rest_after subnet _
  exact ⟨congrArg Fabric.subnet hrest, Builder.divisible_routed hfinishes _⟩

/-- The links without a way back are counted when a discovery dump is read. -/
theorem ensures_unreturned (subnet path : String) :
    Ensures (fun r => r.2.unresolved = r.2.fabric.unreturned) (readDiscovery subnet path) := by
  refine (ensures_builder subnet path).mono ?_
  rintro ⟨report, _⟩ ⟨lines, hfinishes, rfl⟩
  rw [Builder.after_concat]
  change (Builder.finish _).state.unresolved = (Builder.finish _).state.fabric.unreturned
  rw [hfinishes.unresolved_eq (Builder.sound_after subnet _).wired, hfinishes.finish_state]
  rfl

end Running

/-- With the tables of its route dumps, the fabric can be divided. -/
theorem ensures_addRoutes {subnet : String} {f : Fabric Float} (hf : Ready subnet f) (c : Config)
    (report : SubnetReport) :
    Ensures (fun r => Ready subnet r.1) (addRoutes c f report) := by
  unfold addRoutes
  refine Ensures.bind_last fun found => ?_
  cases found with
  | none => exact Ensures.bind_last fun _ => .pure hf
  | some loader => exact .pure ⟨hf.subnet_eq, hf.divisible.equipped f.hwlocDir loader.tables⟩

/-- Route dumps make no difference to the links, nor to how many were found to have no way
back. -/
theorem ensures_links_addRoutes (f : Fabric Float) (c : Config) (report : SubnetReport) :
    Ensures (fun r => r.1.links = f.links ∧ r.2.unresolved = report.unresolved)
      (addRoutes c f report) := by
  unfold addRoutes
  refine Ensures.bind_last fun found => ?_
  cases found with
  | none => exact Ensures.bind_last fun _ => .pure ⟨rfl, rfl⟩
  | some loader => exact .pure ⟨rfl, rfl⟩

/-- A survey gives the fabric its paths, and the report its counts. -/
theorem ensures_addPaths (f : Fabric Float) (c : Config) (report : SubnetReport) :
    Ensures (fun r => ∃ s, (f.survey (σ := Unit) none ()).outcome = .ok s ∧
      r = (f.withPaths s.paths, { report with counts := s.counts })) (addPaths c f report) := by
  unfold addPaths
  refine Ensures.bind (Q := fun s => (f.survey (σ := Unit) none ()).outcome = .ok s) ?_ ?_
  · exact fun w s hs => Fabric.survey_untold hs ()
  · intro s hs
    exact .pure ⟨s, hs, rfl⟩

/-- The fabric is divided into partitions, and the report has their names. -/
theorem ensures_addPartitions (f : Fabric Float) (c : Config) (report : SubnetReport) :
    Ensures (fun r => ∃ partitions g log, Fabric.setPartitions f = ⟨.ok partitions, g, log⟩ ∧
      r = (g, { report with partitions := partitions.map (·.name) }))
      (addPartitions c f report) := by
  unfold addPartitions
  refine Ensures.bind (Q := fun r => ∃ log, Fabric.setPartitions f = ⟨.ok r.1, r.2, log⟩)
    (World.ensures_apart fun partitions h => ⟨(Fabric.setPartitions f).log, ?_⟩) ?_
  · rw [← h]
  · rintro ⟨partitions, g⟩ ⟨log, hset⟩
    refine Ensures.bind_last fun _ => Ensures.bind_last fun _ => ?_
    exact .pure ⟨partitions, g, log, hset, rfl⟩

/-- Pairing the edges is all that is done at the end. -/
theorem ensures_addReverseEdges (f : Fabric Float) :
    Ensures (fun g => g = f.pairEdges) (addReverseEdges f) := by
  unfold addReverseEdges
  dsimp only
  split
  · exact Ensures.bind_last fun _ => .pure rfl
  · exact .pure rfl

/-- What came in between, when the fabric of a subnet was built. -/
structure Making where
  /-- The fabric that was surveyed. -/
  surveyed : Fabric Float
  /-- The survey. -/
  survey : Survey
  /-- The partitions. -/
  partitions : List Partition
  /-- The fabric that was divided into them. -/
  divided : Fabric Float

namespace Making

/-- The fabric of a subnet and the report on it came about in this way. -/
structure Leads (k : Making) (subnet : String) (f : Fabric Float) (report : SubnetReport) :
    Prop where
  /-- The fabric could be surveyed and divided. -/
  ready : Ready subnet k.surveyed
  /-- It was surveyed. -/
  survey : (k.surveyed.survey (σ := Unit) none ()).outcome = .ok k.survey
  /-- It was divided on the paths of the survey. -/
  divided : ∃ log, Fabric.setPartitions (k.surveyed.withPaths k.survey.paths) =
    ⟨.ok k.partitions, k.divided, log⟩
  /-- Its edges were paired at the end. -/
  fabric : f = k.divided.pairEdges
  /-- The report has the counts of the survey. -/
  counts : report.counts = k.survey.counts
  /-- The report has the names of the partitions. -/
  partitions : report.partitions = k.partitions.map (·.name)

variable {k : Making} {subnet : String} {f : Fabric Float} {report : SubnetReport}

/-- The hosts were grouped, and the fabric with its paths was divided into these groups and
marked. -/
theorem Leads.divided_eq (h : k.Leads subnet f report) : k.partitions = k.surveyed.grouped.2 ∧
    k.divided = (k.surveyed.withPaths k.survey.paths).partitioned.marked
      (k.surveyed.withPaths k.survey.paths).partitioned.spreadMarking := by
  have hwithin := h.ready.divisible.wired.ensures_survey_within (σ := Unit) none () _ h.survey
  obtain ⟨log, hrun⟩ := h.ready.divisible.setPartitions_eq hwithin
  obtain ⟨log', hdivided⟩ := h.divided
  have hsame := hrun.symm.trans hdivided
  injection hsame with hpartitions hfabric
  injection hpartitions with hpartitions
  exact ⟨hpartitions.symm, hfabric.symm⟩

/-- The hosts were grouped, and the fabric that was divided into these groups is bare as it was
surveyed and has its forwarding tables. -/
theorem Leads.division (h : k.Leads subnet f report) : k.partitions = k.surveyed.grouped.2 ∧
    k.divided.partitions = k.partitions ∧ k.divided.bare = k.surveyed.bare ∧
    k.divided.routes = k.surveyed.routes := by
  obtain ⟨hpartitions, hdivided⟩ := h.divided_eq
  rw [hdivided, hpartitions]
  exact ⟨rfl, rfl, (Fabric.bare_marked _ _).trans (Fabric.bare_partitioned _), rfl⟩

/-- The fabric is bare as it was surveyed. -/
theorem Leads.bare_eq (h : k.Leads subnet f report) : f.bare = k.surveyed.bare := by
  rw [h.fabric]
  exact k.divided.bare_pairEdges.trans h.division.2.2.1

/-- The fabric has the forwarding tables with which it was surveyed. -/
theorem Leads.routes_eq (h : k.Leads subnet f report) : f.routes = k.surveyed.routes := by
  rw [h.fabric]
  exact h.division.2.2.2

/-- The fabric has the paths of the survey. -/
theorem Leads.paths_eq (h : k.Leads subnet f report) : f.paths = k.survey.paths := by
  rw [h.fabric, h.divided_eq.2]
  rfl

/-- The fabric has as many links without a way back as when it was surveyed. -/
theorem Leads.unreturned_eq (h : k.Leads subnet f report) :
    f.unreturned = k.surveyed.unreturned := by
  rw [h.fabric, h.divided_eq.2]
  exact Fabric.unreturned_marked _ _

/-- The fabric is wired. -/
theorem Leads.wired (h : k.Leads subnet f report) : f.Wired :=
  h.ready.divisible.wired.of_bare_eq h.bare_eq

/-- The fabric is the subnet's. -/
theorem Leads.subnet_eq (h : k.Leads subnet f report) : f.subnet = subnet := by
  have hsubnet : f.bare.subnet = k.surveyed.bare.subnet := by rw [h.bare_eq]
  exact hsubnet.trans h.ready.subnet_eq

end Making

/-- The fabric of a subnet comes about in this way, and the report on it has the number of links
that were found to have no way back. -/
theorem ensures_buildSubnet [Memory] (c : Config) (hwlocDir : Option String)
    (subnet file : String) :
    Ensures (fun r => ∃ k : Making, k.Leads subnet r.1 r.2 ∧
        r.2.unresolved = (k.surveyed.unreturned : Int))
      (buildSubnet c hwlocDir subnet file) := by
  unfold buildSubnet
  refine Ensures.bind_last fun started => Ensures.bind_last fun _ => Ensures.bind_last fun _ => ?_
  refine ((ensures_readDiscovery subnet _).and (ensures_unreturned subnet _)).bind ?_
  rintro ⟨fileReport, b⟩ ⟨hb, hunreturned⟩
  have hready : Ready subnet { b.fabric with hwlocDir } :=
    ⟨hb.subnet_eq, hb.divisible.equipped hwlocDir b.fabric.routes⟩
  refine ((ensures_addRoutes hready c _).and (ensures_links_addRoutes _ c _)).bind ?_
  rintro ⟨f, report⟩ ⟨hf, hlinks, hunresolved⟩
  dsimp only at hunreturned hlinks hunresolved
  have hcounted : report.unresolved = (f.unreturned : Int) := by
    rw [hunresolved, hunreturned, Fabric.unreturned, Fabric.unreturned, hlinks]
  refine (ensures_addPaths f c report).bind ?_
  rintro _ ⟨s, hs, rfl⟩
  refine (ensures_addPartitions _ c _).bind ?_
  rintro _ ⟨partitions, g, log, hset, rfl⟩
  refine (ensures_addReverseEdges g).bind ?_
  rintro _ rfl
  exact .pure ⟨⟨f, s, partitions, g⟩, ⟨hf, hs, ⟨log, hset⟩, rfl, rfl, rfl⟩, hcounted⟩

end Extract

end FabricPaths
