import FabricPaths.Proofs.Builder.Pairing
import FabricPaths.Proofs.Partition.Divide

/-!
# Finished fabrics carry exact marks

A fabric that a builder left with its links paired is surveyed and then divided
into partitions. Whatever forwarding tables it has, and whatever marks and
partitions it carried before, its division on the paths of the survey succeeds
and leaves exact marks.
-/

namespace FabricPaths

variable {β : Type}

namespace Builder

/-- No node of the fabric was put into a partition. -/
def Unassigned (b : Builder β) : Prop :=
  ∀ ⦃id n⦄, b.fabric.nodes.get? id = some n → n.mainPartition = noPartition

namespace Unassigned

variable {b : Builder β}

/-- A node that is mentioned is put into no partition. -/
theorem withNode (h : b.Unassigned) (type : NodeType) (lid : Int) (guid description : String) :
    (b.withNode type lid guid description).Unassigned := by
  unfold Builder.withNode
  cases hg : b.fabric.nodes.get? (.ofGuid guid) with
  | some n => exact h
  | none =>
    intro id n hn
    dsimp only at hn
    rw [OrderedMap.get?_insert] at hn
    by_cases hid : id = .ofGuid guid
    · rw [if_pos hid] at hn
      rw [← Option.some.inj hn]
      rfl
    · rw [if_neg hid] at hn
      exact h hn

/-- The nodes of a record are put into no partition. -/
theorem withEnds (h : b.Unassigned) (r : LinkRecord) : (b.withEnds r).Unassigned :=
  (h.withNode _ _ _ _).withNode _ _ _ _

/-- Pairing the links puts no node into a partition. -/
theorem finish (h : b.Unassigned) : (Builder.finish b).state.Unassigned := by
  obtain ⟨ls, k, hstate⟩ := finish_state_pairing b
  have hnodes : (b.fabric.pairing ls b.fabric).nodes = b.fabric.nodes :=
    b.fabric.pairing_frame (fun _ _ _ => rfl) ls b.fabric
  intro id n hn
  rw [hstate] at hn
  dsimp only at hn
  rw [hnodes] at hn
  exact h hn

variable [Bandwidth β]

/-- Plugging a link puts no node into a partition. -/
theorem plug (h : b.Unassigned) {n : Node β} {l : Link β}
    (hn : b.fabric.nodes.get? l.parent = some n) :
    ({ b.numbered with fabric := b.fabric.plug n l } : Builder β).Unassigned := by
  intro id n' hn'
  dsimp only at hn'
  rw [Fabric.plug_nodes, OrderedMap.get?_insert] at hn'
  by_cases hid : id = l.parent
  · rw [if_pos hid] at hn'
    cases hn'
    exact (b.fabric.vacated_frame n l).2.2.2.trans (h hn)
  · rw [if_neg hid] at hn'
    exact h hn'

/-- Adding a link puts no node into a partition. -/
theorem addLink [Memory] (h : b.Unassigned) (r : LinkRecord) :
    (Builder.addLink r b).state.Unassigned := by
  have hadding := addLink_adding r b
  generalize Builder.addLink r b = run at hadding
  cases hadding with
  | refused port => exact h
  | unmeasured port gbits => exact h.withEnds r
  | crowded port measured source room => exact h.withEnds r
  | plugged port measured source room => exact (h.withEnds r).plug source

end Unassigned

section Building

variable [Memory] [Bandwidth β]

/-- No history puts a node into a partition. -/
theorem unassigned_after (subnet : String) (calls : List Call) :
    (after subnet calls : Builder β).Unassigned :=
  after_induction (fun _ _ hn => nomatch hn) (fun r _ h => h.addLink r) (fun _ _ h => h)
    (fun _ h => h.finish) calls

/-- The fabric that a builder left with its links paired, with some forwarding
tables and with what it carried before in the way of partitions and marks. -/
def finished (subnet : String) (calls : List Call) (routes : RoutingTables)
    (partition : NodeId → Int) (m : Marking) : Fabric β :=
  (((after subnet (calls ++ [.finish])).fabric.withRoutes routes).reassigned partition).marked m

variable {subnet : String} {calls : List Call}

/-- A finished fabric is ready to be divided into partitions, if its links could be paired. -/
theorem divisible_finished (h : (after subnet calls : Builder β).Finishes) (routes : RoutingTables)
    (partition : NodeId → Int) (m : Marking) :
    (finished subnet calls routes partition m : Fabric β).Divisible := by
  have w : (after subnet calls : Builder β).fabric.Wired := (sound_after subnet calls).wired
  have hunassigned : (after subnet calls : Builder β).Unassigned := unassigned_after subnet calls
  have hfabric : (after subnet (calls ++ [.finish]) : Builder β).fabric =
      (after subnet calls).fabric.pairLinks := by
    rw [after_concat]
    exact congrArg Builder.fabric h.finish_state
  unfold finished
  rw [hfabric]
  exact w.divisible_pairLinks hunassigned routes partition m

/-- After any calls on a builder that end with a pairing, if the pairing does not break off, and
whatever tables, marks and partitions the fabric was given, the marking of partitions succeeds
after a survey that returns. It leaves the fabric with the paths of the survey and with exact
marks, and changes nothing else but the partitions of its hosts. -/
theorem marks_exact_after_survey {σ : Type} (h : (after subnet calls : Builder β).Finishes)
    (routes : RoutingTables) (partition : NodeId → Int) (m : Marking)
    (observe : Option (Attempt → Action σ Unit)) (s : σ) {survey : Survey}
    (hsurvey : ((finished subnet calls routes partition m : Fabric β).survey observe s).outcome =
      .ok survey) :
    ∃ partitions f log,
      Fabric.setPartitions ((finished subnet calls routes partition m).withPaths survey.paths) =
        ⟨.ok partitions, f, log⟩ ∧
      f.MarksExact ∧ f.paths = survey.paths ∧
      f.bare = (finished subnet calls routes partition m).bare ∧
      (f.links.mapValues fun _ l => l.withMarks ∅) =
        (finished subnet calls routes partition m : Fabric β).links.mapValues
          fun _ l => l.withMarks ∅ := by
  have hdivisible : (finished subnet calls routes partition m : Fabric β).Divisible :=
    divisible_finished h routes partition m
  generalize (finished subnet calls routes partition m : Fabric β) = g at hdivisible hsurvey ⊢
  have hwithin : survey.paths.Within g :=
    hdivisible.wired.ensures_survey_within observe s survey hsurvey
  have hmarkable := hdivisible.markable_withPaths hwithin
  obtain ⟨log, hrun⟩ := hdivisible.setPartitions_eq hwithin
  refine ⟨_, _, log, hrun, hmarkable.exact, rfl, ?_, ?_⟩
  · exact (Fabric.bare_marked _ _).trans (Fabric.bare_partitioned _)
  · exact Fabric.links_unmarked _ _

end Building

/-- The switch sends the traffic for the second host out of its second port. -/
def sampleCableRoutes : RoutingTables :=
  .ofList [(.ofGuid "9", { switch := .ofGuid "9"
                           entries := .ofList [(.ofGuid "2",
                             { dest := .ofGuid "2", port := 2 })] })]

/-- Everything is marked for the fifth partition. -/
def staleMarking : Marking :=
  ⟨fun _ => .singleton 5, fun _ _ => .singleton 5, fun _ => .singleton 5⟩

/-- The cables carry exact marks after a survey that finds one path, whatever they carried
before. -/
theorem sampleCables_marked : (after "s" (sampleCables 7) : Builder Float).Finishes ∧
    ∃ survey partitions f log,
      ((finished "s" (sampleCables 7) sampleCableRoutes (fun _ => 5) staleMarking :
        Fabric Float).survey (σ := Unit) none ()).outcome = .ok survey ∧
      survey.counts.complete = 1 ∧
      Fabric.setPartitions ((finished "s" (sampleCables 7) sampleCableRoutes (fun _ => 5)
        staleMarking : Fabric Float).withPaths survey.paths) = ⟨.ok partitions, f, log⟩ ∧
      f.MarksExact := by
  have hfinishes := sampleCables_finishes
  have hcounts : ((finished "s" (sampleCables 7) sampleCableRoutes (fun _ => 5) staleMarking :
      Fabric Float).survey (σ := Unit) none ()).outcome.map (·.counts.complete) = .ok 1 := by
    decide +kernel
  obtain ⟨survey, hsurvey, hcomplete⟩ := exists_of_map_eq_ok hcounts
  obtain ⟨partitions, f, log, hrun, hexact, -⟩ := marks_exact_after_survey hfinishes
    sampleCableRoutes (fun _ => 5) staleMarking none () hsurvey
  exact ⟨hfinishes, survey, partitions, f, log, hsurvey, hcomplete, hrun, hexact⟩

end Builder

end FabricPaths
