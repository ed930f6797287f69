import FabricPaths.Proofs.Builder.Partitions
import FabricPaths.Proofs.Export.Document
import FabricPaths.Proofs.Extract.Narration
import FabricPaths.Proofs.Path.Telling

/-!
# Look-ups in a finished fabric succeed

A fabric names nodes, links and slots in many places, and each name is looked up when the
fabric is surveyed, divided into partitions and exported. Once a builder has paired its
links, all of these look-ups succeed, whatever forwarding tables the fabric was given.
-/

namespace FabricPaths

variable {β σ : Type}

namespace Fabric

/-- No walk of the fabric meets a name that it cannot look up. -/
structure Walkable (f : Fabric β) : Prop where
  /-- A node that has an edge has a first link. -/
  first_link : ∀ id n, f.nodes.get? id = some n → n.edges.entries ≠ [] →
    ∃ l, f.firstLink? n = .ok (some l)
  /-- A walk from a node is reported or comes to a number that is too long to be written. -/
  trace : ∀ id src dst, f.nodes.get? id = some src →
    (∃ a, f.trace src dst = .ok a) ∨ f.trace src dst = .error .numberTooLong
  /-- Each link of a walk that is reported ends at a known node. -/
  links_known : ∀ id src dst a, f.nodes.get? id = some src → f.trace src dst = .ok a →
    ∀ k ∈ a.links, ∃ l n, f.links.get? k = some l ∧ f.nodes.get? l.dest = some n
  /-- A walk of a survey leaves its source, and comes to a dead port only where a table has
  a port without a link. -/
  leaves : ∀ a, f.Surveyed a → ∃ src first, f.nodes.get? a.source = some src ∧
    f.firstLink? src = .ok (some first) ∧ f.WellWalked first a
  /-- Each walk of a survey has an event, with a hop for each of its links. -/
  event : ∀ a, f.Surveyed a → ∃ e, Event.walked f a = .ok e ∧ e.hops.length = a.links.length

/-- Each link in a slot that an edge lists is found. -/
def ListsLinks (f : Fabric β) : Prop :=
  ∀ id n, f.nodes.get? id = some n → ∀ d e, n.edges.get? d = some e →
    ∃ links, n.listedLinks e.linkPorts = .ok links ∧ links.length = e.linkPorts.length

variable {f : Fabric β}

namespace Wired

/-- Each link of a walk in a wired fabric ends at a known node. -/
theorem trace_known (w : f.Wired) {id : NodeId} {src dst : Node β}
    (hsrc : f.nodes.get? id = some src) {a : Attempt} (ha : f.trace src dst = .ok a) :
    ∀ k ∈ a.links, ∃ l n, f.links.get? k = some l ∧ f.nodes.get? l.dest = some n := by
  rcases w.firstLink?_cases hsrc with hnone | ⟨first, hfirst, hlink, -⟩
  · obtain ⟨detail, -, rfl⟩ := (trace_eq_ok_iff hnone dst a).mp ha
    exact nofun
  · obtain ⟨detail, -, rfl⟩ := (trace_eq_ok_iff hfirst dst a).mp ha
    exact w.follow_links_known dst [src.id] hlink

/-- The walks of a wired fabric can be made and told of. -/
theorem walkable (w : f.Wired) : f.Walkable where
  first_link := by
    intro id n hn hedges
    obtain ⟨p, hp⟩ := w.exists_firstPosition hn hedges
    obtain ⟨l, hfirst, -⟩ := w.firstLink?_of_position hn hp
    exact ⟨l, hfirst⟩
  trace := by
    intro id src dst hsrc
    have hid : src.id = id := (w.node_fit hsrc).id_eq
    rw [← hid] at hsrc
    exact (w.trace_cases hsrc dst).imp And.right And.right
  links_known := fun _ _ _ _ hsrc ha => w.trace_known hsrc ha
  leaves := by
    intro a ha
    obtain ⟨src, -, first, hsrc, -, hfirst, hwell⟩ := w.surveyed_wellWalked ha
    exact ⟨src, first, hsrc, hfirst, hwell⟩
  event := by
    intro a ha
    obtain ⟨src, dst, first, hsrc, hdst, -, hwell⟩ := w.surveyed_wellWalked ha
    refine Event.walked_ok w hsrc hdst fun k hk => ?_
    obtain ⟨l, -, hl, -⟩ := hwell.link_known k hk
    exact ⟨l, hl⟩

/-- The edges of a wired fabric list links. -/
theorem listsLinks (w : f.Wired) : f.ListsLinks :=
  fun _ _ hn _ _ he => w.listedLinks_ok hn he

end Wired

end Fabric

namespace Builder

section Building

variable [Memory] [Bandwidth β] {subnet : String} {calls : List Call}

/-- The fabric that a builder left with its links paired, with some forwarding tables. -/
def routed (subnet : String) (calls : List Call) (routes : RoutingTables) : Fabric β :=
  (after subnet (calls ++ [.finish])).fabric.withRoutes routes

/-- Once its links are paired, a fabric is ready to be divided into partitions. -/
theorem divisible_routed (h : (after subnet calls : Builder β).Finishes) (routes : RoutingTables) :
    (routed subnet calls routes : Fabric β).Divisible where
  wired := (sound_after subnet (calls ++ [.finish])).wired.of_bare_eq rfl
  paired := by
    have w : (after subnet calls : Builder β).fabric.Wired := (sound_after subnet calls).wired
    have hfabric : (routed subnet calls routes : Fabric β).links =
        (after subnet calls : Builder β).fabric.pairLinks.links := by
      rw [routed, after_concat]
      exact congrArg (fun b : Builder β => b.fabric.links) h.finish_state
    rw [hfabric]
    intro k l other hl hother
    obtain ⟨o, ho, hback, -, -⟩ := w.otherLink_symm hl hother
    exact ⟨o, ho, hback⟩
  switch_main := by
    have hunassigned : (after subnet (calls ++ [.finish]) : Builder β).Unassigned :=
      unassigned_after subnet (calls ++ [.finish])
    exact fun _ _ hn _ => hunassigned hn

/-- After any calls on a builder that end with a pairing, and with any forwarding tables, no
look-up fails. The walks of a survey can be made and told of, and the survey stops for no other
reason than a number that is too long to be written or its onlooker's want of words. Where neither
the pairing nor the survey stops, the marking of partitions on the paths of the survey succeeds,
and with its edges paired the fabric has a document, in which each edge has all the links that it
lists. -/
theorem lookups_succeed (subnet : String) (calls : List Call) (routes : RoutingTables)
    (observe : Option (Attempt → Action σ Unit)) (s : σ) :
    (routed subnet calls routes : Fabric β).Walkable ∧
      (∀ e, ((routed subnet calls routes : Fabric β).survey observe s).outcome = .error e →
        e = .numberTooLong ∨ Fabric.Stammers observe e) ∧
      ((after subnet calls : Builder β).Finishes → ∀ survey,
        ((routed subnet calls routes : Fabric β).survey observe s).outcome = .ok survey →
        ∃ partitions g log document,
          Fabric.setPartitions ((routed subnet calls routes : Fabric β).withPaths survey.paths) =
            ⟨.ok partitions, g, log⟩ ∧
          g.pairEdges.document = .ok document ∧ g.pairEdges.ListsLinks) := by
  have w : (routed subnet calls routes : Fabric β).Wired :=
    (sound_after subnet (calls ++ [.finish])).wired.of_bare_eq rfl
  refine ⟨w.walkable, fun e he => ?_, fun h survey hsurvey => ?_⟩
  · have hrisks := Fabric.risks_survey (f := routed subnet calls routes)
      (P := fun e => e = .numberTooLong ∨ Fabric.Stammers observe e)
      (fun _ hstammers => .inr hstammers) (fun _ hnot => .inl (w.eq_numberTooLong hnot))
    exact hrisks s e he
  · have hdivisible := divisible_routed h routes
    generalize (routed subnet calls routes : Fabric β) = f at hdivisible w hsurvey ⊢
    obtain ⟨partitions, g, log, hrun, hbare⟩ :=
      hdivisible.divided (w.ensures_survey_within observe s survey hsurvey)
    have wpaired : g.pairEdges.Wired := w.of_bare_eq (g.bare_pairEdges.trans hbare)
    obtain ⟨document, hdocument⟩ := wpaired.document_ok
    exact ⟨partitions, g, log, document, hrun, hdocument, wpaired.listsLinks⟩

end Building

/-- The cables are surveyed, divided and written, with one path between the hosts. -/
theorem sampleCables_written : ∃ survey partitions g log document,
    ((routed "s" (sampleCables 7) sampleCableRoutes : Fabric Float).survey
      (σ := Unit) none ()).outcome = .ok survey ∧ survey.counts.complete = 1 ∧
    Fabric.setPartitions ((routed "s" (sampleCables 7) sampleCableRoutes : Fabric Float).withPaths
      survey.paths) = ⟨.ok partitions, g, log⟩ ∧
    g.pairEdges.document = .ok document := by
  have hcounts : ((routed "s" (sampleCables 7) sampleCableRoutes : Fabric Float).survey
      (σ := Unit) none ()).outcome.map (·.counts.complete) = .ok 1 := by decide +kernel
  obtain ⟨survey, hsurvey, hcomplete⟩ := exists_of_map_eq_ok hcounts
  obtain ⟨partitions, g, log, document, hrun, hdocument, -⟩ := (lookups_succeed "s"
    (sampleCables 7) sampleCableRoutes none ()).2.2 sampleCables_finishes survey hsurvey
  exact ⟨survey, partitions, g, log, document, hsurvey, hcomplete, hrun, hdocument⟩

end Builder

end FabricPaths
