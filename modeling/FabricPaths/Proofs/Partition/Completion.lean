import FabricPaths.Proofs.Fabric.Reversal
import FabricPaths.Proofs.Partition.Divide
import FabricPaths.Proofs.Partition.Members
import FabricPaths.Proofs.Path.Recorded
import FabricPaths.Proofs.Path.Undecorated

/-!
# Completed fabrics

A fabric whose links are paired is completed in three steps: it is surveyed, divided into
partitions on the paths of the survey, and has its edges paired. These steps succeed, and what
they put on the fabric refers only to what the fabric holds: paths are chains of its links
between its hosts, marks are numbers of its partitions, an edge is paired with one of its edges.
-/

namespace FabricPaths.Fabric

variable {β σ : Type}

/-- The fabric with the paths of a survey, of whose walks an observer is told, divided into
partitions on these paths, and with its edges paired. -/
def completed (f : Fabric β) (observe : Option (Attempt → Action σ Unit)) (s : σ) :
    Except Failure (Fabric β) := do
  let survey ← (f.survey observe s).outcome
  let division := setPartitions (f.withPaths survey.paths)
  let _ ← division.outcome
  return division.state.pairEdges

/-- The number is that of a partition. -/
def HasPartition (f : Fabric β) (p : Int) : Prop := ∃ i : Nat, p = i ∧ i < f.partitions.length

/-- All marks are numbers of partitions. -/
structure Numbered (f : Fabric β) : Prop where
  /-- Those of a node are. -/
  node : ∀ ⦃id n⦄, f.nodes.get? id = some n → ∀ p ∈ n.marks, f.HasPartition p
  /-- Those of an edge are. -/
  edge : ∀ ⦃id n⦄, f.nodes.get? id = some n → ∀ ⦃d e⦄, n.edges.get? d = some e →
    ∀ p ∈ e.marks, f.HasPartition p
  /-- Those of a link are. -/
  link : ∀ ⦃k l⦄, f.links.get? k = some l → ∀ p ∈ l.marks, f.HasPartition p

/-- Hosts have the numbers of the partitions whose members they are. -/
def MainListed (f : Fabric β) : Prop :=
  ∀ ⦃id n⦄, f.nodes.get? id = some n → n.isHost = true →
    ∃ i : Nat, n.mainPartition = i ∧ Grouping.Lists f.partitions i id

/-- The path is a chain of links between two hosts. -/
def LeadsBetween (f : Fabric β) (source dest : NodeId) (path : Path) : Prop :=
  f.IsHost source ∧ f.IsHost dest ∧ Chain f.Joins source path dest

/-- A wired fabric that refers only to what it holds. -/
structure Complete (f : Fabric β) : Prop where
  /-- The fabric is wired. -/
  wired : f.Wired
  /-- The link that comes back is indexed. -/
  other_indexed : ∀ ⦃k l other⦄, f.links.get? k = some l → l.otherLink = some other →
    ∃ o, f.links.get? other = some o
  /-- The edge the other way is an edge between the same nodes. -/
  reverse_known : ∀ ⦃id n⦄, f.nodes.get? id = some n → ∀ ⦃d e⦄, n.edges.get? d = some e →
    ∀ ⦃key⦄, e.reverse = some key → key = (d, id) ∧ ∃ r, f.edge? key = some r
  /-- The paths are chains of links between hosts. -/
  paths_lead : f.paths.All f.LeadsBetween
  /-- The members of the partitions are the hosts, each once. -/
  members : (f.partitions.flatMap (·.members)).Perm (f.hosts.map (·.id))
  /-- A host has the number of the partition whose member it is. -/
  main_listed : f.MainListed
  /-- Marks are numbers of partitions. -/
  numbered : f.Numbered

variable {f g : Fabric β}

/-! ## Fabrics that are bare alike -/

/-- Links lead from where to where they lead in a fabric that is bare alike. -/
theorem joins_of_bare_eq (h : g.bare = f.bare) {k : LinkId} {source dest : NodeId}
    (hk : f.Joins k source dest) : g.Joins k source dest := by
  obtain ⟨l, hl, rfl, rfl⟩ := hk
  obtain ⟨l', hl', hbare⟩ := link_of_bare_eq h.symm hl
  obtain ⟨-, -, -, hparent, hdest⟩ := Link.of_bare_eq hbare
  exact ⟨l', hl', hparent, hdest⟩

/-- A host is one in a fabric that is bare alike. -/
theorem isHost_of_bare_eq (h : g.bare = f.bare) {id : NodeId} (hid : f.IsHost id) :
    g.IsHost id := by
  obtain ⟨n, hn, hhost⟩ := hid
  obtain ⟨n', hn', hbare⟩ := node_of_bare_eq h.symm hn
  have htype : n'.isHost = n.isHost := (congrArg Node.isHost hbare : n'.bare.isHost = _)
  exact ⟨n', hn', htype.trans hhost⟩

/-- A chain of links between hosts is one in a fabric that is bare alike. -/
theorem leadsBetween_of_bare_eq (h : g.bare = f.bare) {source dest : NodeId} {path : Path}
    (hpath : f.LeadsBetween source dest path) : g.LeadsBetween source dest path :=
  ⟨isHost_of_bare_eq h hpath.1, isHost_of_bare_eq h hpath.2.1,
    hpath.2.2.imp fun _ _ _ => joins_of_bare_eq h⟩

/-! ## Pairing edges -/

/-- Pairing edges changes no marks. -/
theorem Numbered.pairEdges (h : f.Numbered) : f.pairEdges.Numbered where
  node := by
    intro id n hn
    obtain ⟨n₀, hn₀, rfl⟩ := node_pairEdges hn
    have hmarks := h.node hn₀
    exact hmarks
  edge := by
    intro id n hn d e he
    obtain ⟨n₀, hn₀, rfl⟩ := node_pairEdges hn
    obtain ⟨e₀, he₀, rfl⟩ := edge_pairedNode he
    have hmarks := h.edge hn₀ he₀
    exact hmarks
  link := h.link

/-! ## The partitions of hosts -/

/-- Hosts that were grouped have the numbers of their partitions. -/
theorem Wired.mainListed_partitioned (w : f.partitioned.Wired) : f.partitioned.MainListed := by
  intro id n hn hhost
  have hlists := lists_grouped hn hhost
  rwa [(w.node_fit hn).id_eq] at hlists

namespace MainListed

/-- Marks leave the partitions of hosts. -/
theorem marked (h : f.MainListed) (m : Marking) : (f.marked m).MainListed := by
  intro id n hn hhost
  obtain ⟨n₀, hn₀, rfl⟩ := node_marked hn
  have hlists := h hn₀ hhost
  exact hlists

/-- Pairing edges leaves the partitions of hosts. -/
theorem pairEdges (h : f.MainListed) : f.pairEdges.MainListed := by
  intro id n hn hhost
  obtain ⟨n₀, hn₀, rfl⟩ := node_pairEdges hn
  have hlists := h hn₀ hhost
  exact hlists

/-- The number that a host has is that of a partition. -/
theorem hasPartition (h : f.MainListed) {id : NodeId} {n : Node β}
    (hn : f.nodes.get? id = some n) (hhost : n.isHost = true) :
    f.HasPartition n.mainPartition := by
  obtain ⟨i, hi, p, hp, -⟩ := h hn hhost
  exact ⟨i, hi, (List.getElem?_eq_some_iff.mp hp).1⟩

end MainListed

/-! ## What completing leads to -/

/-- Exact marks are numbers of partitions where those of the hosts are. -/
theorem MarksExact.numbered (h : f.MarksExact) (hmain : f.MainListed) : f.Numbered := by
  have hlink : ∀ ⦃k l⦄, f.links.get? k = some l → ∀ p ∈ l.marks, f.HasPartition p := by
    intro k l hl p hp
    obtain ⟨source, -, -, -, ⟨n, hn, hhost, rfl⟩, -⟩ := (h.link_iff k l hl p).mp hp
    exact hmain.hasPartition hn hhost
  have hedge : ∀ ⦃id n⦄, f.nodes.get? id = some n → ∀ ⦃d e⦄, n.edges.get? d = some e →
      ∀ p ∈ e.marks, f.HasPartition p := by
    intro id n hn d e he p hp
    obtain ⟨-, k, l, -, -, hl, hmark⟩ := (h.edge_iff id n hn d e he p).mp hp
    exact hlink hl p hmark
  refine ⟨fun id n hn p hp => ?_, hedge, hlink⟩
  rcases (h.node_iff id n hn p).mp hp with ⟨hhost, rfl⟩ | ⟨d, e, he, hmark⟩
  · exact hmain.hasPartition hn hhost
  · exact hedge hn he p hmark

/-- A fabric that was divided on the paths of a survey is complete once its edges are paired. -/
theorem Divisible.complete (r : f.Divisible) {paths : Paths} (hwithin : paths.Within f)
    (hrecorded : paths.All f.Recorded) : ((f.withPaths paths).partitioned.marked
      (f.withPaths paths).partitioned.spreadMarking).pairEdges.Complete := by
  have hmarkable := r.markable_withPaths hwithin
  have hmembers : ((f.withPaths paths).partitioned.partitions.flatMap (·.members)).Perm
      (f.hosts.map (·.id)) := f.members_grouped
  have hlisted := hmarkable.wired.mainListed_partitioned
  have hbare : (f.withPaths paths).partitioned.bare = f.bare := bare_partitioned _
  have hexact := hmarkable.exact
  have hpaths : (f.withPaths paths).partitioned.paths = paths := rfl
  have hroutes : (f.withPaths paths).partitioned.routes = f.routes := rfl
  generalize (f.withPaths paths).partitioned = p at *
  have hmarked : (p.marked p.spreadMarking).bare = f.bare := (bare_marked _ _).trans hbare
  have hpaired : (p.marked p.spreadMarking).pairEdges.bare = f.bare :=
    (bare_pairEdges _).trans hmarked
  have hmain : (p.marked p.spreadMarking).MainListed := hlisted.marked _
  constructor
  case wired => exact r.wired.of_bare_eq hpaired
  case other_indexed =>
    intro k l other hl hother
    obtain ⟨l₀, hl₀, rfl⟩ := link_marked hl
    obtain ⟨o, ho, -⟩ := hmarkable.paired hl₀ hother
    exact ⟨o.withMarks (p.spreadMarking.link other), (links_marked _ _ _).trans (congrArg _ ho)⟩
  case reverse_known =>
    intro id n hn d e he key hkey
    exact (r.wired.of_bare_eq hmarked).reverse_pairEdges hn he hkey
  case paths_lead =>
    intro source dests hdests dest path hpath
    have hget : paths.get? source = some dests := by
      rw [← hpaths]
      exact hdests
    have hrec := hrecorded source dests hget dest path hpath
    exact leadsBetween_of_bare_eq hpaired (r.wired.chain_of_recorded hrec)
  case members =>
    have hredecorates : f.Redecorates (p.marked p.spreadMarking).pairEdges := ⟨hpaired, hroutes⟩
    rw [hredecorates.ids_eq]
    exact hmembers
  case main_listed => exact hmain.pairEdges
  case numbered => exact (hexact.numbered hmain).pairEdges

/-- A fabric that is ready to be divided can be completed if its survey returns, whoever observes
it. Then it is complete, and no node was put aside. -/
theorem Divisible.completed_ok (r : f.Divisible) {observe : Option (Attempt → Action σ Unit)}
    {s : σ} {survey : Survey} (hsurvey : (f.survey observe s).outcome = .ok survey) :
    ∃ g, f.completed observe s = .ok g ∧ g.Complete ∧ g.asideNodes = f.asideNodes := by
  have hwithin : survey.paths.Within f := r.wired.ensures_survey_within observe s survey hsurvey
  obtain ⟨log, hrun⟩ := r.setPartitions_eq hwithin
  have hrecorded : survey.paths.All f.Recorded := f.ensures_survey observe s survey hsurvey
  refine ⟨_, ?_, r.complete hwithin hrecorded, rfl⟩
  unfold completed
  rw [hsurvey]
  change (setPartitions (f.withPaths survey.paths)).outcome >>= _ = _
  rw [hrun]
  rfl

end FabricPaths.Fabric
