import FabricPaths.Proofs.Fabric.Pairing

/-!
# Edges the other way

Links are paired by their ports and edges by their nodes. In a wired fabric both come to the
same: an edge is paired with the edge between the same nodes the other way, pairing is an
involution where it succeeds, and links that are paired lie on edges that are paired.
-/

namespace FabricPaths.Fabric

variable {β : Type} {f : Fabric β}

/-- The edges of all nodes. -/
def edgeList (f : Fabric β) : List (Edge β) := f.nodes.values.flatMap (·.edges.values)

/-- An edge between two nodes is an edge of the first. -/
theorem edge?_eq_some_iff {source dest : NodeId} {e : Edge β} : f.edge? (source, dest) = some e ↔
    ∃ n, f.nodes.get? source = some n ∧ n.edges.get? dest = some e :=
  Option.bind_eq_some_iff

/-! ## Pairing edges -/

/-- An edge of a node, paired with the edge the other way. -/
def pairedEdge (f : Fabric β) (n : Node β) (e : Edge β) : Edge β :=
  { e with reverse := (f.reverseOf? n e).map (·.key) }

/-- A node with its edges paired. -/
def pairedNode (f : Fabric β) (n : Node β) : Node β :=
  { n with edges := n.edges.mapValues fun _ e => f.pairedEdge n e }

/-- The nodes of a fabric with its edges paired. -/
theorem nodes_pairEdges (f : Fabric β) (id : NodeId) :
    f.pairEdges.nodes.get? id = (f.nodes.get? id).map f.pairedNode :=
  OrderedMap.get?_mapValues _ _ _

/-- A node of a fabric with its edges paired is a node of the fabric with its edges paired. -/
theorem node_pairEdges {id : NodeId} {n : Node β} (h : f.pairEdges.nodes.get? id = some n) :
    ∃ n₀, f.nodes.get? id = some n₀ ∧ n = f.pairedNode n₀ := by
  rw [nodes_pairEdges] at h
  obtain ⟨n₀, hn₀, heq⟩ := Option.map_eq_some_iff.mp h
  exact ⟨n₀, hn₀, heq.symm⟩

/-- An edge of a node with its edges paired is an edge of the node, paired. -/
theorem edge_pairedNode {n : Node β} {d : NodeId} {e : Edge β}
    (h : (f.pairedNode n).edges.get? d = some e) :
    ∃ e₀, n.edges.get? d = some e₀ ∧ e = f.pairedEdge n e₀ := by
  have hget : (f.pairedNode n).edges.get? d = (n.edges.get? d).map (f.pairedEdge n) :=
    OrderedMap.get?_mapValues _ _ _
  rw [hget] at h
  obtain ⟨e₀, he₀, heq⟩ := Option.map_eq_some_iff.mp h
  exact ⟨e₀, he₀, heq.symm⟩

/-- Pairing edges pairs each of them. -/
theorem edgeList_pairEdges (f : Fabric β) : f.pairEdges.edgeList =
    f.nodes.values.flatMap fun n => n.edges.values.map (f.pairedEdge n) := by
  have hnodes : f.pairEdges.nodes.values = f.nodes.values.map f.pairedNode :=
    OrderedMap.values_mapValues f.pairedNode f.nodes
  rw [edgeList, hnodes, List.flatMap_map]
  exact List.flatMap_congr fun n _ => OrderedMap.values_mapValues (f.pairedEdge n) n.edges

/-- The edges without one the other way are those that are left unpaired. -/
theorem unpairedEdges_eq (f : Fabric β) :
    f.unpairedEdges = f.pairEdges.edgeList.countP fun e => e.reverse.isNone := by
  rw [edgeList_pairEdges, List.countP_flatMap]
  change (f.nodes.values.map _).sum = (f.nodes.values.map _).sum
  congr 1
  apply List.map_congr_left
  intro n _
  rw [Function.comp_apply, List.countP_map]
  apply List.countP_congr
  intro e _
  rw [Function.comp_apply, pairedEdge, Option.isNone_map]

/-! ## Edges of wired fabrics -/

/-- Edges are paired as the edges between their nodes tell, and as their links are. -/
structure EdgesPaired (f : Fabric β) (unpaired : Nat) : Prop where
  /-- An edge is kept under its two nodes. -/
  key_eq : ∀ source dest e, f.edge? (source, dest) = some e → e.key = (source, dest)
  /-- An edge is paired with the edge between the same nodes the other way, if there is one, and
  else with none. -/
  reverse_eq : ∀ source dest e, f.edge? (source, dest) = some e →
    e.reverse = if (f.edge? (dest, source)).isSome then some (dest, source) else none
  /-- The edge the other way is there, and paired with the edge itself. -/
  involutive : ∀ source dest e key, f.edge? (source, dest) = some e → e.reverse = some key →
    ∃ r, f.edge? key = some r ∧ r.reverse = some e.key
  /-- The edges without one the other way are counted. -/
  unpaired_eq : unpaired = f.edgeList.countP fun e => e.reverse.isNone
  /-- The edges of two paired links are paired, and each lists the slot of its link. -/
  follows_links : ∀ k l other, f.links.get? k = some l → l.otherLink = some other →
    ∃ o e r, f.links.get? other = some o ∧ f.edge? l.edgeKey = some e ∧
      (slotOf l : Int) ∈ e.linkPorts ∧ f.edge? o.edgeKey = some r ∧
      (slotOf o : Int) ∈ r.linkPorts ∧ e.reverse = some r.key

namespace Wired

/-- An edge is kept under its two nodes. -/
theorem key_of_edge? (w : f.Wired) {key : NodeId × NodeId} {e : Edge β}
    (he : f.edge? key = some e) : e.key = key := by
  obtain ⟨n, hn, hedge⟩ := edge?_eq_some_iff.mp he
  obtain ⟨hsource, hdest, -⟩ := (w.node_fit hn).edges_fit hedge
  rw [Edge.key, hsource, hdest, (w.node_fit hn).id_eq]

/-- The edge the other way is the edge between the same nodes the other way. -/
theorem reverseOf?_eq (w : f.Wired) {source dest : NodeId} {n : Node β} {e : Edge β}
    (hn : f.nodes.get? source = some n) (he : n.edges.get? dest = some e) :
    f.reverseOf? n e = f.edge? (dest, source) := by
  rw [reverseOf?, edge?, ((w.node_fit hn).edges_fit he).2.1, (w.node_fit hn).id_eq]

/-- The key of the edge between two nodes is that of the two nodes. -/
theorem map_key_edge? (w : f.Wired) (key : NodeId × NodeId) :
    (f.edge? key).map (·.key) = if (f.edge? key).isSome then some key else none := by
  cases he : f.edge? key with
  | none => rfl
  | some e => exact congrArg some (w.key_of_edge? he)

/-- What the edge between two nodes is once edges are paired. -/
theorem edge?_pairEdges (w : f.Wired) (source dest : NodeId) :
    f.pairEdges.edge? (source, dest) = (f.edge? (source, dest)).map fun e =>
      { e with
        reverse := if (f.edge? (dest, source)).isSome then some (dest, source) else none } := by
  unfold edge?
  dsimp only
  rw [nodes_pairEdges]
  cases hn : f.nodes.get? source with
  | none => rfl
  | some n =>
    rw [Option.map_some, Option.bind_some, Option.bind_some]
    change (n.edges.mapValues fun _ e => f.pairedEdge n e).get? dest = _
    rw [OrderedMap.get?_mapValues]
    cases he : n.edges.get? dest with
    | none => rfl
    | some e =>
      rw [Option.map_some, Option.map_some, pairedEdge, w.reverseOf?_eq hn he, w.map_key_edge?]
      rfl

/-- Pairing edges removes none and makes none. -/
theorem isSome_edge?_pairEdges (w : f.Wired) (key : NodeId × NodeId) :
    (f.pairEdges.edge? key).isSome = (f.edge? key).isSome := by
  rw [w.edge?_pairEdges, Option.isSome_map]

/-- The edge with which an edge is paired is an edge between the same nodes. -/
theorem reverse_pairEdges (w : f.Wired) {id d : NodeId} {n : Node β} {e : Edge β}
    (hn : f.pairEdges.nodes.get? id = some n) (he : n.edges.get? d = some e)
    {key : NodeId × NodeId} (hkey : e.reverse = some key) :
    key = (d, id) ∧ ∃ r, f.pairEdges.edge? key = some r := by
  have hedge : f.pairEdges.edge? (id, d) = some e := edge?_eq_some_iff.mpr ⟨n, hn, he⟩
  rw [w.edge?_pairEdges] at hedge
  obtain ⟨e₀, -, rfl⟩ := Option.map_eq_some_iff.mp hedge
  obtain ⟨hback, hkey⟩ := Option.ite_none_right_eq_some.mp hkey
  rw [← Option.some.inj hkey, ← Option.isSome_iff_exists, w.isSome_edge?_pairEdges]
  exact ⟨rfl, hback⟩

/-- The edge of an indexed link lists the link's slot. -/
theorem exists_edge_of_link (w : f.Wired) {k : LinkId} {l : Link β}
    (hl : f.links.get? k = some l) :
    ∃ e, f.edge? l.edgeKey = some e ∧ (slotOf l : Int) ∈ e.linkPorts := by
  obtain ⟨n, hn⟩ := w.link_parent hl
  obtain ⟨e, he, hin⟩ :=
    w.exists_edge hn ((linkIn?_eq_some_iff hn).mp (w.link_plugged hl)) hl
  exact ⟨e, edge?_eq_some_iff.mpr ⟨n, hn, he⟩, hin⟩

/-- Pairing the edges of a wired fabric pairs them in both directions, and as the links are
paired if these are paired with links between the same nodes. -/
theorem edgesPaired_pairEdges (w : f.Wired)
    (hlinks : ∀ ⦃k l other⦄, f.links.get? k = some l → l.otherLink = some other →
      ∃ o, f.links.get? other = some o ∧ o.parent = l.dest ∧ o.dest = l.parent) :
    f.pairEdges.EdgesPaired f.unpairedEdges := by
  have w' : f.pairEdges.Wired := w.of_bare_eq f.bare_pairEdges
  have hreverse : ∀ source dest e, f.pairEdges.edge? (source, dest) = some e → e.reverse =
      if (f.pairEdges.edge? (dest, source)).isSome then some (dest, source) else none := by
    intro source dest e he
    rw [w.edge?_pairEdges] at he
    obtain ⟨e₀, -, rfl⟩ := Option.map_eq_some_iff.mp he
    rw [w.isSome_edge?_pairEdges]
  constructor
  case key_eq => exact fun source dest e he => w'.key_of_edge? he
  case reverse_eq => exact hreverse
  case involutive =>
    intro source dest e key he hkey
    rw [hreverse source dest e he] at hkey
    obtain ⟨hback, hkey⟩ := Option.ite_none_right_eq_some.mp hkey
    obtain ⟨r, hr⟩ := Option.isSome_iff_exists.mp hback
    have hforth : (f.pairEdges.edge? (source, dest)).isSome = true := by
      rw [he, Option.isSome_some]
    refine ⟨r, ?_, ?_⟩
    · rw [← Option.some.inj hkey]
      exact hr
    · rw [hreverse dest source r hr, if_pos hforth, w'.key_of_edge? he]
  case unpaired_eq => exact f.unpairedEdges_eq
  case follows_links =>
    intro k l other hl hother
    obtain ⟨o, ho, hparent, hdest⟩ := hlinks hl hother
    obtain ⟨e, he, hslot⟩ := w'.exists_edge_of_link hl
    obtain ⟨r, hr, hslot'⟩ := w'.exists_edge_of_link ho
    have hkey : o.edgeKey = (l.dest, l.parent) := by rw [Link.edgeKey, hparent, hdest]
    have hback : (f.pairEdges.edge? (l.dest, l.parent)).isSome = true := by
      rw [← hkey, hr, Option.isSome_some]
    refine ⟨o, e, r, ho, he, hslot, hr, hslot', ?_⟩
    rw [hreverse l.parent l.dest e he, if_pos hback, w'.key_of_edge? hr, hkey]

end Wired

end FabricPaths.Fabric
