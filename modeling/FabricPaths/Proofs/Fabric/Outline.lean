import FabricPaths.Proofs.Fabric.Renumbering
import FabricPaths.Proofs.Fabric.Weights

/-!
# Outlines

The outline of a node tells which of its slots are occupied and what its edges list, but
not the numbers in its slots nor the bandwidths of its edges. A link that is plugged in
for one that ends at the same node leaves the outline of its node as it was: the edge
keeps its place among the edges, and the slot its place on the edge.
-/

namespace FabricPaths

variable {β : Type}

/-- The slots of a node that hold the other numbers are its slots under other numbers. -/
theorem Node.ports_eq_of_linkIn? {ρ : LinkId → LinkId} {n n' : Node β}
    (hlength : n'.ports.length = n.ports.length)
    (h : ∀ i, n'.linkIn? i = (n.linkIn? i).map ρ) : n'.ports = n.ports.map (Option.map ρ) := by
  refine List.ext_getElem (by rw [List.length_map, hlength]) fun i hi hi' => ?_
  have hslot := h i
  rw [List.length_map] at hi'
  rw [Node.linkIn?, Node.linkIn?, List.getElem?_eq_getElem hi,
    List.getElem?_eq_getElem hi'] at hslot
  rw [List.getElem_map]
  exact hslot

/-- No slot is missing up to one that holds a link. -/
theorem Fabric.missingSlots_of_plugged? {f : Fabric β} {n : Node β} {i : Nat} {old : Link β}
    (h : f.plugged? n i = some old) : n.missingSlots i = 0 := by
  obtain ⟨k, hk, -⟩ := Option.bind_eq_some_iff.mp h
  have hlt := (List.getElem?_eq_some_iff.mp (Option.join_eq_some_iff.mp hk)).1
  rw [Node.missingSlots]
  omega

variable [Bandwidth β]

/-- The node without the numbers in its slots and the bandwidths of its edges. -/
def Node.outline (n : Node β) : Node β :=
  { n.unweighed with ports := n.ports.map (Option.map fun _ => 0) }

/-- Nodes with one outline, of which the second has the other numbers of the first in its
slots, are one node under other numbers. -/
theorem Node.renumbers_of_outline {ρ : LinkId → LinkId} {n n' : Node β}
    (houtline : n'.outline = n.outline) (hports : n'.ports = n.ports.map (Option.map ρ)) :
    n.Renumbers ρ n' := by
  have hnode : n'.unweighed = { n'.outline with ports := n'.ports } := rfl
  rw [Renumbers, hnode, houtline, hports]
  rfl

/-- A node with other edges and slots has the same outline if its edges list the same and the
same slots are occupied. -/
theorem Node.outline_of_rewired {n n' : Node β} (h : n.Rewired n')
    (hedges : (n'.edges.mapValues fun _ e => e.unweighed) =
      n.edges.mapValues fun _ e => e.unweighed)
    (hports : n'.ports.map (Option.map fun _ => (0 : LinkId)) =
      n.ports.map (Option.map fun _ => 0)) : n'.outline = n.outline := by
  unfold Rewired at h
  rw [h]
  change { n with
    edges := n'.edges.mapValues fun _ e => e.unweighed
    ports := n'.ports.map (Option.map fun _ => 0) } = n.outline
  rw [hedges, hports]
  rfl

/-- An edge that lists a slot already lists no more once the slot is attached. -/
theorem Edge.unweighed_attach {e : Edge β} {slot : Nat} (h : (slot : Int) ∈ e.linkPorts)
    (lowered gbits : β) : ((e.lower lowered).attach slot gbits).unweighed = e.unweighed := by
  unfold attach
  have hlists : (slot : Int) ∈ (e.lower lowered).linkPorts := h
  rw [if_pos hlists]
  rfl

namespace Fabric

namespace Wired

variable {f : Fabric β} {n : Node β} {l old : Link β}

/-- A link that replaces one to the same node leaves the edges, bandwidths apart. -/
theorem edges_pluggedNode (w : f.Wired) (hn : f.nodes.get? l.parent = some n)
    (hold : f.plugged? n (slotOf l) = some old) (hdest : old.dest = l.dest) :
    ((f.pluggedNode n l).edges.mapValues fun _ e => e.unweighed) =
      n.edges.mapValues fun _ e => e.unweighed := by
  obtain ⟨⟨e, he, hin⟩, -⟩ := w.listed_of_plugged? hn hold
  have hvacated : (f.vacated n l).edges = n.edges.insert l.dest (e.lower old.gbits) := by
    rw [hdest] at he
    rw [vacated, hold]
    dsimp only
    rw [Node.detach, hdest, he, decide_eq_true rfl]
    rfl
  rw [hdest] at he
  have hget : (n.edges.mapValues fun _ e => e.unweighed).get? l.dest = some e.unweighed := by
    rw [OrderedMap.get?_mapValues, he, Option.map_some]
  have hedges : (f.pluggedNode n l).edges = (n.edges.insert l.dest (e.lower old.gbits)).insert
      l.dest ((e.lower old.gbits).attach (slotOf l) l.gbits) := by
    change (f.vacated n l).edges.insert l.dest
      ((((f.vacated n l).edges.get? l.dest).getD _).attach _ _) = _
    rw [hvacated, OrderedMap.get?_insert, if_pos rfl, Option.getD_some]
  have hlowered : (e.lower old.gbits).unweighed = e.unweighed := rfl
  rw [hedges, OrderedMap.mapValues_insert, OrderedMap.mapValues_insert,
    Edge.unweighed_attach hin, hlowered, OrderedMap.insert_eq_self hget,
    OrderedMap.insert_eq_self hget]

/-- A link that replaces another leaves the occupied slots. -/
theorem ports_pluggedNode (hold : f.plugged? n (slotOf l) = some old) :
    (f.pluggedNode n l).ports.map (Option.map fun _ => (0 : LinkId)) =
      n.ports.map (Option.map fun _ => 0) := by
  obtain ⟨k, hk, -⟩ := Option.bind_eq_some_iff.mp hold
  have hslot := Option.join_eq_some_iff.mp hk
  have hports : (f.pluggedNode n l).ports = n.ports.set (slotOf l) (some l.id) := by
    change ((f.vacated n l).ports ++
      List.replicate ((f.vacated n l).missingSlots (slotOf l)) none).set _ _ = _
    have hmissing : (f.vacated n l).missingSlots (slotOf l) = 0 := by
      rw [Node.missingSlots, (f.vacated_frame n l).2.1]
      exact missingSlots_of_plugged? hold
    rw [hmissing, (f.vacated_frame n l).2.1, List.replicate_zero, List.append_nil]
  have hflag : (n.ports.map (Option.map fun _ => (0 : LinkId)))[slotOf l]? = some (some 0) := by
    rw [List.getElem?_map, hslot]
    rfl
  obtain ⟨hbound, hget⟩ := List.getElem?_eq_some_iff.mp hflag
  rw [hports, List.map_set, Option.map_some, ← hget]
  exact List.set_getElem_self hbound

/-- A link that replaces one to the same node leaves the outline of its node. -/
theorem outline_pluggedNode (w : f.Wired) (hn : f.nodes.get? l.parent = some n)
    (hold : f.plugged? n (slotOf l) = some old) (hdest : old.dest = l.dest) :
    (f.pluggedNode n l).outline = n.outline :=
  Node.outline_of_rewired (f.rewired_pluggedNode n l) (w.edges_pluggedNode hn hold hdest)
    (ports_pluggedNode hold)

end Wired

/-! ## Fabrics with one outline -/

variable {ρ : LinkId ↪o LinkId} {f g : Fabric β} {subnet : String}

/-- Fabrics with one outline are one fabric under other numbers if slots hold the other
numbers and links are indexed under them. -/
theorem renumbers_of_outline
    (hnodes : (g.nodes.mapValues fun _ n => n.outline) = f.nodes.mapValues fun _ n => n.outline)
    (hslots : ∀ x i, g.linkIn? x i = (f.linkIn? x i).map ρ)
    (hlinks : g.links = renumberedLinks ρ f.links)
    (haside : g.asideLinks = renumberedLinks ρ f.asideLinks)
    (hf : f.rest = { subnet }) (hg : g.rest = { subnet }) : f.Renumbers ρ g := by
  have hrest : g.unweighed.rest = (f.renumbered ρ).unweighed.rest := by
    change g.rest.unweighed = (f.rest.renumbered ρ).unweighed
    rw [hf, hg]
    rfl
  refine eq_of_rest hrest ?_ hlinks haside
  change (g.nodes.mapValues fun _ n => n.unweighed) =
    (f.nodes.mapValues fun _ n => n.renumbered ρ).mapValues fun _ n => n.unweighed
  have hkeys := congrArg OrderedMap.keys hnodes
  simp only [OrderedMap.keys_mapValues] at hkeys
  refine OrderedMap.ext_get? (by simp only [OrderedMap.keys_mapValues, hkeys]) fun v m hm => ?_
  rw [OrderedMap.get?_mapValues] at hm
  obtain ⟨n', hn', rfl⟩ := Option.map_eq_some_iff.mp hm
  obtain ⟨n, hn, houtline⟩ := get?_of_mapValues_eq hnodes hn'
  have hlength : n'.ports.length = n.ports.length := by
    have hflags := congrArg (fun n => n.ports.length) houtline
    simp only [Node.outline, List.length_map] at hflags
    exact hflags.symm
  have hports : n'.ports = n.ports.map (Option.map ρ) := by
    refine Node.ports_eq_of_linkIn? hlength fun i => ?_
    rw [← linkIn?_of_node hn', ← linkIn?_of_node hn]
    exact hslots v i
  have hrenumbers : n'.unweighed = (n.renumbered ρ).unweighed :=
    Node.renumbers_of_outline houtline.symm hports
  rw [OrderedMap.get?_mapValues, OrderedMap.get?_mapValues, hn, hrenumbers]
  rfl

namespace Renumbers

/-- Slots hold the other numbers. -/
theorem linkIn?_eq (h : f.Renumbers ρ g) (x : NodeId) (i : Nat) :
    g.linkIn? x i = (f.linkIn? x i).map ρ := by
  cases hn : f.nodes.get? x with
  | none =>
    rw [linkIn?, linkIn?, hn, h.node_eq_none hn]
    rfl
  | some n =>
    obtain ⟨n', hn', hrenumbers⟩ := h.node hn
    rw [linkIn?_of_node hn', linkIn?_of_node hn, Node.linkIn?, Node.linkIn?, hrenumbers.ports_eq,
      List.getElem?_map]
    cases n.ports[i]? <;> rfl

/-- Positions have the bandwidths that they had under the former numbers. -/
theorem weightAt_eq (h : f.Renumbers ρ g) (x : NodeId) : g.weightAt x = f.weightAt x := by
  funext p
  cases p with
  | negSucc i => rfl
  | ofNat i =>
    rw [weightAt, weightAt, h.linkIn?_eq]
    cases f.linkIn? x i with
    | none => rfl
    | some k =>
      rw [Option.map_some, Option.bind_some, Option.bind_some, h.links_get?, Option.map_map]
      rfl

/-- Edges with the bandwidths of their links have the same bandwidths under other numbers. -/
theorem edges_eq (h : f.Renumbers ρ g) (hf : f.Weighed) (hg : g.Weighed) {v : NodeId}
    {n n' : Node β} (hn : f.nodes.get? v = some n) (hn' : g.nodes.get? v = some n')
    (hrenumbers : n.Renumbers ρ n') : n'.edges = n.edges := by
  have hedges : (n'.edges.mapValues fun _ e => e.unweighed) =
      n.edges.mapValues fun _ e => e.unweighed :=
    (congrArg Node.edges hrenumbers : n'.unweighed.edges = _)
  have hkeys := congrArg OrderedMap.keys hedges
  simp only [OrderedMap.keys_mapValues] at hkeys
  refine OrderedMap.ext_get? hkeys fun d e' he' => ?_
  obtain ⟨e, he, hsame⟩ := get?_of_mapValues_eq hedges he'
  have hlist : e.linkPorts = e'.linkPorts :=
    (congrArg Edge.linkPorts hsame : e.unweighed.linkPorts = _)
  have hgbits : e.gbits = e'.gbits := by
    rw [hf hn he, hg hn' he', h.weightAt_eq, hlist]
  have hparts : ∀ e : Edge β, e = { e.unweighed with gbits := e.gbits } := fun _ => rfl
  rw [he, hparts e, hparts e', hsame, hgbits]

/-- Fabrics whose edges have the bandwidths of their links are the same under other numbers. -/
theorem eq_renumbered (h : f.Renumbers ρ g) (hf : f.Weighed) (hg : g.Weighed)
    (hfrest : f.rest = { subnet }) (hgrest : g.rest = { subnet }) : g = f.renumbered ρ := by
  have hrest : g.rest = (f.renumbered ρ).rest := by
    change _ = f.rest.renumbered ρ
    rw [hfrest, hgrest]
    rfl
  refine eq_of_rest hrest ?_ (congrArg Fabric.links h : g.unweighed.links = _)
    (congrArg Fabric.asideLinks h : g.unweighed.asideLinks = _)
  have hkeys : g.nodes.keys = (f.nodes.mapValues fun _ n => n.renumbered ρ).keys := by
    have hnodes := congrArg (fun f => f.nodes.keys) h
    simp only [unweighed, renumbered, OrderedMap.keys_mapValues] at hnodes ⊢
    exact hnodes
  refine OrderedMap.ext_get? hkeys fun v n' hn' => ?_
  have hkey := OrderedMap.mem_keys_of_get? hn'
  rw [hkeys, OrderedMap.keys_mapValues] at hkey
  obtain ⟨n, hn⟩ := OrderedMap.mem_keys_iff.mp hkey
  obtain ⟨n'', hn'', hrenumbers⟩ := h.node hn
  rw [hn'] at hn''
  cases hn''
  have hedges := h.edges_eq hf hg hn hn' hrenumbers
  have hnode : n' = n.renumbered ρ := by
    have hparts : ∀ n : Node β, n = { n.unweighed with edges := n.edges } := fun _ => rfl
    rw [hparts n', hparts (n.renumbered ρ), hrenumbers, hedges]
    rfl
  change (f.nodes.mapValues fun _ n => n.renumbered ρ).get? v = _
  rw [OrderedMap.get?_mapValues, hn, hnode, Option.map_some]

end Renumbers

end Fabric

end FabricPaths
