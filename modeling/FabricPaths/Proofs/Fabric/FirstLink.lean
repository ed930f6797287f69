import FabricPaths.Proofs.Fabric.Agreement

/-!
# First links

The first link of a node is the link in the slot that the node's first edge lists
first. In a wired fabric that slot is occupied, so a node has a first link just if
it has an edge, and the look-up never fails.
-/

namespace FabricPaths

variable {β : Type}

/-- The position that the first edge of a node lists first. -/
def Node.firstPosition? (n : Node β) : Option Int :=
  n.edges.values.findSome? fun e => e.linkPorts.head?

namespace Fabric

/-- A node without a first position has no first link. -/
theorem firstLink?_of_none {f : Fabric β} {n : Node β} (h : n.firstPosition? = none) :
    f.firstLink? n = .ok none := by
  rw [Node.firstPosition?] at h
  rw [firstLink?, Node.firstLink?, h]
  rfl

namespace Wired

variable {f : Fabric β} {id : NodeId} {n : Node β}

/-- A node and a slot determine the link. -/
theorem link_unique (w : f.Wired) {k k' : LinkId} {l l' : Link β} (hl : f.links.get? k = some l)
    (hl' : f.links.get? k' = some l') (hparent : l.parent = l'.parent)
    (hslot : slotOf l = slotOf l') : l = l' := by
  have hk := w.link_plugged hl
  have hk' := w.link_plugged hl'
  rw [hparent, hslot, hk'] at hk
  cases hk
  rw [hl] at hl'
  exact Option.some.inj hl'

/-- A slot that an edge lists is occupied by an indexed link of its node. -/
theorem listed_occupied (w : f.Wired) (hn : f.nodes.get? id = some n) {d : NodeId} {e : Edge β}
    (he : n.edges.get? d = some e) {p : Int} (hp : p ∈ e.linkPorts) :
    ∃ l, f.links.get? l.id = some l ∧ l.parent = id ∧ p = slotOf l ∧
      n.listedLink p = .ok (some l.id) := by
  obtain ⟨i, k, l, hposition, hslot, hl, -⟩ := (w.mem_linkPorts hn he p).mp hp
  have hlt : i < n.ports.length := (List.getElem?_eq_some_iff.mp hslot).1
  have hat : n.slotAt? p = some i := by
    rw [hposition]
    exact if_pos hlt
  obtain ⟨l', hl', hparent, hi⟩ := w.plugged_link ((linkIn?_eq_some_iff hn).mpr hslot)
  rw [hl] at hl'
  cases hl'
  have hid := w.link_id hl
  refine ⟨l, ?_, hparent, ?_, ?_⟩
  · rw [hid]
    exact hl
  · rw [hi]
    exact hposition
  · rw [Node.listedLink, hat, hid]
    dsimp only
    rw [hslot, Option.join_some]

/-- The link at the first position of a node is its first link. -/
theorem firstLink?_of_position (w : f.Wired) (hn : f.nodes.get? id = some n) {p : Int}
    (hp : n.firstPosition? = some p) : ∃ l, f.firstLink? n = .ok (some l) ∧
      f.links.get? l.id = some l ∧ l.parent = id ∧ p = slotOf l := by
  rw [Node.firstPosition?] at hp
  obtain ⟨e, hin, hhead⟩ := List.exists_of_findSome?_eq_some hp
  obtain ⟨d, he⟩ := OrderedMap.mem_values_iff.mp hin
  obtain ⟨l, hl, hparent, hposition, hlisted⟩ := w.listed_occupied hn he (List.mem_of_head? hhead)
  refine ⟨l, ?_, hl, hparent, hposition⟩
  rw [firstLink?, Node.firstLink?, hp]
  dsimp only
  rw [hlisted]
  change Except.ok ((some l.id).bind f.anyLink?) = _
  rw [Option.bind_some, w.anyLink?_eq, hl]

/-- A node of a wired fabric has no first link, or one that is indexed. -/
theorem firstLink?_cases (w : f.Wired) (hn : f.nodes.get? id = some n) :
    f.firstLink? n = .ok none ∨
      ∃ l, f.firstLink? n = .ok (some l) ∧ f.links.get? l.id = some l ∧ l.parent = id := by
  cases hp : n.firstPosition? with
  | none => exact Or.inl (firstLink?_of_none hp)
  | some p =>
    obtain ⟨l, hfirst, hl, hparent, -⟩ := w.firstLink?_of_position hn hp
    exact Or.inr ⟨l, hfirst, hl, hparent⟩

/-- The first link of a node is the one at its first position. -/
theorem firstLink?_eq_some_iff (w : f.Wired) (hn : f.nodes.get? id = some n) {l : Link β} :
    f.firstLink? n = .ok (some l) ↔
      f.links.get? l.id = some l ∧ l.parent = id ∧ n.firstPosition? = some (slotOf l : Int) := by
  constructor
  · intro h
    cases hp : n.firstPosition? with
    | none =>
      rw [firstLink?_of_none hp] at h
      cases h
    | some p =>
      obtain ⟨l', hfirst, hl, hparent, rfl⟩ := w.firstLink?_of_position hn hp
      rw [hfirst] at h
      cases h
      exact ⟨hl, hparent, rfl⟩
  · rintro ⟨hl, hparent, hp⟩
    obtain ⟨l', hfirst, hl', hparent', hslot⟩ := w.firstLink?_of_position hn hp
    have hsame : l = l' :=
      w.link_unique hl hl' (hparent.trans hparent'.symm) (Int.ofNat.inj hslot)
    rw [hsame]
    exact hfirst

/-- A node with an edge has a first position. -/
theorem exists_firstPosition (w : f.Wired) (hn : f.nodes.get? id = some n)
    (hedges : n.edges.entries ≠ []) : ∃ p, n.firstPosition? = some p := by
  cases hp : n.firstPosition? with
  | some p => exact ⟨p, rfl⟩
  | none =>
    obtain ⟨⟨d, e⟩, hin⟩ := List.exists_mem_of_ne_nil _ hedges
    have hlisted := ((w.node_fit hn).edges_fit (OrderedMap.mem_entries_iff.mp hin)).2.2.1
    rw [Node.firstPosition?, List.findSome?_eq_none_iff] at hp
    have hhead := hp e (List.mem_map_of_mem hin)
    rw [List.head?_eq_none_iff] at hhead
    exact absurd hhead hlisted

end Wired

end Fabric

end FabricPaths
