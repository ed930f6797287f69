import FabricPaths.Partition.Spread
import FabricPaths.Proofs.Partition.Detect

/-!
# Markings

The marks on a fabric, apart from the fabric: a set of partitions for each node,
edge and link. Spreading marks over a fabric is the same as extending the
marking that the fabric carries, so what is on the fabric in the end is read off
the list of marks that were made.
-/

namespace FabricPaths

variable {β : Type}

/-- A set of partitions for each node, edge and link. -/
structure Marking where
  /-- The partitions whose traffic a node sends. -/
  node : NodeId → Marks
  /-- The partitions whose traffic an edge carries, by source and destination. -/
  edge : NodeId → NodeId → Marks
  /-- The partitions whose traffic a link carries. -/
  link : LinkId → Marks

namespace Marking

/-- Marks a link, its edge and the node that it leaves. -/
def mark (m : Marking) (partition : Int) (l : Link β) : Marking where
  node := fun id => if id = l.parent then (m.node id).add partition else m.node id
  edge := fun id d =>
    if id = l.parent ∧ d = l.dest then (m.edge id d).add partition else m.edge id d
  link := fun k => if k = l.id then (m.link k).add partition else m.link k

/-- Makes marks one after another. -/
def markAll (m : Marking) (marks : List (Int × Link β)) : Marking :=
  marks.foldl (fun m t => m.mark t.1 t.2) m

/-- Making marks in two parts is making them all. -/
theorem markAll_append (m : Marking) (marks marks' : List (Int × Link β)) :
    m.markAll (marks ++ marks') = (m.markAll marks).markAll marks' :=
  List.foldl_append

/-- A set to which a mark is added in some case. -/
theorem mem_ite_add {c : Prop} [Decidable c] {s : Marks} {p q : Int} :
    (p ∈ if c then s.add q else s) ↔ p ∈ s ∨ (p = q ∧ c) := by
  by_cases h : c
  · rw [if_pos h, Marks.mem_add]
    simp only [h, and_true, or_comm]
  · rw [if_neg h]
    simp only [h, and_false, or_false]

/-- What is true of each mark that is made is true of all: a set in a marking has
its former members, and the marks on links that concern it. -/
theorem mem_markAll (set : Marking → Marks) {concerns : Link β → Prop}
    (hstep : ∀ (m : Marking) (q : Int) (l : Link β) (p : Int),
      p ∈ set (m.mark q l) ↔ p ∈ set m ∨ (p = q ∧ concerns l))
    (m : Marking) (marks : List (Int × Link β)) (p : Int) :
    p ∈ set (m.markAll marks) ↔ p ∈ set m ∨ ∃ l, (p, l) ∈ marks ∧ concerns l := by
  induction marks generalizing m with
  | nil => simp [markAll]
  | cons t marks ih =>
    obtain ⟨q, l⟩ := t
    have hrest := ih (m.mark q l)
    change p ∈ set ((m.mark q l).markAll marks) ↔ _
    rw [hrest, hstep]
    simp only [List.mem_cons, Prod.mk.injEq]
    constructor
    · intro h
      rcases h with (hm | ⟨hq, hl⟩) | ⟨l', hin, hl'⟩
      · exact Or.inl hm
      · exact Or.inr ⟨l, Or.inl ⟨hq, rfl⟩, hl⟩
      · exact Or.inr ⟨l', Or.inr hin, hl'⟩
    · intro h
      rcases h with hm | ⟨l', ⟨hq, hsame⟩ | hin, hl'⟩
      · exact Or.inl (Or.inl hm)
      · rw [hsame] at hl'
        exact Or.inl (Or.inr ⟨hq, hl'⟩)
      · exact Or.inr ⟨l', hin, hl'⟩

/-- A link has its former marks, and those that were made on it. -/
theorem mem_link_markAll (m : Marking) (marks : List (Int × Link β)) (k : LinkId) (p : Int) :
    p ∈ (m.markAll marks).link k ↔ p ∈ m.link k ∨ ∃ l, (p, l) ∈ marks ∧ k = l.id :=
  mem_markAll (fun m => m.link k) (fun _ _ _ _ => mem_ite_add) m marks p

/-- An edge has its former marks, and those that were made on links along it. -/
theorem mem_edge_markAll (m : Marking) (marks : List (Int × Link β)) (id d : NodeId) (p : Int) :
    p ∈ (m.markAll marks).edge id d ↔
      p ∈ m.edge id d ∨ ∃ l, (p, l) ∈ marks ∧ id = l.parent ∧ d = l.dest :=
  mem_markAll (fun m => m.edge id d) (fun _ _ _ _ => mem_ite_add) m marks p

/-- A node has its former marks, and those that were made on links that leave it. -/
theorem mem_node_markAll (m : Marking) (marks : List (Int × Link β)) (id : NodeId) (p : Int) :
    p ∈ (m.markAll marks).node id ↔ p ∈ m.node id ∨ ∃ l, (p, l) ∈ marks ∧ id = l.parent :=
  mem_markAll (fun m => m.node id) (fun _ _ _ _ => mem_ite_add) m marks p

end Marking

/-! ## Fabrics that carry a marking -/

/-- The link with other marks. -/
def Link.withMarks (l : Link β) (marks : Marks) : Link β := { l with marks }

/-- The edge with other marks. -/
def Edge.withMarks (e : Edge β) (marks : Marks) : Edge β := { e with marks }

/-- The node with other marks, and so its edges. -/
def Node.withMarks (n : Node β) (marks : Marks) (edges : NodeId → Marks) : Node β :=
  { n with marks, edges := n.edges.mapValues fun d e => e.withMarks (edges d) }

/-- An edge of a node with other marks is an edge of the node, but for its marks. -/
theorem Node.edge_withMarks {n : Node β} {marks : Marks} {edges : NodeId → Marks} {d : NodeId}
    {e : Edge β} (h : (n.withMarks marks edges).edges.get? d = some e) :
    ∃ e₀, n.edges.get? d = some e₀ ∧ e = e₀.withMarks (edges d) := by
  have hget : (n.withMarks marks edges).edges.get? d =
      (n.edges.get? d).map (·.withMarks (edges d)) := OrderedMap.get?_mapValues _ _ _
  rw [hget] at h
  obtain ⟨e₀, he₀, heq⟩ := Option.map_eq_some_iff.mp h
  exact ⟨e₀, he₀, heq.symm⟩

namespace Marking

variable (m : Marking) (partition : Int) (l : Link β)

/-- A link that carries a marking, once a mark was made. -/
theorem withMarks_mark_link (k : LinkId) (l' : Link β) :
    (if k = l.id then
        ({ l'.withMarks (m.link k) with marks := (m.link k).add partition } : Link β)
      else l'.withMarks (m.link k)) = l'.withMarks ((m.mark partition l).link k) := by
  unfold mark
  dsimp only
  by_cases hk : k = l.id
  · rw [if_pos hk, if_pos hk]
    rfl
  · rw [if_neg hk, if_neg hk]

/-- An edge of the marked link's parent that carries a marking, once the mark was made. -/
theorem withMarks_mark_edge (d : NodeId) (e : Edge β) :
    (if d = l.dest then
        ({ e.withMarks (m.edge l.parent d) with
          marks := (m.edge l.parent d).add partition } : Edge β)
      else e.withMarks (m.edge l.parent d)) =
      e.withMarks ((m.mark partition l).edge l.parent d) := by
  unfold mark
  dsimp only
  by_cases hd : d = l.dest
  · rw [if_pos hd, if_pos ⟨rfl, hd⟩]
    rfl
  · rw [if_neg hd, if_neg (fun h => hd h.2)]

/-- A node that carries a marking, once a mark was made. -/
theorem withMarks_mark_node (id : NodeId) (n : Node β) :
    (if id = l.parent then
        ({ n.withMarks (m.node id) (m.edge id) with
          marks := (m.node id).add partition
          edges := (n.withMarks (m.node id) (m.edge id)).edges.modify l.dest fun e =>
            { e with marks := e.marks.add partition } } : Node β)
      else n.withMarks (m.node id) (m.edge id)) =
      n.withMarks ((m.mark partition l).node id) ((m.mark partition l).edge id) := by
  by_cases hid : id = l.parent
  · have hedges : ((n.withMarks (m.node id) (m.edge id)).edges.modify l.dest fun e =>
        { e with marks := e.marks.add partition }) =
        n.edges.mapValues fun d e => e.withMarks ((m.mark partition l).edge id d) := by
      rw [OrderedMap.modify, Node.withMarks, OrderedMap.mapValues_mapValues, hid]
      apply OrderedMap.mapValues_congr
      intro e _
      exact m.withMarks_mark_edge partition l e.1 e.2
    have hnode : (m.mark partition l).node id = (m.node id).add partition := if_pos hid
    rw [if_pos hid, hedges, hnode]
    rfl
  · have hnode : (m.mark partition l).node id = m.node id := if_neg hid
    have hedge : (m.mark partition l).edge id = m.edge id := by
      funext d
      exact if_neg fun h => hid h.1
    rw [if_neg hid, hnode, hedge]

end Marking

namespace Fabric

/-- The fabric with the marks of a marking. -/
def marked (f : Fabric β) (m : Marking) : Fabric β :=
  { f with
    nodes := f.nodes.mapValues fun id n => n.withMarks (m.node id) (m.edge id)
    links := f.links.mapValues fun k l => l.withMarks (m.link k) }

/-- A link of a marked fabric. -/
theorem links_marked (f : Fabric β) (m : Marking) (k : LinkId) :
    (f.marked m).links.get? k = (f.links.get? k).map (·.withMarks (m.link k)) :=
  OrderedMap.get?_mapValues _ _ _

/-- A node of a marked fabric. -/
theorem nodes_marked (f : Fabric β) (m : Marking) (id : NodeId) :
    (f.marked m).nodes.get? id = (f.nodes.get? id).map (·.withMarks (m.node id) (m.edge id)) :=
  OrderedMap.get?_mapValues _ _ _

/-- A link of a marked fabric is a link of the fabric, but for its marks. -/
theorem link_marked {f : Fabric β} {m : Marking} {k : LinkId} {l : Link β}
    (h : (f.marked m).links.get? k = some l) :
    ∃ l₀, f.links.get? k = some l₀ ∧ l = l₀.withMarks (m.link k) := by
  rw [links_marked] at h
  obtain ⟨l₀, hl₀, heq⟩ := Option.map_eq_some_iff.mp h
  exact ⟨l₀, hl₀, heq.symm⟩

/-- A node of a marked fabric is a node of the fabric, but for its marks. -/
theorem node_marked {f : Fabric β} {m : Marking} {id : NodeId} {n : Node β}
    (h : (f.marked m).nodes.get? id = some n) :
    ∃ n₀, f.nodes.get? id = some n₀ ∧ n = n₀.withMarks (m.node id) (m.edge id) := by
  rw [nodes_marked] at h
  obtain ⟨n₀, hn₀, heq⟩ := Option.map_eq_some_iff.mp h
  exact ⟨n₀, hn₀, heq.symm⟩

/-- Marking a link of a fabric extends the marking that the fabric carries. -/
theorem mark_marked (f : Fabric β) (m : Marking) (partition : Int) (l : Link β) :
    (f.marked m).mark partition l = f.marked (m.mark partition l) := by
  unfold mark marked OrderedMap.modify
  dsimp only
  rw [OrderedMap.mapValues_mapValues, OrderedMap.mapValues_mapValues]
  congr 1
  · apply OrderedMap.mapValues_congr
    intro e _
    exact m.withMarks_mark_node partition l e.1 e.2
  · apply OrderedMap.mapValues_congr
    intro e _
    exact m.withMarks_mark_link partition l e.1 e.2

/-- Marks leave the fabric bare as it was. -/
theorem bare_marked (f : Fabric β) (m : Marking) : (f.marked m).bare = f.bare := by
  unfold bare marked
  dsimp only
  rw [OrderedMap.mapValues_mapValues, OrderedMap.mapValues_mapValues]
  congr 1
  apply OrderedMap.mapValues_congr
  intro e _
  unfold Node.withMarks Node.bare
  dsimp only
  rw [OrderedMap.mapValues_mapValues]
  rfl

/-- Marks leave the links as they were, but for their marks. -/
theorem links_unmarked (f : Fabric β) (m : Marking) :
    ((f.marked m).links.mapValues fun _ l => l.withMarks ∅) =
      f.links.mapValues fun _ l => l.withMarks ∅ := by
  rw [marked, OrderedMap.mapValues_mapValues]
  rfl

/-- The fabric with its hosts in other partitions. -/
def reassigned (f : Fabric β) (partition : NodeId → Int) : Fabric β :=
  { f with
    nodes := f.nodes.mapValues fun id n =>
      if n.isHost then n.inPartition (partition id) else n }

/-- Other partitions leave the fabric bare as it was. -/
theorem bare_reassigned (f : Fabric β) (partition : NodeId → Int) :
    (f.reassigned partition).bare = f.bare := by
  unfold bare reassigned
  dsimp only
  rw [OrderedMap.mapValues_mapValues]
  congr 1
  apply OrderedMap.mapValues_congr
  intro e _
  split <;> rfl

end Fabric

end FabricPaths
