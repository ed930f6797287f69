import FabricPaths.Proofs.Fabric.Wiring

/-!
# Links, slots and edges agree

What it means for a fabric to be wired, said of each pair of its views in the
words in which the views are read: links and slots are in bijection, each edge
lists just the slots of its links, and no list of slots ends in an empty one.
-/

namespace FabricPaths.Fabric

variable {β : Type}

/-- The indexed links are just those in the slots; `next` is above their numbers. -/
structure LinksMatchSlots (f : Fabric β) (next : LinkId) : Prop where
  /-- Nodes are kept under their own identifiers. -/
  node_key : ∀ id n, f.nodes.get? id = some n → n.id = id
  /-- Links are kept under their own numbers, which are below the next one. -/
  link_key : ∀ k l, f.links.get? k = some l → l.id = k ∧ k < next
  /-- Both ends of a link are known nodes. -/
  ends_known : ∀ k l, f.links.get? k = some l → l.parent ∈ f.nodes.keys ∧ l.dest ∈ f.nodes.keys
  /-- A link is in the slot of its source port. -/
  link_slot : ∀ k l, f.links.get? k = some l → 1 ≤ l.srcPort ∧
    ∃ n, f.nodes.get? l.parent = some n ∧ n.ports[(l.srcPort - 1).toNat]? = some (some k)
  /-- An occupied slot holds an indexed link of its node and its port. -/
  slot_link : ∀ id n, f.nodes.get? id = some n → ∀ (i : Nat) k, n.ports[i]? = some (some k) →
    ∃ l, f.links.get? k = some l ∧ l.parent = n.id ∧ l.srcPort = i + 1
  /-- Links are indexed in the order of their numbers. -/
  ascending : f.links.keys.Pairwise (· < ·)

/-- The edges list just the occupied slots, each on the edge to the node where
its link ends. -/
structure EdgesMatchSlots (f : Fabric β) : Prop where
  /-- An edge runs from its node to the node under which it is kept. -/
  ends : ∀ id n, f.nodes.get? id = some n → ∀ d e, n.edges.get? d = some e →
    e.source = n.id ∧ e.dest = d
  /-- An edge lists positions, none twice. -/
  listing : ∀ id n, f.nodes.get? id = some n → ∀ d e, n.edges.get? d = some e →
    e.linkPorts ≠ [] ∧ e.linkPorts.Nodup
  /-- An edge lists the slots whose links end where it ends. -/
  mem_linkPorts : ∀ id n, f.nodes.get? id = some n → ∀ d e, n.edges.get? d = some e →
    ∀ p, p ∈ e.linkPorts ↔ ∃ (i : Nat) (k : LinkId) (l : Link β),
      p = i ∧ n.ports[i]? = some (some k) ∧ f.links.get? k = some l ∧ l.dest = d
  /-- An occupied slot is listed on exactly one edge. -/
  one_edge : ∀ id n, f.nodes.get? id = some n → ∀ (i : Nat) k, n.ports[i]? = some (some k) →
    ∃! d, ∃ e, n.edges.get? d = some e ∧ (i : Int) ∈ e.linkPorts

/-- A list of slots that is not empty ends in an occupied one. -/
def SlotsEndOccupied (f : Fabric β) : Prop :=
  ∀ id n, f.nodes.get? id = some n → n.ports ≠ [] → ∃ k, n.ports.getLast? = some (some k)

namespace Wired

variable {f : Fabric β}

/-- A slot holds a number when the list of slots has it there. -/
theorem linkIn?_eq_some_iff {id : NodeId} {n : Node β} (hn : f.nodes.get? id = some n) {i : Nat}
    {k : LinkId} : f.linkIn? id i = some k ↔ n.ports[i]? = some (some k) := by
  rw [linkIn?_of_node hn, Node.linkIn?, Option.join_eq_some_iff]

/-- The source of a link is a known node. -/
theorem link_parent (w : f.Wired) {k : LinkId} {l : Link β} (hl : f.links.get? k = some l) :
    ∃ n, f.nodes.get? l.parent = some n := by
  have hslot := w.link_plugged hl
  rw [linkIn?] at hslot
  obtain ⟨n, hn, -⟩ := Option.bind_eq_some_iff.mp hslot
  exact ⟨n, hn⟩

/-- The links of a wired fabric are those in its slots. -/
theorem linksMatchSlots (w : f.Wired) {next : LinkId} (hnext : ∀ k ∈ f.links.keys, k < next) :
    f.LinksMatchSlots next where
  node_key := fun id n hn => (w.node_fit hn).id_eq
  link_key := fun k l hl => ⟨w.link_id hl, hnext k (OrderedMap.mem_keys_of_get? hl)⟩
  ends_known := fun k l hl =>
    ⟨OrderedMap.mem_keys_iff.mpr (w.link_parent hl), OrderedMap.mem_keys_iff.mpr (w.link_dest hl)⟩
  link_slot := by
    intro k l hl
    obtain ⟨n, hn⟩ := w.link_parent hl
    exact ⟨w.link_port hl, n, hn, (linkIn?_eq_some_iff hn).mp (w.link_plugged hl)⟩
  slot_link := by
    intro id n hn i k hk
    obtain ⟨l, hl, hparent, hslot⟩ := w.plugged_link ((linkIn?_eq_some_iff hn).mpr hk)
    have hport := w.link_port hl
    refine ⟨l, hl, hparent.trans (w.node_fit hn).id_eq.symm, ?_⟩
    rw [slotOf] at hslot
    omega
  ascending := w.ascending

/-- What an edge of a wired fabric lists. -/
theorem mem_linkPorts (w : f.Wired) {id : NodeId} {n : Node β} (hn : f.nodes.get? id = some n)
    {d : NodeId} {e : Edge β} (he : n.edges.get? d = some e) (p : Int) :
    p ∈ e.linkPorts ↔ ∃ (i : Nat) (k : LinkId) (l : Link β),
      p = i ∧ n.ports[i]? = some (some k) ∧ f.links.get? k = some l ∧ l.dest = d := by
  have hlisted : f.listed id d = e.linkPorts := by
    rw [listed_of_node hn, Node.listed, he]
  rw [← hlisted, w.mem_listed]
  simp only [linkIn?_eq_some_iff hn]

/-- An occupied slot of a wired fabric has its edge. -/
theorem exists_edge (w : f.Wired) {id : NodeId} {n : Node β} (hn : f.nodes.get? id = some n)
    {i : Nat} {k : LinkId} (hk : n.ports[i]? = some (some k)) {l : Link β}
    (hl : f.links.get? k = some l) :
    ∃ e, n.edges.get? l.dest = some e ∧ (i : Int) ∈ e.linkPorts := by
  have hin : (i : Int) ∈ n.listed l.dest := by
    rw [← listed_of_node hn, w.mem_listed]
    exact ⟨i, k, l, rfl, (linkIn?_eq_some_iff hn).mpr hk, hl, rfl⟩
  unfold Node.listed at hin
  cases he : n.edges.get? l.dest with
  | none =>
    rw [he] at hin
    exact nomatch hin
  | some e =>
    rw [he] at hin
    exact ⟨e, rfl, hin⟩

/-- The edges of a wired fabric list its occupied slots. -/
theorem edgesMatchSlots (w : f.Wired) : f.EdgesMatchSlots where
  ends := by
    intro id n hn d e he
    obtain ⟨hs, hd, -, -⟩ := (w.node_fit hn).edges_fit he
    exact ⟨hs, hd⟩
  listing := by
    intro id n hn d e he
    exact ((w.node_fit hn).edges_fit he).2.2
  mem_linkPorts := fun id n hn d e he => w.mem_linkPorts hn he
  one_edge := by
    intro id n hn i k hk
    obtain ⟨l, hl, -, -⟩ := w.plugged_link ((linkIn?_eq_some_iff hn).mpr hk)
    refine ⟨l.dest, w.exists_edge hn hk hl, ?_⟩
    rintro d ⟨e, he, hin⟩
    obtain ⟨j, k', l', hj, hk', hl', hd⟩ := (w.mem_linkPorts hn he _).mp hin
    have hij : j = i := by omega
    rw [hij, hk] at hk'
    cases hk'
    rw [hl] at hl'
    cases hl'
    exact hd.symm

/-- The lists of slots of a wired fabric end in occupied slots. -/
theorem slotsEndOccupied (w : f.Wired) : f.SlotsEndOccupied := by
  intro id n hn hne
  have hlast := (w.node_fit hn).last_slot
  obtain ⟨slot, hslot⟩ := Option.ne_none_iff_exists'.mp (mt List.getLast?_eq_none_iff.mp hne)
  cases slot with
  | none => exact absurd hslot hlast
  | some k => exact ⟨k, hslot⟩

end Wired

end FabricPaths.Fabric
