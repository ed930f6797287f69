import FabricPaths.Fabric.Resolve
import FabricPaths.Proofs.Fabric.Wiring

/-!
# What wiring does not depend on

Pairings, marks, partitions, forwarding tables and paths are put on a fabric
once it is wired. A fabric without all of these is bare; fabrics that are bare
alike are wired alike.
-/

namespace FabricPaths

variable {β : Type}

/-- The link without its pairing and its marks. -/
def Link.bare (l : Link β) : Link β := { l with otherLink := none, marks := ∅ }

/-- The edge without its pairing and its marks. -/
def Edge.bare (e : Edge β) : Edge β := { e with reverse := none, marks := ∅ }

/-- The node without its partition and its marks, and so its edges. -/
def Node.bare (n : Node β) : Node β :=
  { n with
    mainPartition := noPartition
    marks := ∅
    edges := n.edges.mapValues fun _ e => e.bare }

/-- The link paired with the link of a number, or with none. -/
def Link.pairedWith (l : Link β) (other : Option LinkId) : Link β := { l with otherLink := other }

/-- Links that are bare alike are one cable in one direction. -/
theorem Link.of_bare_eq {l l' : Link β} (h : l'.bare = l.bare) :
    l'.id = l.id ∧ l'.srcPort = l.srcPort ∧ l'.destPort = l.destPort ∧
      l'.parent = l.parent ∧ l'.dest = l.dest := by
  simp only [Link.bare, Link.mk.injEq] at h
  exact ⟨h.1, h.2.1, h.2.2.1, h.2.2.2.1, h.2.2.2.2.1⟩

/-- Edges that are bare alike list the same positions between the same nodes. -/
theorem Edge.of_bare_eq {e e' : Edge β} (h : e'.bare = e.bare) :
    e'.source = e.source ∧ e'.dest = e.dest ∧ e'.linkPorts = e.linkPorts := by
  simp only [Edge.bare, Edge.mk.injEq] at h
  exact ⟨h.1, h.2.1, h.2.2.2.1⟩

/-- Nodes that are bare alike have the same slots and subnodes, and edges that
are bare alike. -/
theorem Node.of_bare_eq {n n' : Node β} (h : n'.bare = n.bare) :
    n'.id = n.id ∧ n'.subnodes = n.subnodes ∧ n'.ports = n.ports ∧
      (n'.edges.mapValues fun _ e => e.bare) = n.edges.mapValues fun _ e => e.bare := by
  simp only [Node.bare, Node.mk.injEq] at h
  exact ⟨h.1, h.2.2.2.2.2.1, h.2.2.2.2.2.2.2.2.2, h.2.2.2.2.2.2.2.2.1⟩

/-- What a fabric holds apart from its nodes and links. -/
def Fabric.rest (f : Fabric β) : Fabric β := { f with nodes := ∅, links := ∅, asideLinks := ∅ }

/-- A fabric is told by its nodes, its links and the rest. -/
theorem Fabric.eq_of_rest {f g : Fabric β} (hrest : g.rest = f.rest) (hnodes : g.nodes = f.nodes)
    (hlinks : g.links = f.links) (haside : g.asideLinks = f.asideLinks) : g = f := by
  have hparts : ∀ f : Fabric β,
      f = { f.rest with nodes := f.nodes, links := f.links, asideLinks := f.asideLinks } :=
    fun _ => rfl
  rw [hparts g, hparts f, hrest, hnodes, hlinks, haside]

namespace Fabric

/-- The fabric without pairings, marks, partitions, tables and paths. -/
def bare (f : Fabric β) : Fabric β :=
  { subnet := f.subnet
    nodes := f.nodes.mapValues fun _ n => n.bare
    links := f.links.mapValues fun _ l => l.bare
    asideLinks := f.asideLinks.mapValues fun _ l => l.bare }

/-- The fabric with other forwarding tables. -/
def withRoutes (f : Fabric β) (routes : RoutingTables) : Fabric β := { f with routes }

/-- The fabric with other complete paths. -/
def withPaths (f : Fabric β) (paths : Paths) : Fabric β := { f with paths }

variable {f g : Fabric β}

/-- A bare fabric's slots are those of the fabric. -/
theorem linkIn?_bare (f : Fabric β) (id : NodeId) (i : Nat) :
    f.bare.linkIn? id i = f.linkIn? id i := by
  unfold linkIn? bare
  dsimp only
  rw [OrderedMap.get?_mapValues]
  cases f.nodes.get? id <;> rfl

/-- A bare fabric's edges list what those of the fabric list. -/
theorem listed_bare (f : Fabric β) (id d : NodeId) : f.bare.listed id d = f.listed id d := by
  unfold listed bare
  dsimp only
  rw [OrderedMap.get?_mapValues]
  cases f.nodes.get? id with
  | none => rfl
  | some n =>
    change Node.listed n.bare d = n.listed d
    unfold Node.listed Node.bare
    dsimp only
    rw [OrderedMap.get?_mapValues]
    cases n.edges.get? d <;> rfl

/-- Where one of two maps that are bare alike has a value, so has the other. -/
theorem get?_of_mapValues_eq {κ ν μ : Type} [DecidableEq κ] {m m' : OrderedMap κ ν}
    {p : ν → μ} (h : (m'.mapValues fun _ v => p v) = m.mapValues fun _ v => p v) {k : κ} {v : ν}
    (hv : m'.get? k = some v) : ∃ v', m.get? k = some v' ∧ p v' = p v := by
  have hget := congrArg (fun x => OrderedMap.get? x k) h
  simp only [OrderedMap.get?_mapValues, hv, Option.map_some] at hget
  exact Option.map_eq_some_iff.mp hget.symm

/-- A link of one of two fabrics that are bare alike is in the other. -/
theorem link_of_bare_eq (h : g.bare = f.bare) {k : LinkId} {l : Link β}
    (hl : g.links.get? k = some l) : ∃ l', f.links.get? k = some l' ∧ l'.bare = l.bare :=
  get?_of_mapValues_eq (congrArg Fabric.links h) hl

/-- A node of one of two fabrics that are bare alike is in the other. -/
theorem node_of_bare_eq (h : g.bare = f.bare) {id : NodeId} {n : Node β}
    (hn : g.nodes.get? id = some n) : ∃ n', f.nodes.get? id = some n' ∧ n'.bare = n.bare :=
  get?_of_mapValues_eq (congrArg Fabric.nodes h) hn

/-- Nodes that are bare alike fit alike. -/
theorem fit_of_bare_eq {n n' : Node β} {id : NodeId} (h : n'.bare = n.bare) (hfit : n'.Fit id) :
    n.Fit id := by
  obtain ⟨hid, hsub, hports, hedges⟩ := Node.of_bare_eq h
  constructor
  · exact hid.symm.trans hfit.id_eq
  · rw [← hsub]
    exact hfit.subnodes_nil
  · intro d e he
    obtain ⟨e', he', hbare⟩ := get?_of_mapValues_eq hedges.symm he
    obtain ⟨hsource, hdest, hlist⟩ := Edge.of_bare_eq hbare
    rw [← hid, ← hsource, ← hdest, ← hlist]
    exact hfit.edges_fit he'
  · rw [← hports]
    exact hfit.last_slot

/-- Links that are bare alike leave through the same slot. -/
theorem slotOf_of_bare_eq {l l' : Link β} (h : l'.bare = l.bare) : slotOf l' = slotOf l := by
  rw [slotOf, slotOf, (Link.of_bare_eq h).2.1]

/-- A fabric that is bare like a wired one is wired. -/
theorem Wired.of_bare_eq (w : f.Wired) (h : g.bare = f.bare) : g.Wired := by
  have hin : ∀ id i, g.linkIn? id i = f.linkIn? id i := by
    intro id i
    rw [← linkIn?_bare, h, linkIn?_bare]
  have hlisted : ∀ id d, g.listed id d = f.listed id d := by
    intro id d
    rw [← listed_bare, h, listed_bare]
  constructor
  case node_fit =>
    intro id n hn
    obtain ⟨n', hn', hbare⟩ := node_of_bare_eq h hn
    exact fit_of_bare_eq hbare (w.node_fit hn')
  case aside_nil =>
    have haside : g.bare.asideLinks.entries = f.bare.asideLinks.entries := by rw [h]
    change g.asideLinks.entries.map _ = f.asideLinks.entries.map _ at haside
    rw [w.aside_nil, List.map_nil] at haside
    exact List.map_eq_nil_iff.mp haside
  case link_id =>
    intro k l hl
    obtain ⟨l', hl', hbare⟩ := link_of_bare_eq h hl
    rw [← (Link.of_bare_eq hbare).1]
    exact w.link_id hl'
  case link_port =>
    intro k l hl
    obtain ⟨l', hl', hbare⟩ := link_of_bare_eq h hl
    rw [← (Link.of_bare_eq hbare).2.1]
    exact w.link_port hl'
  case link_plugged =>
    intro k l hl
    obtain ⟨l', hl', hbare⟩ := link_of_bare_eq h hl
    rw [hin, ← slotOf_of_bare_eq hbare, ← (Link.of_bare_eq hbare).2.2.2.1]
    exact w.link_plugged hl'
  case link_dest =>
    intro k l hl
    obtain ⟨l', hl', hbare⟩ := link_of_bare_eq h hl
    obtain ⟨n, hn⟩ := w.link_dest hl'
    obtain ⟨n', hn', -⟩ := node_of_bare_eq h.symm hn
    rw [← (Link.of_bare_eq hbare).2.2.2.2]
    exact ⟨n', hn'⟩
  case plugged_link =>
    intro id i k hk
    rw [hin] at hk
    obtain ⟨l, hl, hp, hs⟩ := w.plugged_link hk
    obtain ⟨l', hl', hbare⟩ := link_of_bare_eq h.symm hl
    exact ⟨l', hl', (Link.of_bare_eq hbare).2.2.2.1.trans hp, (slotOf_of_bare_eq hbare).trans hs⟩
  case ascending =>
    have hkeys : g.bare.links.keys = f.bare.links.keys := by rw [h]
    change (g.links.mapValues _).keys = (f.links.mapValues _).keys at hkeys
    rw [OrderedMap.keys_mapValues, OrderedMap.keys_mapValues] at hkeys
    rw [hkeys]
    exact w.ascending
  case mem_listed =>
    intro id d p
    rw [hlisted, w.mem_listed]
    simp only [hin]
    constructor
    · rintro ⟨i, k, l, hp, hk, hl, hd⟩
      obtain ⟨l', hl', hbare⟩ := link_of_bare_eq h.symm hl
      exact ⟨i, k, l', hp, hk, hl', (Link.of_bare_eq hbare).2.2.2.2.trans hd⟩
    · rintro ⟨i, k, l, hp, hk, hl, hd⟩
      obtain ⟨l', hl', hbare⟩ := link_of_bare_eq h hl
      exact ⟨i, k, l', hp, hk, hl', (Link.of_bare_eq hbare).2.2.2.2.trans hd⟩

/-- Changing a value in a way that does not show when bare changes nothing when bare. -/
theorem mapValues_modify_eq {κ ν μ : Type} [DecidableEq κ] {p : ν → μ} {c : ν → ν}
    (h : ∀ v, p (c v) = p v) (m : OrderedMap κ ν) (k : κ) :
    ((m.modify k c).mapValues fun _ v => p v) = m.mapValues fun _ v => p v := by
  rw [OrderedMap.modify, OrderedMap.mapValues_mapValues]
  refine OrderedMap.mapValues_congr fun e _ => ?_
  split
  · exact h e.2
  · rfl

/-- Changing the pairing or the marks of a link leaves the fabric bare as it was. -/
theorem bare_modifyLink (f : Fabric β) (id : LinkId) {c : Link β → Link β}
    (h : ∀ l, (c l).bare = l.bare) : (f.modifyLink id c).bare = f.bare := by
  unfold bare modifyLink
  dsimp only
  rw [mapValues_modify_eq h, mapValues_modify_eq h]

/-- Another fabric with some links paired as they are in this one. -/
def pairing (f : Fabric β) (ls : List (Link β)) (g : Fabric β) : Fabric β :=
  ls.foldl (fun g l => g.modifyLink l.id (·.pairedWith (f.returnId? l))) g

/-- The fabric with its links paired. -/
def pairLinks (f : Fabric β) : Fabric β := f.pairing f.pairedLinks f

/-- What pairing one link leaves alone, pairing several of them leaves alone. -/
theorem pairing_frame {γ : Type} {p : Fabric β → γ}
    (h : ∀ g id other, p (g.modifyLink id (·.pairedWith other)) = p g) (f : Fabric β)
    (ls : List (Link β)) (g : Fabric β) : p (f.pairing ls g) = p g := by
  unfold pairing
  induction ls generalizing g with
  | nil => rfl
  | cons l ls ih =>
    rw [List.foldl_cons, ih]
    exact h g l.id _

/-- What pairing one link leaves alone, pairing all of them leaves alone. -/
theorem pairLinks_frame {γ : Type} {p : Fabric β → γ}
    (h : ∀ g id other, p (g.modifyLink id (·.pairedWith other)) = p g) (f : Fabric β) :
    p f.pairLinks = p f :=
  f.pairing_frame h f.pairedLinks f

/-- Pairing links leaves the fabric bare as it was. -/
theorem bare_pairing (f : Fabric β) (ls : List (Link β)) (g : Fabric β) :
    (f.pairing ls g).bare = g.bare :=
  f.pairing_frame (fun g id _ => g.bare_modifyLink id fun _ => rfl) ls g

/-- Pairing the links leaves the fabric bare as it was. -/
theorem bare_pairLinks (f : Fabric β) : f.pairLinks.bare = f.bare :=
  f.bare_pairing f.pairedLinks f

/-- Pairing the edges leaves the fabric bare as it was. -/
theorem bare_pairEdges (f : Fabric β) : f.pairEdges.bare = f.bare := by
  unfold bare pairEdges
  dsimp only
  rw [OrderedMap.mapValues_mapValues]
  congr 1
  apply OrderedMap.mapValues_congr
  intro e _
  unfold Node.bare
  dsimp only
  rw [OrderedMap.mapValues_mapValues]
  rfl

end Fabric

end FabricPaths
