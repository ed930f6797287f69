import Mathlib.Order.Hom.Basic
import FabricPaths.Proofs.Path.Mirroring

/-!
# Fabrics under other link numbers

The numbers of links are names: a fabric whose links are renumbered in order is the same
fabric. `Renumbers` says so of two fabrics up to the bandwidths of edges, which no walk
reads. First links and walks correspond link by link, and use the same ports.
-/

namespace FabricPaths

namespace OrderedMap

variable {κ ι ν : Type}

/-- The map with other keys. -/
def mapKeys (ρ : κ ↪ ι) (m : OrderedMap κ ν) : OrderedMap ι ν :=
  ⟨m.entries.map fun e => (ρ e.1, e.2), by
    have hkeys : (m.entries.map fun e => (ρ e.1, e.2)).map Prod.fst =
        (m.entries.map Prod.fst).map ρ := by
      rw [List.map_map, List.map_map]
      rfl
    rw [hkeys]
    exact m.nodup_keys.map ρ.injective⟩

/-- The other keys come in the order of the keys. -/
theorem keys_mapKeys (ρ : κ ↪ ι) (m : OrderedMap κ ν) : (m.mapKeys ρ).keys = m.keys.map ρ := by
  rw [keys, keys, mapKeys, List.map_map, List.map_map]
  rfl

variable [DecidableEq κ] [DecidableEq ι]

/-- What is found under another key was found under its key. -/
theorem get?_mapKeys_eq_some_iff {ρ : κ ↪ ι} {m : OrderedMap κ ν} {x : ι} {v : ν} :
    (m.mapKeys ρ).get? x = some v ↔ ∃ k, x = ρ k ∧ m.get? k = some v := by
  simp only [← mem_entries_iff]
  constructor
  · intro h
    obtain ⟨⟨k, v'⟩, he, heq⟩ := List.mem_map.mp h
    cases heq
    exact ⟨k, rfl, he⟩
  · rintro ⟨k, rfl, he⟩
    exact List.mem_map.mpr ⟨(k, v), he, rfl⟩

/-- What is found under a key is found under its other key. -/
@[simp] theorem get?_mapKeys (ρ : κ ↪ ι) (m : OrderedMap κ ν) (k : κ) :
    (m.mapKeys ρ).get? (ρ k) = m.get? k := by
  apply Option.ext
  intro v
  rw [get?_mapKeys_eq_some_iff]
  constructor
  · rintro ⟨k', hk', hv⟩
    rw [ρ.injective hk']
    exact hv
  · exact fun hv => ⟨k, rfl, hv⟩

end OrderedMap

variable {β : Type}

/-- The link under its other number. -/
def Link.renumbered (ρ : LinkId → LinkId) (l : Link β) : Link β :=
  { l with id := ρ l.id, otherLink := l.otherLink.map ρ }

/-- A renumbered link is the same cable. -/
theorem Link.mirrors_renumbered (ρ : LinkId → LinkId) (l : Link β) :
    l.Mirrors ρ (l.renumbered ρ) :=
  ⟨rfl, rfl, rfl, rfl⟩

/-- The links under their other numbers. -/
def renumberedLinks (ρ : LinkId ↪o LinkId) (links : OrderedMap LinkId (Link β)) :
    OrderedMap LinkId (Link β) :=
  (links.mapValues fun _ l => l.renumbered ρ).mapKeys ρ.toEmbedding

/-- A link is found under its other number. -/
theorem get?_renumberedLinks (ρ : LinkId ↪o LinkId) (links : OrderedMap LinkId (Link β))
    (k : LinkId) :
    (renumberedLinks ρ links).get? (ρ k) = (links.get? k).map (·.renumbered ρ) := by
  change ((links.mapValues fun _ l => l.renumbered ρ).mapKeys ρ.toEmbedding).get?
    (ρ.toEmbedding k) = _
  rw [OrderedMap.get?_mapKeys, OrderedMap.get?_mapValues]

/-- What is found under another number is a link under its other number. -/
theorem renumberedLinks_eq_some_iff {ρ : LinkId ↪o LinkId}
    {links : OrderedMap LinkId (Link β)} {k' : LinkId} {l' : Link β} :
    (renumberedLinks ρ links).get? k' = some l' ↔
      ∃ k l, k' = ρ k ∧ links.get? k = some l ∧ l' = l.renumbered ρ := by
  unfold renumberedLinks
  rw [OrderedMap.get?_mapKeys_eq_some_iff]
  simp only [OrderedMap.get?_mapValues, Option.map_eq_some_iff]
  constructor
  · rintro ⟨k, hk, l, hl, rfl⟩
    exact ⟨k, l, hk, hl, rfl⟩
  · rintro ⟨k, l, hk, hl, rfl⟩
    exact ⟨k, hk, l, hl, rfl⟩

/-- Numbers that ascend still do once they are other numbers. -/
theorem ascending_renumberedLinks (ρ : LinkId ↪o LinkId) {links : OrderedMap LinkId (Link β)}
    (h : links.keys.Pairwise (· < ·)) : (renumberedLinks ρ links).keys.Pairwise (· < ·) := by
  rw [renumberedLinks, OrderedMap.keys_mapKeys, OrderedMap.keys_mapValues, List.pairwise_map]
  exact h.imp fun hlt => ρ.lt_iff_lt.mpr hlt

/-- The node with other numbers in its slots. -/
def Node.renumbered (ρ : LinkId → LinkId) (n : Node β) : Node β :=
  { n with ports := n.ports.map (Option.map ρ) }

/-- The fabric with other numbers for its links. -/
def Fabric.renumbered (ρ : LinkId ↪o LinkId) (f : Fabric β) : Fabric β :=
  { f with
    nodes := f.nodes.mapValues fun _ n => n.renumbered ρ
    asideNodes := f.asideNodes.map (·.renumbered ρ)
    links := renumberedLinks ρ f.links
    asideLinks := renumberedLinks ρ f.asideLinks
    paths := f.paths.mapValues fun _ dests => dests.mapValues fun _ path => path.map ρ }

/-- The ports through which links leave. -/
def Fabric.portsOf (f : Fabric β) (links : List LinkId) : List (Option Int) :=
  links.map fun k => (f.links.get? k).map (·.srcPort)

section Unweighed

variable [Bandwidth β]

/-- The edge without its bandwidth. -/
def Edge.unweighed (e : Edge β) : Edge β := { e with gbits := Bandwidth.none }

/-- The node without the bandwidths of its edges. -/
def Node.unweighed (n : Node β) : Node β :=
  { n with edges := n.edges.mapValues fun _ e => e.unweighed }

/-- The fabric without the bandwidths of its edges. -/
def Fabric.unweighed (f : Fabric β) : Fabric β :=
  { f with
    nodes := f.nodes.mapValues fun _ n => n.unweighed
    asideNodes := f.asideNodes.map (·.unweighed) }

/-- The first position of a node does not depend on bandwidths. -/
theorem Node.firstPosition?_unweighed (n : Node β) :
    n.unweighed.firstPosition? = n.firstPosition? := by
  have hvalues : n.unweighed.edges.values = n.edges.values.map Edge.unweighed :=
    OrderedMap.values_mapValues Edge.unweighed n.edges
  rw [firstPosition?, hvalues, List.findSome?_map]
  rfl

/-- The second node is the first under other link numbers, bandwidths apart. -/
def Node.Renumbers (ρ : LinkId → LinkId) (n n' : Node β) : Prop :=
  n'.unweighed = (n.renumbered ρ).unweighed

/-- The second fabric is the first under other link numbers, bandwidths of edges apart. -/
def Fabric.Renumbers (ρ : LinkId ↪o LinkId) (f g : Fabric β) : Prop :=
  g.unweighed = (f.renumbered ρ).unweighed

end Unweighed

/-- The link at a position is the one of its slot, under its other number. -/
theorem Node.listedLink_renumbered {ρ : LinkId → LinkId} {n n' : Node β}
    (hports : n'.ports = n.ports.map (Option.map ρ)) (position : Int) :
    n'.listedLink position = (n.listedLink position).map (Option.map ρ) := by
  have hslot : n'.slotAt? position = n.slotAt? position := by
    cases position with
    | ofNat i => rw [slotAt?, slotAt?, hports, List.length_map]
    | negSucc i => rw [slotAt?, slotAt?, hports, List.length_map]
  rw [listedLink, listedLink, hslot]
  cases n.slotAt? position with
  | none => rfl
  | some slot =>
    dsimp only
    rw [hports, List.getElem?_map]
    cases n.ports[slot]? <;> rfl

/-- The link at a port is the one of its slot, under its other number. -/
theorem Node.linkAt?_renumbered {ρ : LinkId → LinkId} {n n' : Node β}
    (hports : n'.ports = n.ports.map (Option.map ρ)) (port : Int) :
    n'.linkAt? port = (n.linkAt? port).map ρ := by
  rw [linkAt?, linkAt?, slotOf?, slotOf?, hports, List.length_map]
  split
  · rw [Option.bind_some, Option.bind_some, List.getElem?_map]
    cases n.ports[(port - 1).toNat]? <;> rfl
  · rfl

variable [Bandwidth β] {ρ : LinkId ↪o LinkId} {f g : Fabric β}

namespace Node.Renumbers

variable {n n' : Node β}

/-- The node has the same identifier. -/
theorem id_eq (h : n.Renumbers ρ n') : n'.id = n.id :=
  (congrArg Node.id h : n'.unweighed.id = _)

/-- The node is called the same. -/
theorem display_eq (h : n.Renumbers ρ n') : n'.display = n.display :=
  (congrArg Node.display h : n'.unweighed.display = _)

/-- The slots hold the other numbers. -/
theorem ports_eq (h : n.Renumbers ρ n') : n'.ports = n.ports.map (Option.map ρ) :=
  (congrArg Node.ports h : n'.unweighed.ports = _)

/-- The first position is the same. -/
theorem firstPosition?_eq (h : n.Renumbers ρ n') : n'.firstPosition? = n.firstPosition? := by
  have hsame : n'.unweighed.firstPosition? = (n.renumbered ρ).unweighed.firstPosition? :=
    congrArg Node.firstPosition? h
  rw [n'.firstPosition?_unweighed, (n.renumbered ρ).firstPosition?_unweighed] at hsame
  exact hsame

/-- The first link is the same, under its other number. -/
theorem firstLink?_eq (h : n.Renumbers ρ n') :
    n'.firstLink? = n.firstLink?.map (Option.map ρ) := by
  have hposition : (n'.edges.values.findSome? fun e => e.linkPorts.head?) =
      n.edges.values.findSome? fun e => e.linkPorts.head? := h.firstPosition?_eq
  rw [firstLink?, firstLink?, hposition]
  cases n.edges.values.findSome? fun e => e.linkPorts.head? with
  | none => rfl
  | some position => exact listedLink_renumbered h.ports_eq position

end Node.Renumbers

namespace Fabric.Renumbers

/-- Tables may be put on both fabrics. -/
theorem withRoutes (h : f.Renumbers ρ g) (routes : RoutingTables) :
    (f.withRoutes routes).Renumbers ρ (g.withRoutes routes) := by
  have hroutes : (g.unweighed.withRoutes routes) =
      ((f.renumbered ρ).unweighed.withRoutes routes) :=
    congrArg (Fabric.withRoutes · routes) h
  exact hroutes

/-- The tables are the same. -/
theorem routes_eq (h : f.Renumbers ρ g) : g.routes = f.routes :=
  (congrArg Fabric.routes h : g.unweighed.routes = _)

/-- A link has its other number. -/
theorem links_get? (h : f.Renumbers ρ g) (k : LinkId) :
    g.links.get? (ρ k) = (f.links.get? k).map (·.renumbered ρ) := by
  have hlinks : g.links = renumberedLinks ρ f.links :=
    (congrArg Fabric.links h : g.unweighed.links = _)
  rw [hlinks, get?_renumberedLinks]

/-- A link has its other number, whether it is indexed or not. -/
theorem anyLink?_eq (h : f.Renumbers ρ g) (k : LinkId) :
    g.anyLink? (ρ k) = (f.anyLink? k).map (·.renumbered ρ) := by
  have haside : g.asideLinks = renumberedLinks ρ f.asideLinks :=
    (congrArg Fabric.asideLinks h : g.unweighed.asideLinks = _)
  rw [anyLink?, anyLink?, h.links_get?, haside, get?_renumberedLinks]
  cases f.links.get? k with
  | none => rw [Option.map_none, Option.none_or, Option.none_or]
  | some l => rfl

/-- Links use the ports that they used under their former numbers. -/
theorem portsOf_eq (h : f.Renumbers ρ g) (links : List LinkId) :
    g.portsOf (links.map ρ) = f.portsOf links := by
  unfold portsOf
  rw [List.map_map]
  refine List.map_congr_left fun k _ => ?_
  rw [Function.comp_apply, h.links_get?, Option.map_map]
  rfl

/-- Nodes correspond. -/
theorem node (h : f.Renumbers ρ g) {v : NodeId} {n : Node β} (hn : f.nodes.get? v = some n) :
    ∃ n', g.nodes.get? v = some n' ∧ n.Renumbers ρ n' := by
  have hnodes : (g.nodes.mapValues fun _ n => n.unweighed) =
      (f.nodes.mapValues fun _ n => n.renumbered ρ).mapValues fun _ n => n.unweighed :=
    congrArg Fabric.nodes h
  have hn' : (f.nodes.mapValues fun _ n => n.renumbered ρ).get? v = some (n.renumbered ρ) := by
    rw [OrderedMap.get?_mapValues, hn, Option.map_some]
  exact get?_of_mapValues_eq hnodes.symm hn'

/-- A node that is not known is not known. -/
theorem node_eq_none (h : f.Renumbers ρ g) {v : NodeId} (hn : f.nodes.get? v = none) :
    g.nodes.get? v = none := by
  have hnodes : (g.nodes.mapValues fun _ n => n.unweighed) =
      (f.nodes.mapValues fun _ n => n.renumbered ρ).mapValues fun _ n => n.unweighed :=
    congrArg Fabric.nodes h
  have hget := congrArg (OrderedMap.get? · v) hnodes
  rw [OrderedMap.get?_mapValues, OrderedMap.get?_mapValues, OrderedMap.get?_mapValues, hn] at hget
  exact Option.map_eq_none_iff.mp hget

variable {n n' : Node β}

/-- Nodes that correspond have corresponding first links. -/
theorem firstLink?_eq (h : f.Renumbers ρ g) (hn : n.Renumbers ρ n') :
    g.firstLink? n' = (f.firstLink? n).map (Option.map (·.renumbered ρ)) := by
  rw [firstLink?, firstLink?, hn.firstLink?_eq]
  cases n.firstLink? with
  | error e => rfl
  | ok first =>
    cases first with
    | none => rfl
    | some k => exact congrArg Except.ok (h.anyLink?_eq k)

/-- Nodes that correspond have corresponding links at their ports. -/
theorem linkAt?_eq (h : f.Renumbers ρ g) (hn : n.Renumbers ρ n') (port : Int) :
    g.linkAt? n' port = (f.linkAt? n port).map (·.renumbered ρ) := by
  rw [linkAt?, linkAt?, Node.linkAt?_renumbered hn.ports_eq]
  cases n.linkAt? port with
  | none => rfl
  | some k => exact h.anyLink?_eq k

/-- Nodes that correspond do the same with traffic. -/
theorem forwarding_mirrors (h : f.Renumbers ρ g) (hn : n.Renumbers ρ n') (dest : NodeId) :
    (f.forwarding n dest).Mirrors ρ (g.forwarding n' dest) := by
  unfold forwarding
  rw [h.routes_eq, hn.id_eq]
  cases f.routes.get? n.id with
  | none => exact .noTable
  | some table =>
    dsimp only
    cases table.egressPort? dest with
    | none => exact .noEntry
    | some port =>
      dsimp only
      rw [h.linkAt?_eq hn]
      cases f.linkAt? n port with
      | none => exact .deadPort port
      | some l => exact .along (l.mirrors_renumbered ρ)

/-- The fabric under other numbers answers for the fabric in all walks. -/
theorem mirrors (h : f.Renumbers ρ g) (dest : NodeId) : f.Mirrors ρ (fun _ => True) dest g where
  known := by
    intro v n hn
    obtain ⟨n', hn', hrenumbers⟩ := h.node hn
    exact ⟨n', hn', hrenumbers.id_eq, hrenumbers.display_eq, fun _ =>
      h.forwarding_mirrors hrenumbers dest⟩
  unknown := fun _ _ hn => h.node_eq_none hn

/-- Walks take the same course, along links under other numbers. -/
theorem traceBetween_eq (h : f.Renumbers ρ g) (source dest : NodeId) :
    g.traceBetween source dest = (f.traceBetween source dest).map (·.renumbered ρ) := by
  unfold traceBetween Fabric.node
  cases hsrc : f.nodes.get? source with
  | none =>
    rw [h.node_eq_none hsrc]
    rfl
  | some src =>
    obtain ⟨src', hsrc', hsource⟩ := h.node hsrc
    rw [hsrc']
    cases hdst : f.nodes.get? dest with
    | none =>
      rw [h.node_eq_none hdst]
      rfl
    | some dst =>
      obtain ⟨dst', hdst', hdest⟩ := h.node hdst
      rw [hdst']
      change g.trace src' dst' = (f.trace src dst).map _
      have hfirst := h.firstLink?_eq hsource
      cases hf : f.firstLink? src with
      | error e =>
        rw [hf] at hfirst
        rw [trace, trace, hfirst, hf]
        rfl
      | ok first =>
        rw [hf] at hfirst
        have hmirrors : FirstMirrors ρ (fun _ => True) first (first.map (·.renumbered ρ)) := by
          cases first with
          | none => exact fun _ => rfl
          | some l => exact ⟨_, rfl, l.mirrors_renumbered ρ⟩
        exact (h.mirrors dst.id).trace_eq hsource.id_eq hdest.id_eq hdest.display_eq hf hfirst
          hmirrors

end Fabric.Renumbers

end FabricPaths
