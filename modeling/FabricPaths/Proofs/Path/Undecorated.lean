import FabricPaths.Extract.Narration
import FabricPaths.Proofs.Path.Mirroring

/-!
# Walks do not see decorations

A walk reads the forwarding tables of a fabric, and of the fabric nothing but what is left of
it when it is bare. Pairings, marks, partitions and paths make no difference to a walk, to the
event that tells of it, and to the pairs of hosts between which a survey walks.
-/

namespace FabricPaths

variable {β : Type}

/-- Links that are bare alike are one cable under one number. -/
theorem mirrors_of_bare_eq {l l' : Link β} (h : l'.bare = l.bare) : l.Mirrors id l' := by
  obtain ⟨hid, hport, -, hparent, hdest⟩ := Link.of_bare_eq h
  exact ⟨hid, hport, hparent, hdest⟩

namespace Node

variable {n n' : Node β}

/-- The first position of a node is that of the bare node. -/
theorem firstPosition?_bare (n : Node β) : n.bare.firstPosition? = n.firstPosition? := by
  have hvalues : n.bare.edges.values = n.edges.values.map Edge.bare :=
    OrderedMap.values_mapValues Edge.bare n.edges
  rw [firstPosition?, hvalues, List.findSome?_map]
  rfl

/-- Nodes that are bare alike have the same first link. -/
theorem firstLink?_of_bare_eq (h : n'.bare = n.bare) : n'.firstLink? = n.firstLink? := by
  have hbare : ∀ n : Node β, n.bare.firstLink? = n.firstLink? := by
    intro n
    have hposition : (n.bare.edges.values.findSome? fun e => e.linkPorts.head?) =
        n.edges.values.findSome? fun e => e.linkPorts.head? := n.firstPosition?_bare
    rw [firstLink?, firstLink?, hposition]
    rfl
  rw [← hbare n', h, hbare n]

/-- Nodes that are bare alike have the same links at their ports. -/
theorem linkAt?_of_bare_eq (h : n'.bare = n.bare) (port : Int) :
    n'.linkAt? port = n.linkAt? port :=
  (congrArg (Node.linkAt? · port) h : n'.bare.linkAt? port = n.bare.linkAt? port)

/-- Nodes that are bare alike have the same identifier. -/
theorem id_of_bare_eq (h : n'.bare = n.bare) : n'.id = n.id := (of_bare_eq h).1

/-- Nodes that are bare alike have the same host name. -/
theorem hostname_of_bare_eq (h : n'.bare = n.bare) : n'.hostname = n.hostname :=
  (congrArg Node.hostname h : n'.bare.hostname = n.bare.hostname)

/-- Nodes that are bare alike are called the same. -/
theorem display_of_bare_eq (h : n'.bare = n.bare) : n'.display = n.display :=
  (congrArg Node.display h : n'.bare.display = n.bare.display)

end Node

namespace Fabric

/-- The second fabric is the first with other pairings, marks, partitions and paths. -/
structure Redecorates (f g : Fabric β) : Prop where
  /-- The fabrics are bare alike. -/
  bare_eq : g.bare = f.bare
  /-- They have the same forwarding tables. -/
  routes_eq : g.routes = f.routes

/-- The host name of a node, or nothing if the node is not known. -/
def hostnameOf (f : Fabric β) (id : NodeId) : String :=
  ((f.nodes.get? id).map (·.hostname)).getD ""

/-- The hosts of a wired fabric are known by their names. -/
theorem Wired.hostnameOf_hosts {f : Fabric β} (w : f.Wired) :
    (f.hosts.map (·.id)).map f.hostnameOf = f.hosts.map (·.hostname) := by
  rw [List.map_map]
  refine List.map_congr_left fun n hn => ?_
  have hget := w.get?_of_mem_values (List.mem_filter.mp hn).1
  rw [Function.comp_apply, hostnameOf, hget]
  rfl

namespace Redecorates

variable {f g : Fabric β} {n n' src src' dst dst' : Node β}

/-- A link is bare as it is in the other fabric, whether it is indexed or not. -/
theorem anyLink?_bare (h : f.Redecorates g) (k : LinkId) :
    (g.anyLink? k).map Link.bare = (f.anyLink? k).map Link.bare := by
  have hbare : ∀ f : Fabric β, f.bare.anyLink? k = (f.anyLink? k).map Link.bare := by
    intro f
    unfold anyLink? bare
    dsimp only
    rw [OrderedMap.get?_mapValues, OrderedMap.get?_mapValues]
    cases f.links.get? k <;> rfl
  rw [← hbare g, h.bare_eq, hbare f]

/-- Nodes that are bare alike have first links that are. -/
theorem firstLink?_bare (h : f.Redecorates g) (hn : n'.bare = n.bare) :
    (g.firstLink? n').map (Option.map Link.bare) = (f.firstLink? n).map (Option.map Link.bare) := by
  rw [firstLink?, firstLink?, Node.firstLink?_of_bare_eq hn]
  cases n.firstLink? with
  | error e => rfl
  | ok first =>
    cases first with
    | none => rfl
    | some k => exact congrArg Except.ok (h.anyLink?_bare k)

/-- Nodes that are bare alike do the same with traffic. -/
theorem forwarding_mirrors (h : f.Redecorates g) (hn : n'.bare = n.bare) (dest : NodeId) :
    (f.forwarding n dest).Mirrors id (g.forwarding n' dest) := by
  have hlink : ∀ port, (g.linkAt? n' port).map Link.bare = (f.linkAt? n port).map Link.bare := by
    intro port
    rw [linkAt?, linkAt?, Node.linkAt?_of_bare_eq hn]
    cases n.linkAt? port with
    | none => rfl
    | some k => exact h.anyLink?_bare k
  unfold forwarding
  rw [h.routes_eq, Node.id_of_bare_eq hn]
  cases f.routes.get? n.id with
  | none => exact .noTable
  | some table =>
    dsimp only
    cases table.egressPort? dest with
    | none => exact .noEntry
    | some port =>
      have hport := hlink port
      dsimp only
      generalize f.linkAt? n port = l, g.linkAt? n' port = l' at hport
      cases l with
      | none =>
        cases Option.map_eq_none_iff.mp hport
        exact .deadPort port
      | some l =>
        obtain ⟨l', rfl, hl⟩ := Option.map_eq_some_iff.mp hport
        exact .along (mirrors_of_bare_eq hl)

/-- The redecorated fabric answers for the fabric in all walks. -/
theorem mirrors (h : f.Redecorates g) (dest : NodeId) :
    f.Mirrors id (fun _ => True) dest g where
  known := by
    intro v n hn
    obtain ⟨n', hn', hbare⟩ := node_of_bare_eq h.bare_eq.symm hn
    exact ⟨n', hn', Node.id_of_bare_eq hbare, Node.display_of_bare_eq hbare, fun _ =>
      h.forwarding_mirrors hbare dest⟩
  unknown := by
    intro _ v hn
    cases hn' : g.nodes.get? v with
    | none => rfl
    | some n' =>
      obtain ⟨n, hknown, -⟩ := node_of_bare_eq h.bare_eq hn'
      exact absurd (hn.symm.trans hknown) (Option.some_ne_none n).symm

/-- A walk takes the same course through the redecorated fabric. -/
theorem trace_eq (h : f.Redecorates g) (hsrc : src'.bare = src.bare) (hdst : dst'.bare = dst.bare) :
    g.trace src' dst' = f.trace src dst := by
  have hfirst := h.firstLink?_bare hsrc
  cases hf : f.firstLink? src with
  | error e =>
    rw [hf] at hfirst
    cases hg : g.firstLink? src' with
    | error e' =>
      rw [hg] at hfirst
      cases hfirst
      rw [trace, trace, hf, hg]
      rfl
    | ok first' =>
      rw [hg] at hfirst
      cases hfirst
  | ok first =>
    rw [hf] at hfirst
    cases hg : g.firstLink? src' with
    | error e' =>
      rw [hg] at hfirst
      cases hfirst
    | ok first' =>
      rw [hg] at hfirst
      have hbare : first'.map Link.bare = first.map Link.bare := Except.ok.inj hfirst
      have hmirrors : FirstMirrors id (fun _ => True) first first' := by
        cases first with
        | none => exact fun _ => Option.map_eq_none_iff.mp hbare
        | some l =>
          obtain ⟨l', rfl, hl⟩ := Option.map_eq_some_iff.mp hbare
          exact ⟨l', rfl, mirrors_of_bare_eq hl⟩
      rw [(h.mirrors dst.id).trace_eq (Node.id_of_bare_eq hsrc) (Node.id_of_bare_eq hdst)
        (Node.display_of_bare_eq hdst) hf hg hmirrors]
      cases f.trace src dst with
      | ok a => exact congrArg Except.ok a.renumbered_id
      | error e => rfl

/-- A node is found in both fabrics, or in neither. -/
theorem node_cases (h : f.Redecorates g) (id : NodeId) :
    (∃ n n', f.node id = .ok n ∧ g.node id = .ok n' ∧ n'.bare = n.bare) ∨
      ∃ e, f.node id = .error e ∧ g.node id = .error e := by
  unfold node
  cases hn : f.nodes.get? id with
  | some n =>
    obtain ⟨n', hn', hbare⟩ := node_of_bare_eq h.bare_eq.symm hn
    rw [hn']
    exact .inl ⟨n, n', rfl, rfl, hbare⟩
  | none =>
    rw [(h.mirrors id).unknown trivial hn]
    exact .inr ⟨_, rfl, rfl⟩

/-- A link is found in both fabrics, or in neither. -/
theorem link_cases (h : f.Redecorates g) (k : LinkId) :
    (∃ l l', f.link k = .ok l ∧ g.link k = .ok l' ∧ l'.bare = l.bare) ∨
      ∃ e, f.link k = .error e ∧ g.link k = .error e := by
  unfold link
  cases hl : f.links.get? k with
  | some l =>
    obtain ⟨l', hl', hbare⟩ := link_of_bare_eq h.bare_eq.symm hl
    rw [hl']
    exact .inl ⟨l, l', rfl, rfl, hbare⟩
  | none =>
    cases hl' : g.links.get? k with
    | none => exact .inr ⟨_, rfl, rfl⟩
    | some l' =>
      obtain ⟨l, hknown, -⟩ := link_of_bare_eq h.bare_eq hl'
      exact absurd (hl.symm.trans hknown) (Option.some_ne_none l).symm

/-- Links make the same hops. -/
theorem hops_eq (h : f.Redecorates g) (links : List LinkId) : g.hops links = f.hops links := by
  induction links with
  | nil => rfl
  | cons k rest ih =>
    unfold hops
    rcases h.link_cases k with ⟨l, l', hl, hl', hlink⟩ | ⟨e, he, he'⟩
    · rw [hl, hl', ih]
      change (g.node l'.parent >>= _) = (f.node l.parent >>= _)
      rw [(Link.of_bare_eq hlink).2.2.2.1]
      rcases h.node_cases l.parent with ⟨n, n', hn, hn', hnode⟩ | ⟨e, he, he'⟩
      · rw [hn, hn']
        dsimp only [bind, Except.bind]
        rw [Node.display_of_bare_eq hnode, (Link.of_bare_eq hlink).2.1]
      · rw [he, he']
        rfl
    · rw [he, he']
      rfl

/-- The same is told of a walk. -/
theorem walked_eq (h : f.Redecorates g) (a : Attempt) : Event.walked g a = Event.walked f a := by
  have hsubnet : g.subnet = f.subnet := (congrArg Fabric.subnet h.bare_eq : g.bare.subnet = _)
  unfold Event.walked
  rw [h.hops_eq, hsubnet]
  rcases h.node_cases a.source with ⟨src, src', hsrc, hsrc', hsource⟩ | ⟨e, he, he'⟩
  · rcases h.node_cases a.dest with ⟨dst, dst', hdst, hdst', hdest⟩ | ⟨e, he, he'⟩
    · rw [hsrc, hsrc', hdst, hdst']
      dsimp only [bind, Except.bind]
      rw [Node.hostname_of_bare_eq hsource, Node.hostname_of_bare_eq hdest,
        Node.id_of_bare_eq hsource, Node.id_of_bare_eq hdest]
    · rw [hsrc, hsrc', he, he']
      rfl
  · rw [he, he']
    rfl

/-- The fabrics have hosts that are bare alike. -/
theorem hosts_bare (h : f.Redecorates g) : g.hosts.map Node.bare = f.hosts.map Node.bare := by
  have hbare : ∀ f : Fabric β, f.hosts.map Node.bare = f.bare.hosts := by
    intro f
    have hvalues : f.bare.nodes.values = f.nodes.values.map Node.bare :=
      OrderedMap.values_mapValues Node.bare f.nodes
    rw [hosts, hosts, hvalues, List.filter_map]
    rfl
  rw [hbare g, h.bare_eq, hbare f]

/-- The hosts have the same identifiers. -/
theorem ids_eq (h : f.Redecorates g) : g.hosts.map (·.id) = f.hosts.map (·.id) := by
  have hids := congrArg (List.map Node.id) h.hosts_bare
  rwa [List.map_map, List.map_map] at hids

/-- Nodes have the same host names. -/
theorem hostnameOf_eq (h : f.Redecorates g) : g.hostnameOf = f.hostnameOf := by
  have hbare : ∀ f : Fabric β, f.bare.hostnameOf = f.hostnameOf := by
    intro f
    funext id
    unfold hostnameOf bare
    dsimp only
    rw [OrderedMap.get?_mapValues]
    cases f.nodes.get? id <;> rfl
  rw [← hbare g, h.bare_eq, hbare f]

end Redecorates

/-! ## The pairs of hosts -/

/-- The pairs of hosts between which a survey walks, in order: from each host that has an edge
to each other host. -/
def hostPairs (hosts : List (Node β)) : List (Node β × Node β) :=
  (hosts.filter fun src => !src.edges.entries.isEmpty).flatMap fun src =>
    (hosts.filter fun dst => decide (dst.id ≠ src.id)).map fun dst => (src, dst)

/-- Bare hosts are paired like the hosts. -/
theorem hostPairs_bare (hosts : List (Node β)) :
    hostPairs (hosts.map Node.bare) = (hostPairs hosts).map (Prod.map Node.bare Node.bare) := by
  have hedges : ∀ src : Node β, src.bare.edges.entries.isEmpty = src.edges.entries.isEmpty :=
    fun src => List.isEmpty_map
  have hid : ∀ n : Node β, n.bare.id = n.id := fun _ => rfl
  unfold hostPairs
  simp only [List.filter_map, List.flatMap_map, List.map_flatMap, List.map_map, Function.comp_def,
    hedges, hid, Prod.map_apply]

/-- What a survey tells of a pair of hosts: the course of the walk between them, with a hop for
each of its links. -/
structure WalkTold (f : Fabric β) (ends : Node β × Node β) (e : Event) : Prop where
  /-- The event is one of a walk. -/
  kind_eq : e.kind = .path
  /-- It names the source. -/
  source_eq : e.source = ends.1.hostname
  /-- It names the destination. -/
  dest_eq : e.dest = ends.2.hostname
  /-- It tells of the course of the walk. -/
  walk : ∃ a, f.trace ends.1 ends.2 = .ok a ∧ Event.walked f a = .ok e ∧
    e.status = some a.status ∧ e.hops.length = a.links.length

/-- The same is told of the pairs of hosts in a redecorated fabric. -/
theorem Redecorates.walksTold {f g : Fabric β} (h : f.Redecorates g) {es : List Event}
    (hes : List.Forall₂ f.WalkTold (hostPairs f.hosts) es) :
    List.Forall₂ g.WalkTold (hostPairs g.hosts) es := by
  have hpairs : (hostPairs g.hosts).map (Prod.map Node.bare Node.bare) =
      (hostPairs f.hosts).map (Prod.map Node.bare Node.bare) := by
    rw [← hostPairs_bare, h.hosts_bare, hostPairs_bare]
  have hsame : ∀ {ends ends' : Node β × Node β} {e : Event},
      Prod.map Node.bare Node.bare ends' = Prod.map Node.bare Node.bare ends →
      f.WalkTold ends e → g.WalkTold ends' e := by
    intro ends ends' e hends htold
    have hsrc : ends'.1.bare = ends.1.bare := congrArg Prod.fst hends
    have hdst : ends'.2.bare = ends.2.bare := congrArg Prod.snd hends
    obtain ⟨a, ha, he, hstatus, hhops⟩ := htold.walk
    exact ⟨htold.kind_eq, htold.source_eq.trans (Node.hostname_of_bare_eq hsrc).symm,
      htold.dest_eq.trans (Node.hostname_of_bare_eq hdst).symm,
      ⟨a, (h.trace_eq hsrc hdst).trans ha, (h.walked_eq a).trans he, hstatus, hhops⟩⟩
  generalize hostPairs f.hosts = pairs, hostPairs g.hosts = pairs' at hes hpairs
  induction hes generalizing pairs' with
  | nil =>
    cases List.map_eq_nil_iff.mp hpairs
    exact .nil
  | cons htold _ ih =>
    obtain ⟨ends', rest', rfl, hends, hrest⟩ := List.map_eq_cons_iff.mp hpairs
    exact .cons (hsame hends htold) (ih rest' hrest)

end Fabric

end FabricPaths
