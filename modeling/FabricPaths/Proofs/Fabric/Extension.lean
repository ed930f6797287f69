import FabricPaths.Proofs.Path.Mirroring
import FabricPaths.Proofs.Routing.Growth

/-!
# Fabrics that have more

A fabric extends another if it has all its nodes, links, first links and routes,
unchanged. New nodes, links in empty slots and further routes extend a fabric, and
a walk that arrived or went round in a circle takes the same course through every
extension.
-/

namespace FabricPaths

variable {β : Type}

namespace Fabric

/-- The second fabric has all that the first has. -/
structure Extends (f g : Fabric β) : Prop where
  /-- A node is there under the same name, with its links and its first link. -/
  node : ∀ ⦃v n⦄, f.nodes.get? v = some n → ∃ n', g.nodes.get? v = some n' ∧
    n'.id = n.id ∧ n'.display = n.display ∧
    (∀ port l, f.linkAt? n port = some l → g.linkAt? n' port = some l) ∧
    ∀ l, f.firstLink? n = .ok (some l) → g.firstLink? n' = .ok (some l)
  /-- A route is there. -/
  route : ∀ ⦃s table⦄, f.routes.get? s = some table → ∃ table', g.routes.get? s = some table' ∧
    ∀ dest port, table.egressPort? dest = some port → table'.egressPort? dest = some port

/-- The ways to end that more data leaves as they are. -/
def Lasting (status : PathStatus) : Prop := status = .complete ∨ status = .loop

variable {f g : Fabric β}

/-- A node sends traffic along the link at the port that its table has for the destination. -/
theorem forwarding_eq_along_iff {n : Node β} {dest : NodeId} {link : Link β} :
    f.forwarding n dest = .along link ↔ ∃ table port, f.routes.get? n.id = some table ∧
      table.egressPort? dest = some port ∧ f.linkAt? n port = some link := by
  unfold forwarding
  constructor
  · intro h
    split at h
    · cases h
    · rename_i table htable
      split at h
      · cases h
      · rename_i port hport
        split at h
        · cases h
        · rename_i l hlink
          cases h
          exact ⟨table, port, htable, hport, hlink⟩
  · rintro ⟨table, port, htable, hport, hlink⟩
    rw [htable]
    dsimp only
    rw [hport]
    dsimp only
    rw [hlink]

namespace Extends

/-- A fabric has what it has. -/
theorem refl (f : Fabric β) : f.Extends f where
  node := fun _ n hn => ⟨n, hn, rfl, rfl, fun _ _ hl => hl, fun _ hl => hl⟩
  route := fun _ table htable => ⟨table, htable, fun _ _ hport => hport⟩

/-- What is there in the end was there on the way. -/
theorem trans {k : Fabric β} (h : f.Extends g) (h' : g.Extends k) : f.Extends k where
  node := by
    intro v n hn
    obtain ⟨n', hn', hid, hname, hlinks, hfirst⟩ := h.node hn
    obtain ⟨n'', hn'', hid', hname', hlinks', hfirst'⟩ := h'.node hn'
    exact ⟨n'', hn'', hid'.trans hid, hname'.trans hname,
      fun port l hl => hlinks' port l (hlinks port l hl), fun l hl => hfirst' l (hfirst l hl)⟩
  route := by
    intro s table htable
    obtain ⟨table', htable', hports⟩ := h.route htable
    obtain ⟨table'', htable'', hports'⟩ := h'.route htable'
    exact ⟨table'', htable'', fun dest port hport => hports' dest port (hports dest port hport)⟩

/-- Traffic that a node sends along a link goes along the same link in an extension. -/
theorem along (h : f.Extends g) {n n' : Node β} (hid : n'.id = n.id)
    (hlinks : ∀ port l, f.linkAt? n port = some l → g.linkAt? n' port = some l) {dest : NodeId}
    {link : Link β} (halong : f.forwarding n dest = .along link) :
    g.forwarding n' dest = .along link := by
  obtain ⟨table, port, htable, hport, hlink⟩ := forwarding_eq_along_iff.mp halong
  obtain ⟨table', htable', hports⟩ := h.route htable
  refine forwarding_eq_along_iff.mpr ⟨table', port, ?_, hports dest port hport,
    hlinks port link hlink⟩
  rw [hid]
  exact htable'

/-- An extension answers for the fabric in walks that last. -/
theorem mirrors (h : f.Extends g) (dest : NodeId) : f.Mirrors id Lasting dest g where
  known := by
    intro v n hn
    obtain ⟨n', hn', hid, hname, hlinks, -⟩ := h.node hn
    refine ⟨n', hn', hid, hname, fun hlasting => ?_⟩
    cases hf : f.forwarding n dest with
    | along link =>
      rw [h.along hid hlinks hf]
      exact .along ⟨rfl, rfl, rfl, rfl⟩
    | _ =>
      rw [hf] at hlasting
      rcases hlasting _ rfl with hstatus | hstatus
      · cases hstatus
      · cases hstatus
  unknown := by
    intro hstatus
    rcases hstatus with hstatus | hstatus
    · cases hstatus
    · cases hstatus

/-- A walk that lasts takes the same course through an extension. -/
theorem traceBetween (h : f.Extends g) {source dest : NodeId} {a : Attempt}
    (hlasting : Lasting a.status) (ha : f.traceBetween source dest = .ok a) :
    g.traceBetween source dest = .ok a := by
  obtain ⟨src, dst, hsrc, hdst, ha⟩ := traceBetween_eq_ok_iff.mp ha
  obtain ⟨src', hsrc', hsrcId, -, -, hfirst⟩ := h.node hsrc
  obtain ⟨dst', hdst', hdstId, hdstName, -, -⟩ := h.node hdst
  refine traceBetween_eq_ok_iff.mpr ⟨src', dst', hsrc', hdst', ?_⟩
  cases hf : f.firstLink? src with
  | error e =>
    rw [trace, hf] at ha
    cases ha
  | ok first =>
    cases first with
    | none =>
      rw [trace_of_firstLink? hf] at ha
      cases ha
      rcases hlasting with hstatus | hstatus
      · cases hstatus
      · cases hstatus
    | some l =>
      have hsame : FirstMirrors id Lasting (some l) (some l) := ⟨l, rfl, rfl, rfl, rfl, rfl⟩
      have htrace := (h.mirrors dst.id).trace hsrcId hdstId hdstName hf (hfirst l hf) hsame
        hlasting ha
      rw [Attempt.renumbered_id] at htrace
      exact htrace

end Extends

/-! ## What extends a fabric -/

/-- Further entries in the forwarding tables extend a fabric. -/
theorem extends_withRoutes (f : Fabric β) {loader later : Loader} (h : loader.GrowsTo later) :
    (f.withRoutes loader.tables).Extends (f.withRoutes later.tables) where
  node := fun _ n hn => ⟨n, hn, rfl, rfl, fun _ _ hl => hl, fun _ hl => hl⟩
  route := by
    intro s table htable
    obtain ⟨table', htable', hentries⟩ := h s table htable
    refine ⟨table', htable', fun dest port hport => ?_⟩
    obtain ⟨e, he, rfl⟩ := Option.map_eq_some_iff.mp hport
    exact congrArg (Option.map (·.port)) (hentries dest e he)

namespace Wired

/-- A wired fabric extends another if it has its nodes, with their first positions, its
links and its tables. -/
theorem extends_of_links (w : f.Wired) (w' : g.Wired)
    (hnodes : ∀ ⦃v n⦄, f.nodes.get? v = some n → ∃ n', g.nodes.get? v = some n' ∧
      n'.display = n.display ∧ ∀ p, n.firstPosition? = some p → n'.firstPosition? = some p)
    (hlinks : ∀ ⦃k l⦄, f.links.get? k = some l → g.links.get? k = some l)
    (hroutes : g.routes = f.routes) : f.Extends g where
  node := by
    intro v n hn
    obtain ⟨n', hn', hname, hposition⟩ := hnodes hn
    refine ⟨n', hn', ?_, hname, ?_, ?_⟩
    · rw [(w'.node_fit hn').id_eq, (w.node_fit hn).id_eq]
    · intro port l hl
      obtain ⟨hlink, hends⟩ := (w.linkAt?_eq_some_iff hn).mp hl
      exact (w'.linkAt?_eq_some_iff hn').mpr ⟨hlinks hlink, hends⟩
    · intro l hl
      obtain ⟨hlink, hparent, hp⟩ := (w.firstLink?_eq_some_iff hn).mp hl
      exact (w'.firstLink?_eq_some_iff hn').mpr ⟨hlinks hlink, hparent, hposition _ hp⟩
  route := by
    rw [hroutes]
    exact fun _ table htable => ⟨table, htable, fun _ _ hport => hport⟩

/-- A new node extends a fabric. -/
theorem extends_insert_node (w : f.Wired) {id : NodeId} (hnew : f.nodes.get? id = none)
    {n : Node β} (hid : n.id = id) (hports : n.ports = []) (hedges : n.edges = ∅)
    (hsub : n.subnodes.entries = []) :
    f.Extends { f with nodes := f.nodes.insert id n } := by
  refine w.extends_of_links (w.insert_node hnew hid hports hedges hsub) ?_ (fun _ _ hl => hl) rfl
  intro v m hm
  have hne : v ≠ id := by
    rintro rfl
    rw [hnew] at hm
    cases hm
  refine ⟨m, ?_, rfl, fun _ hp => hp⟩
  dsimp only
  rw [OrderedMap.get?_insert, if_neg hne]
  exact hm

variable [Bandwidth β] {n : Node β} {l : Link β}

/-- A link in an empty slot leaves the first position of its node. -/
theorem firstPosition?_pluggedNode (hslot : f.plugged? n (slotOf l) = none) (hfit : n.EdgesFit)
    {p : Int} (hp : n.firstPosition? = some p) : (f.pluggedNode n l).firstPosition? = some p := by
  have hvacated : f.vacated n l = n := by
    rw [vacated, hslot]
  rw [pluggedNode, hvacated]
  refine OrderedMap.findSome?_values_insert hp ?_
  intro e he
  have hedge : (n.setSlot (slotOf l) l.id).edges.get? l.dest = some e := he
  rw [hedge, Option.getD_some]
  obtain ⟨q, qs, hlist⟩ := List.exists_cons_of_ne_nil (hfit he).2.2.1
  unfold Edge.attach
  dsimp only
  rw [hlist]
  split
  · rfl
  · rfl

/-- A link in an empty slot extends a fabric. -/
theorem extends_plug (w : f.Wired) (hn : f.nodes.get? l.parent = some n)
    (hdest : ∃ m, f.nodes.get? l.dest = some m) (hport : 1 ≤ l.srcPort)
    (hnew : ∀ k ∈ f.links.keys, k < l.id) (hslot : f.linkIn? l.parent (slotOf l) = none) :
    f.Extends (f.plug n l) := by
  have hempty : f.plugged? n (slotOf l) = none := by
    rw [w.plugged?_eq hn, hslot, Option.bind_none]
  refine w.extends_of_links (w.plug hn hdest hport hnew) ?_ ?_ rfl
  · intro v m hm
    rw [plug_nodes, OrderedMap.get?_insert]
    by_cases hv : v = l.parent
    · rw [hv, hn] at hm
      cases hm
      rw [if_pos hv]
      refine ⟨_, rfl, ?_, ?_⟩
      · rw [pluggedNode, vacated, hempty]
        rfl
      · exact fun p hp => firstPosition?_pluggedNode hempty (w.node_fit hn).edges_fit hp
    · rw [if_neg hv]
      exact ⟨m, hm, rfl, fun _ hp => hp⟩
  · intro k l' hl'
    have hne : k ≠ l.id := Nat.ne_of_lt (hnew k (OrderedMap.mem_keys_of_get? hl'))
    rw [w.links_plug hn, if_neg hne, hslot, if_neg (Option.some_ne_none k).symm]
    exact hl'

end Wired

end Fabric

end FabricPaths
