import FabricPaths.Proofs.Bandwidth.Exact
import FabricPaths.Proofs.Fabric.Agreement

/-!
# Bandwidths of edges

Plugging a link adds its bandwidth to its edge and takes away that of the link it
replaces. With exact bandwidths, each edge therefore has the bandwidth of the links at
the positions that it lists, together.
-/

namespace FabricPaths

open Bandwidth (Exact total)

variable {β : Type}

/-- A slot that an edge lists holds a link that ends where the edge ends. -/
theorem Fabric.Wired.plugged?_of_listed {f : Fabric β} (w : f.Wired) {id : NodeId} {n : Node β}
    (hn : f.nodes.get? id = some n)
    {d : NodeId} {e : Edge β} (he : n.edges.get? d = some e) {i : Nat}
    (hi : (i : Int) ∈ e.linkPorts) : ∃ old, f.plugged? n i = some old ∧ old.dest = d := by
  obtain ⟨j, k, old, hj, hk, hold, hdest⟩ := (w.mem_linkPorts hn he i).mp hi
  have hij : i = j := Int.ofNat.inj hj
  obtain ⟨old', hold', hlink⟩ :=
    w.plugged?_of_linkIn? hn ((Fabric.Wired.linkIn?_eq_some_iff hn).mpr hk)
  rw [hold] at hlink
  cases hlink
  rw [hij]
  exact ⟨old, hold', hdest⟩

variable [Bandwidth β]

/-- Attaching a slot lists it behind the other positions, or where it was listed. -/
theorem Edge.linkPorts_attach_perm (e : Edge β) (slot : Nat) (gbits : β) :
    (e.attach slot gbits).linkPorts.Perm (e.linkPorts.erase (slot : Int) ++ [(slot : Int)]) := by
  unfold attach
  dsimp only
  split
  · rename_i hin
    exact (List.perm_cons_erase hin).trans (List.perm_append_singleton _ _).symm
  · rename_i hout
    rw [List.erase_of_not_mem hout]

/-- An edge that has the bandwidths at all positions but one has them all once the slot of
that position is attached. -/
theorem Edge.gbits_attach (exact : Exact β) {e : Edge β} {slot : Nat} {gbits : β}
    {weights weights' : Int → β}
    (h : e.gbits = total ((e.linkPorts.erase (slot : Int)).map weights))
    (hself : weights' slot = gbits)
    (hothers : (e.linkPorts.erase (slot : Int)).map weights' =
      (e.linkPorts.erase (slot : Int)).map weights) :
    (e.attach slot gbits).gbits = total ((e.attach slot gbits).linkPorts.map weights') := by
  have hperm := (e.linkPorts_attach_perm slot gbits).map weights'
  rw [List.map_append, List.map_singleton, hself, hothers] at hperm
  rw [exact.total_perm hperm, exact.total_concat, ← h]
  rfl

namespace Fabric

/-- The bandwidth of the link at a position of a node. -/
def weightAt (f : Fabric β) (id : NodeId) : Int → β
  | .ofNat i => (((f.linkIn? id i).bind f.links.get?).map (·.gbits)).getD Bandwidth.none
  | .negSucc _ => Bandwidth.none

/-- Each edge has the bandwidth of the links that it lists, together. -/
def Weighed (f : Fabric β) : Prop :=
  ∀ ⦃id n⦄, f.nodes.get? id = some n → ∀ ⦃d e⦄, n.edges.get? d = some e →
    e.gbits = total (e.linkPorts.map (f.weightAt id))

/-- The links at positions in the port list of a node, one for each position. -/
def LinksAt (f : Fabric β) (n : Node β) (positions : List Int) (links : List (Link β)) : Prop :=
  List.Forall₂ (fun (p : Int) l => ∃ (i : Nat) (k : LinkId),
    p = i ∧ n.ports[i]? = some (some k) ∧ f.links.get? k = some l) positions links

/-- Each edge has the bandwidths of the links at its positions, added up. -/
def EdgesAddUp (f : Fabric ℚ) : Prop :=
  ∀ id n, f.nodes.get? id = some n → ∀ d e, n.edges.get? d = some e →
    ∃ links, f.LinksAt n e.linkPorts links ∧ e.gbits = (links.map (·.gbits)).sum

/-- The fabric without nodes is weighed. -/
theorem weighed_empty (subnet : String) : ({ subnet } : Fabric β).Weighed := nofun

namespace Wired

variable {f : Fabric β} {n : Node β} {l : Link β}

/-- A new node without slots and edges leaves the fabric weighed. -/
theorem weighed_insert_node (h : f.Weighed) {id : NodeId} (hnew : f.nodes.get? id = none)
    {m : Node β} (hports : m.ports = []) (hedges : m.edges = ∅) :
    ({ f with nodes := f.nodes.insert id m }).Weighed := by
  have hweights : ∀ x, ({ f with nodes := f.nodes.insert id m }).weightAt x = f.weightAt x := by
    intro x
    funext p
    cases p with
    | ofNat i => rw [weightAt, weightAt, linkIn?_insert_node hnew hports]
    | negSucc i => rfl
  intro x n hn d e he
  rw [hweights]
  dsimp only at hn
  rw [OrderedMap.get?_insert] at hn
  by_cases hx : x = id
  · rw [if_pos hx] at hn
    cases hn
    rw [hedges] at he
    exact nomatch he
  · rw [if_neg hx] at hn
    exact h hn he

/-- Positions that an edge lists have links, with the bandwidths at these positions. -/
theorem exists_linksAt (w : f.Wired) {id : NodeId} (hn : f.nodes.get? id = some n) {d : NodeId}
    {e : Edge β} (he : n.edges.get? d = some e) {positions : List Int}
    (hlisted : ∀ p ∈ positions, p ∈ e.linkPorts) : ∃ links, f.LinksAt n positions links ∧
      positions.map (f.weightAt id) = links.map (·.gbits) := by
  induction positions with
  | nil => exact ⟨[], .nil, rfl⟩
  | cons p rest ih =>
    obtain ⟨hp, hrest⟩ := List.forall_mem_cons.mp hlisted
    obtain ⟨links, hlinks, hweights⟩ := ih hrest
    obtain ⟨i, k, l, rfl, hk, hl, -⟩ := (w.mem_linkPorts hn he p).mp hp
    have hweight : f.weightAt id i = l.gbits := by
      change (((f.linkIn? id i).bind f.links.get?).map (·.gbits)).getD _ = _
      rw [(linkIn?_eq_some_iff hn).mpr hk, Option.bind_some, hl]
      rfl
    refine ⟨l :: links, .cons ⟨i, k, rfl, hk, hl⟩ hlinks, ?_⟩
    rw [List.map_cons, List.map_cons, hweight, hweights]

/-- The edges of a weighed fabric have the bandwidths of the links at their positions. -/
theorem edgesAddUp {f : Fabric ℚ} (w : f.Wired) (h : f.Weighed) : f.EdgesAddUp := by
  intro id n hn d e he
  obtain ⟨links, hlinks, hweights⟩ := w.exists_linksAt hn he fun _ hp => hp
  refine ⟨links, hlinks, ?_⟩
  rw [h hn he, hweights]
  rfl

/-- Plugging a link leaves the bandwidths at other positions. -/
theorem weightAt_plug_of_other (w : f.Wired) (hn : f.nodes.get? l.parent = some n)
    (hnew : ∀ k ∈ f.links.keys, k < l.id) {x : NodeId} {p : Int}
    (hother : ¬(x = l.parent ∧ p = slotOf l)) : (f.plug n l).weightAt x p = f.weightAt x p := by
  cases p with
  | negSucc i => rfl
  | ofNat i =>
    have hslot : ¬(x = l.parent ∧ i = slotOf l) := fun h => hother ⟨h.1, congrArg Int.ofNat h.2⟩
    rw [weightAt, weightAt, linkIn?_plug hn, if_neg hslot]
    cases hk : f.linkIn? x i with
    | none => rfl
    | some k =>
      obtain ⟨l', hl', -, -⟩ := w.plugged_link hk
      rw [Option.bind_some, Option.bind_some, w.links_plug_of_other hn hnew hslot hk hl', hl']

/-- A plugged link has its bandwidth at its position. -/
theorem weightAt_plug_self (w : f.Wired) (hn : f.nodes.get? l.parent = some n) :
    (f.plug n l).weightAt l.parent (slotOf l) = l.gbits := by
  change (((((f.plug n l).linkIn? l.parent (slotOf l)).bind _).map _).getD _) = _
  rw [linkIn?_plug hn, if_pos ⟨rfl, rfl⟩, Option.bind_some, w.links_plug hn, if_pos rfl]
  rfl

/-- The link in a slot is listed on the edge to where it ends, with its bandwidth. -/
theorem listed_of_plugged? (w : f.Wired) {id : NodeId} (hn : f.nodes.get? id = some n) {i : Nat}
    {old : Link β} (h : f.plugged? n i = some old) :
    (∃ e, n.edges.get? old.dest = some e ∧ (i : Int) ∈ e.linkPorts) ∧
      f.weightAt id i = old.gbits := by
  rw [w.plugged?_eq hn] at h
  obtain ⟨k, hk, hold⟩ := Option.bind_eq_some_iff.mp h
  refine ⟨w.exists_edge hn ((linkIn?_eq_some_iff hn).mp hk) hold, ?_⟩
  change (((f.linkIn? id i).bind f.links.get?).map (·.gbits)).getD _ = _
  rw [hk, Option.bind_some, hold]
  rfl

/-- An edge has the bandwidth of the links at all positions but one that it does not list. -/
theorem gbits_of_unlisted (h : f.Weighed) {id : NodeId} (hn : f.nodes.get? id = some n)
    {d : NodeId} {e : Edge β} (he : n.edges.get? d = some e) {p : Int} (hout : p ∉ e.linkPorts) :
    e.gbits = total ((e.linkPorts.erase p).map (f.weightAt id)) := by
  rw [List.erase_of_not_mem hout]
  exact h hn he

/-- Without the bandwidth of one of its links, an edge has that of the others. -/
theorem gbits_lower (exact : Exact β) (w : f.Wired) (h : f.Weighed) {id : NodeId}
    (hn : f.nodes.get? id = some n) {i : Nat} {old : Link β} (hold : f.plugged? n i = some old)
    {e : Edge β} (he : n.edges.get? old.dest = some e) :
    (e.lower old.gbits).gbits = total ((e.linkPorts.erase (i : Int)).map (f.weightAt id)) := by
  obtain ⟨⟨e', he', hin⟩, hweight⟩ := w.listed_of_plugged? hn hold
  rw [he] at he'
  cases he'
  have hperm := (List.perm_cons_erase hin).map (f.weightAt id)
  rw [List.map_cons, hweight] at hperm
  rw [Edge.lower, h hn he, exact.minus_total hperm]

/-- The edges of a vacated node fit. -/
theorem edgesFit_vacated (w : f.Wired) (hn : f.nodes.get? l.parent = some n) :
    (f.vacated n l).EdgesFit := by
  unfold vacated
  cases f.plugged? n (slotOf l) with
  | none => exact (w.node_fit hn).edges_fit
  | some old => exact (w.node_fit hn).edges_fit.detach _ _ _

/-- Before a link is plugged in, the edges have the bandwidth of the links at other
positions. -/
theorem gbits_vacated (exact : Exact β) (w : f.Wired) (h : f.Weighed)
    (hn : f.nodes.get? l.parent = some n) {d : NodeId} {e : Edge β}
    (he : (f.vacated n l).edges.get? d = some e) :
    e.gbits = total ((e.linkPorts.erase (slotOf l : Int)).map (f.weightAt l.parent)) := by
  unfold vacated at he
  cases hold : f.plugged? n (slotOf l) with
  | none =>
    rw [hold] at he
    refine gbits_of_unlisted h hn he fun hin => ?_
    obtain ⟨old, hsome, -⟩ := w.plugged?_of_listed hn he hin
    rw [hold] at hsome
    cases hsome
  | some old =>
    rw [hold] at he
    dsimp only at he
    rw [Node.edges_detach] at he
    by_cases hd : d = old.dest
    · rw [if_pos hd] at he
      obtain ⟨e', he', hchange⟩ := Option.bind_eq_some_iff.mp he
      rw [hd] at he'
      have hlowered := gbits_lower exact w h hn hold he'
      cases hsame : decide (old.dest = l.dest) with
      | true =>
        rw [hsame, if_pos rfl] at hchange
        cases hchange
        exact hlowered
      | false =>
        rw [hsame, if_neg Bool.false_ne_true] at hchange
        split at hchange
        · cases hchange
        · cases hchange
          have hout : (slotOf l : Int) ∉ e'.linkPorts.erase (slotOf l : Int) :=
            ((w.node_fit hn).edges_fit he').2.2.2.not_mem_erase
          change _ = total (((e'.linkPorts.erase _).erase _).map _)
          rw [List.erase_of_not_mem hout]
          exact hlowered
    · rw [if_neg hd] at he
      refine gbits_of_unlisted h hn he fun hin => ?_
      obtain ⟨old', hsome, hdest⟩ := w.plugged?_of_listed hn he hin
      rw [hold] at hsome
      cases hsome
      exact hd hdest.symm

/-- Plugging a link leaves the bandwidths at positions, unless its own is among them. -/
theorem weights_plug (w : f.Wired) (hn : f.nodes.get? l.parent = some n)
    (hnew : ∀ k ∈ f.links.keys, k < l.id) {x : NodeId} {ps : List Int}
    (hout : x = l.parent → (slotOf l : Int) ∉ ps) :
    ps.map ((f.plug n l).weightAt x) = ps.map (f.weightAt x) := by
  refine List.map_congr_left fun p hp => w.weightAt_plug_of_other hn hnew ?_
  rintro ⟨hx, rfl⟩
  exact hout hx hp

/-- The node of a plugged link has edges with the bandwidths of their links. -/
theorem gbits_pluggedNode (exact : Exact β) (w : f.Wired) (h : f.Weighed)
    (hn : f.nodes.get? l.parent = some n) (hnew : ∀ k ∈ f.links.keys, k < l.id) {d : NodeId}
    {e : Edge β} (he : (f.pluggedNode n l).edges.get? d = some e) :
    e.gbits = total (e.linkPorts.map ((f.plug n l).weightAt l.parent)) := by
  change ((f.vacated n l).edges.insert l.dest _).get? d = some e at he
  rw [OrderedMap.get?_insert] at he
  by_cases hd : d = l.dest
  · rw [if_pos hd] at he
    cases he
    change Edge.gbits (Edge.attach (((f.vacated n l).edges.get? l.dest).getD _) _ _) =
      total ((Edge.attach (((f.vacated n l).edges.get? l.dest).getD _) _ _).linkPorts.map _)
    refine Edge.gbits_attach exact ?_ (w.weightAt_plug_self hn)
      (w.weights_plug hn hnew fun _ => ?_)
    · cases hedge : (f.vacated n l).edges.get? l.dest with
      | none => rfl
      | some e' => exact w.gbits_vacated exact h hn hedge
    · cases hedge : (f.vacated n l).edges.get? l.dest with
      | none => exact List.not_mem_nil
      | some e' => exact (w.edgesFit_vacated hn hedge).2.2.2.not_mem_erase
  · rw [if_neg hd] at he
    have hout : (slotOf l : Int) ∉ e.linkPorts := by
      have hlisted : (f.vacated n l).listed d = e.linkPorts := by
        rw [Node.listed, he]
      rw [← hlisted, w.listed_vacated hn, if_neg hd]
      exact ((w.node_fit hn).edges_fit.nodup_listed d).not_mem_erase
    rw [w.weights_plug hn hnew fun _ => hout, w.gbits_vacated exact h hn he,
      List.erase_of_not_mem hout]

/-- Plugging a link leaves the edges with the bandwidths of their links. -/
theorem weighed_plug (exact : Exact β) (w : f.Wired) (h : f.Weighed)
    (hn : f.nodes.get? l.parent = some n) (hnew : ∀ k ∈ f.links.keys, k < l.id) :
    (f.plug n l).Weighed := by
  intro x m hm d e he
  rw [plug_nodes, OrderedMap.get?_insert] at hm
  by_cases hx : x = l.parent
  · rw [if_pos hx] at hm
    cases hm
    rw [hx]
    exact w.gbits_pluggedNode exact h hn hnew he
  · rw [if_neg hx] at hm
    rw [w.weights_plug hn hnew fun heq => absurd heq hx]
    exact h hm he

end Wired

end Fabric

end FabricPaths
