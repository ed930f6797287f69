import FabricPaths.Proofs.Export.Document
import FabricPaths.Proofs.Fabric.Outline

/-!
# What documents tell

A document names neither the slots of a node nor the positions that an edge lists. Both are
recovered from its links: a slot holds the link that leaves through its port, the last slot of
a node is occupied, and an edge has its links in the order of the positions. So the document of
a wired fabric tells all of the fabric but its forwarding tables and the sources from which no
path is known.
-/

namespace FabricPaths

open Export

variable {β : Type}

/-- Sets with the same members are the same. -/
theorem Marks.eq_of_members {m m' : Marks} (h : m.members = m'.members) : m = m' := by
  cases m
  cases m'
  cases h
  rfl

namespace Node

variable {n n' : Node β}

/-- A node whose last slot is occupied has no more slots than one with the same links in its
slots. -/
theorem length_ports_le (hlast : n.ports.getLast? ≠ some none)
    (h : ∀ i, n.linkIn? i = n'.linkIn? i) : n.ports.length ≤ n'.ports.length := by
  by_contra hlt
  have hne : n.ports ≠ [] := by
    intro hnil
    rw [hnil] at hlt
    exact hlt (Nat.zero_le _)
  obtain ⟨slot, hslot⟩ := Option.ne_none_iff_exists'.mp (mt List.getLast?_eq_none_iff.mp hne)
  cases slot with
  | none => exact hlast hslot
  | some k =>
    rw [List.getLast?_eq_getElem?] at hslot
    have hk : n.linkIn? (n.ports.length - 1) = some k := Option.join_eq_some_iff.mpr hslot
    rw [h, linkIn?, List.getElem?_eq_none (by omega)] at hk
    cases hk

/-- Nodes with the same links in their slots have the same slots if their last slots are
occupied. -/
theorem ports_eq_of_slots (hlast : n.ports.getLast? ≠ some none)
    (hlast' : n'.ports.getLast? ≠ some none) (h : ∀ i, n.linkIn? i = n'.linkIn? i) :
    n.ports = n'.ports := by
  have hlength : n.ports.length = n'.ports.length :=
    Nat.le_antisymm (length_ports_le hlast h) (length_ports_le hlast' fun i => (h i).symm)
  refine List.ext_getElem hlength fun i hi hi' => ?_
  have hslot := h i
  rw [linkIn?, linkIn?, List.getElem?_eq_getElem hi, List.getElem?_eq_getElem hi'] at hslot
  exact hslot

end Node

/-! ## Paths -/

namespace Paths

/-- The sources from which some path is known, with their paths. -/
def known (p : Paths) : Paths :=
  ⟨p.entries.filter fun e => !e.2.entries.isEmpty,
    (List.filter_sublist.map Prod.fst).nodup p.nodup_keys⟩

/-- The paths from one source, with their ends. -/
def fromSource (e : NodeId × OrderedMap NodeId Path) : List (NodeId × NodeId × Path) :=
  e.2.entries.map fun x => (e.1, x.1, x.2)

/-- Paths are listed source by source. -/
theorem list_eq (p : Paths) : p.list = p.entries.flatMap fromSource := rfl

/-- A source from which no path is known adds nothing to the list. -/
theorem list_known (p : Paths) : p.known.list = p.list := by
  have hfilter : ∀ es : List (NodeId × OrderedMap NodeId Path),
      (es.filter fun e => !e.2.entries.isEmpty).flatMap fromSource = es.flatMap fromSource := by
    intro es
    induction es with
    | nil => rfl
    | cons e es ih =>
      rw [List.filter_cons, List.flatMap_cons]
      cases hempty : e.2.entries.isEmpty with
      | false =>
        rw [Bool.not_false, if_pos rfl, List.flatMap_cons, ih]
      | true =>
        have hnone : fromSource e = [] := by
          rw [fromSource, List.isEmpty_iff.mp hempty]
          rfl
        rw [Bool.not_true, if_neg Bool.false_ne_true, hnone, ih]
        rfl
  exact hfilter p.entries

/-- The paths from a source are listed under the source. -/
theorem filter_flatMap_fromSource {s : NodeId} {es : List (NodeId × OrderedMap NodeId Path)}
    (h : s ∉ es.map Prod.fst) :
    (es.flatMap fromSource).filter (fun t => decide (t.1 = s)) = [] := by
  rw [List.filter_eq_nil_iff]
  intro t ht hs
  obtain ⟨e, he, hin⟩ := List.mem_flatMap.mp ht
  obtain ⟨x, -, rfl⟩ := List.mem_map.mp hin
  exact h (List.mem_map.mpr ⟨e, he, of_decide_eq_true hs⟩)

/-- The paths from a source are all listed under it. -/
theorem filter_fromSource (e : NodeId × OrderedMap NodeId Path) :
    (fromSource e).filter (fun t => decide (t.1 = e.1)) = fromSource e := by
  rw [List.filter_eq_self]
  intro t ht
  obtain ⟨x, -, rfl⟩ := List.mem_map.mp ht
  exact decide_eq_true rfl

/-- Sources that each have a path are known by the list of all paths. -/
theorem eq_of_flatMap_fromSource {es es' : List (NodeId × OrderedMap NodeId Path)}
    (hkeys : (es.map Prod.fst).Nodup) (hkeys' : (es'.map Prod.fst).Nodup)
    (hne : ∀ e ∈ es, e.2.entries ≠ []) (hne' : ∀ e ∈ es', e.2.entries ≠ [])
    (h : es.flatMap fromSource = es'.flatMap fromSource) : es = es' := by
  have hnil : ∀ {e : NodeId × OrderedMap NodeId Path} {later : List (NodeId × NodeId × Path)},
      e.2.entries ≠ [] → fromSource e ++ later ≠ [] := by
    intro e later hentries happend
    exact hentries (List.map_eq_nil_iff.mp (List.append_eq_nil_iff.mp happend).1)
  induction es generalizing es' with
  | nil =>
    cases es' with
    | nil => rfl
    | cons e' es' => exact absurd h.symm (hnil (hne' e' List.mem_cons_self))
  | cons e es ih =>
    cases es' with
    | nil => exact absurd h (hnil (hne e List.mem_cons_self))
    | cons e' es' =>
      rw [List.map_cons, List.nodup_cons] at hkeys hkeys'
      rw [List.flatMap_cons, List.flatMap_cons] at h
      have hsource : e.1 = e'.1 := by
        obtain ⟨x, xs, hx⟩ := List.exists_cons_of_ne_nil (hne e List.mem_cons_self)
        obtain ⟨x', xs', hx'⟩ := List.exists_cons_of_ne_nil (hne' e' List.mem_cons_self)
        rw [fromSource, fromSource, hx, hx'] at h
        have hfirst : (e.1, x.1, x.2) = (e'.1, x'.1, x'.2) := (List.cons.inj h).1
        exact (Prod.mk.inj hfirst).1
      have hpaths : fromSource e = fromSource e' := by
        have hunder := congrArg (List.filter fun t => decide (t.1 = e.1)) h
        rw [List.filter_append, List.filter_append, filter_fromSource,
          filter_flatMap_fromSource hkeys.1, List.append_nil] at hunder
        rw [hsource, filter_fromSource, filter_flatMap_fromSource hkeys'.1,
          List.append_nil] at hunder
        exact hunder
      have hdests : e.2.entries = e'.2.entries := by
        rw [fromSource, fromSource, hsource] at hpaths
        refine (List.map_inj_right fun x x' hx => ?_).mp hpaths
        exact congrArg Prod.snd hx
      have hentry : e = e' := Prod.ext hsource (OrderedMap.ext hdests)
      rw [hpaths, List.append_cancel_left_eq] at h
      rw [hentry, ih hkeys.2 hkeys'.2 (fun e he => hne e (List.mem_cons_of_mem _ he))
        (fun e he => hne' e (List.mem_cons_of_mem _ he)) h]

/-- The list of paths tells the sources from which some path is known. -/
theorem known_eq_of_list {p p' : Paths} (h : p.list = p'.list) : p.known = p'.known := by
  have hne : ∀ p : Paths, ∀ e ∈ p.known.entries, e.2.entries ≠ [] := by
    intro p e he hnil
    have hkept := (List.mem_filter.mp he).2
    rw [hnil] at hkept
    cases hkept
  apply OrderedMap.ext
  refine eq_of_flatMap_fromSource p.known.nodup_keys p'.known.nodup_keys (hne p) (hne p') ?_
  rw [← list_eq, ← list_eq, list_known, list_known, h]

end Paths

namespace Fabric

/-- What the document of a fabric is about: all but the forwarding tables and the sources from
which no path is known. -/
def documented (f : Fabric β) : Fabric β := { f with routes := ∅, paths := f.paths.known }

/-- The sheet of a fabric is that of what it is about. -/
theorem sheet_documented (f : Fabric β) : f.documented.sheet = f.sheet := by
  have hlist : f.documented.paths.list = f.paths.list := f.paths.list_known
  rw [sheet, hlist]
  rfl

/-- A link is known by its entry. -/
theorem linkEntry_inj {l l' : Link β} (h : linkEntry l = linkEntry l') : l = l' := by
  unfold linkEntry at h
  simp only [LinkEntry.mk.injEq] at h
  obtain ⟨hid, hsrc, hdst, hparent, hdest, hwidth, hspeed, hgbits, hdescription, hother,
    hmarks⟩ := h
  have hmarks' := Marks.eq_of_members hmarks
  cases l
  cases l'
  simp only [Link.mk.injEq]
  exact ⟨hid, hsrc, hdst, hparent, hdest, hwidth, hspeed, hgbits, hdescription, hother, hmarks'⟩

/-- The position of an indexed link in the list of slots of its parent. -/
def position (f : Fabric β) (k : LinkId) : Int := ((f.links.get? k).map slotOf).getD 0

namespace Wired

variable {f g : Fabric β} {id : NodeId} {n n' : Node β}

/-! ## Slots and positions -/

/-- A slot holds the link that leaves its node through it. -/
theorem linkIn?_iff (w : f.Wired) {i : Nat} {k : LinkId} : f.linkIn? id i = some k ↔
    ∃ l, f.links.get? k = some l ∧ l.parent = id ∧ slotOf l = i := by
  constructor
  · exact fun h => w.plugged_link h
  · rintro ⟨l, hl, rfl, rfl⟩
    exact w.link_plugged hl

/-- The links of wired fabrics tell the slots of their nodes. -/
theorem ports_eq (w : f.Wired) (w' : g.Wired) (hlinks : f.links = g.links)
    (hn : f.nodes.get? id = some n) (hn' : g.nodes.get? id = some n') : n.ports = n'.ports := by
  have hslots : ∀ i, n.linkIn? i = n'.linkIn? i := by
    intro i
    apply Option.ext
    intro k
    rw [← linkIn?_of_node hn, ← linkIn?_of_node hn', w.linkIn?_iff, w'.linkIn?_iff, hlinks]
  exact Node.ports_eq_of_slots (w.node_fit hn).last_slot (w'.node_fit hn').last_slot hslots

/-- An edge lists the positions of its links. -/
theorem linkPorts_eq (w : f.Wired) (hn : f.nodes.get? id = some n) {d : NodeId} {e : Edge β}
    (he : n.edges.get? d = some e) :
    e.linkPorts = (n.linksAt e.linkPorts).map f.position := by
  have heach : ∀ p ∈ e.linkPorts, (n.linkIn? p.toNat).map f.position = some p := by
    intro p hp
    obtain ⟨l, hl, rfl, rfl, -⟩ := w.listed_occupied hn he hp
    have hslot := w.link_plugged hl
    rw [linkIn?_of_node hn] at hslot
    rw [Int.toNat_natCast, hslot, Option.map_some, position, hl]
    rfl
  calc
    e.linkPorts = e.linkPorts.filterMap some := List.filterMap_some.symm
    _ = e.linkPorts.filterMap fun p => (n.linkIn? p.toNat).map f.position :=
      List.filterMap_congr fun p hp => (heach p hp).symm
    _ = (n.linksAt e.linkPorts).map f.position := List.map_filterMap.symm

/-! ## Edges, nodes and links -/

/-- With the same links, edges with one entry are the same. -/
theorem edge_eq_of_sheet (w : f.Wired) (w' : g.Wired) (hlinks : f.links = g.links)
    (hn : f.nodes.get? id = some n) (hn' : g.nodes.get? id = some n') {e e' : Edge β}
    (he : e ∈ n.edges.values) (he' : e' ∈ n'.edges.values) (h : n.edgeSheet e = n'.edgeSheet e') :
    e = e' := by
  obtain ⟨d, he⟩ := OrderedMap.mem_values_iff.mp he
  obtain ⟨d', he'⟩ := OrderedMap.mem_values_iff.mp he'
  have hsource : e.source = id := ((w.node_fit hn).edges_fit he).1.trans (w.node_fit hn).id_eq
  have hsource' : e'.source = id :=
    ((w'.node_fit hn').edges_fit he').1.trans (w'.node_fit hn').id_eq
  unfold Node.edgeSheet at h
  simp only [EdgeEntry.mk.injEq] at h
  obtain ⟨hdest, hgbits, hlist, hreverse, hmarks⟩ := h
  have hposition : f.position = g.position := by
    funext k
    rw [position, position, hlinks]
  have hports : e.linkPorts = e'.linkPorts := by
    rw [w.linkPorts_eq hn he, w'.linkPorts_eq hn' he', hlist, hposition]
  have hmarks' := Marks.eq_of_members hmarks
  rw [← hsource'] at hsource
  cases e
  cases e'
  simp only [Edge.mk.injEq]
  exact ⟨hsource, hdest, hgbits, hports, hreverse, hmarks'⟩

/-- With the same links, nodes with one entry are the same. -/
theorem node_eq_of_sheet (w : f.Wired) (w' : g.Wired) (hlinks : f.links = g.links)
    (hn : n ∈ f.nodes.values) (hn' : n' ∈ g.nodes.values) (h : n.sheet = n'.sheet) : n = n' := by
  have hget := w.get?_of_mem_values hn
  have hget' := w'.get?_of_mem_values hn'
  unfold Node.sheet at h
  simp only [NodeEntry.mk.injEq, true_and] at h
  obtain ⟨hid, hlid, htype, hhostname, hdescription, hmain, hmarks, hedges⟩ := h
  rw [← hid] at hget'
  have hports : n.ports = n'.ports := w.ports_eq w' hlinks hget hget'
  have hedges' : n.edges = n'.edges := by
    refine OrderedMap.eq_of_map_values (fun _ _ he => ((w.node_fit hget).edges_fit he).2.1)
      (fun _ _ he => ((w'.node_fit hget').edges_fit he).2.1) hedges fun e he e' he' heq => ?_
    exact w.edge_eq_of_sheet w' hlinks hget hget' he he' heq
  have hsub : n.subnodes = n'.subnodes := by
    apply OrderedMap.ext
    rw [(w.node_fit hget).subnodes_nil, (w'.node_fit hget').subnodes_nil]
  have hmarks' := Marks.eq_of_members hmarks
  cases n
  cases n'
  simp only [Node.mk.injEq]
  exact ⟨hid, hlid, htype, hdescription, hhostname, hsub, hmain, hmarks', hedges', hports⟩

/-- Wired fabrics have one sheet just if all that their documents are about is the same. -/
theorem sheet_eq_iff (w : f.Wired) (w' : g.Wired) (haside : f.asideNodes = g.asideNodes) :
    f.sheet = g.sheet ↔ f.documented = g.documented := by
  constructor
  · intro h
    have hsubnet : f.subnet = g.subnet := congrArg Document.subnet h
    have hhwloc : f.hwlocDir = g.hwlocDir := congrArg Document.hwlocDir h
    have hpartitions : f.partitions = g.partitions := congrArg Document.partitions h
    have hlinks : f.links = g.links :=
      OrderedMap.eq_of_map_values w.link_id w'.link_id (congrArg Document.links h)
        fun _ _ _ _ => linkEntry_inj
    have hnodes : f.nodes = g.nodes :=
      OrderedMap.eq_of_map_values (fun _ _ hn => (w.node_fit hn).id_eq)
        (fun _ _ hn => (w'.node_fit hn).id_eq) (congrArg Document.nodes h)
        fun _ hn _ hn' => w.node_eq_of_sheet w' hlinks hn hn'
    have hasideLinks : f.asideLinks = g.asideLinks :=
      OrderedMap.ext (w.aside_nil.trans w'.aside_nil.symm)
    have hlist : f.paths.list = g.paths.list := by
      refine (List.map_inj_right ?_).mp (congrArg Document.paths h)
      rintro ⟨source, dest, links⟩ ⟨source', dest', links'⟩ hpath
      simp only [PathEntry.mk.injEq] at hpath
      obtain ⟨rfl, rfl, rfl⟩ := hpath
      rfl
    have hpaths : f.paths.known = g.paths.known := Paths.known_eq_of_list hlist
    unfold documented
    rw [hpaths]
    cases f
    cases g
    simp only [Fabric.mk.injEq]
    exact ⟨hsubnet, hnodes, haside, hlinks, hasideLinks, trivial, trivial, hpartitions, hhwloc⟩
  · intro h
    rw [← f.sheet_documented, h, g.sheet_documented]

end Wired

end Fabric

end FabricPaths
