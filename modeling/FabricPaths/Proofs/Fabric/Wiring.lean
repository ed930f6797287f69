import FabricPaths.Proofs.Fabric.Plug

/-!
# Wiring

A fabric tells of its links three times: in the index of links, in the slots of
the nodes, and on the edges, which list slots. `Wired` says that the three agree
and is kept by new nodes and by plugging links. From it the agreement follows in
the words of each pair: links and slots, slots and edges.
-/

namespace FabricPaths

/-- A node that is kept under its own identifier, has no subnodes, whose edges
fit, and whose last slot is not empty. -/
structure Node.Fit {β : Type} (n : Node β) (id : NodeId) : Prop where
  /-- The node is kept under its own identifier. -/
  id_eq : n.id = id
  /-- Nothing was put under the node. -/
  subnodes_nil : n.subnodes.entries = []
  /-- The node's edges fit. -/
  edges_fit : n.EdgesFit
  /-- The node's last slot is not empty. -/
  last_slot : n.ports.getLast? ≠ some none

namespace Fabric

variable {β : Type}

/-- The index of links, the slots and the edges agree. -/
structure Wired (f : Fabric β) : Prop where
  /-- The nodes fit. -/
  node_fit : ∀ ⦃id n⦄, f.nodes.get? id = some n → n.Fit id
  /-- No link was put aside. -/
  aside_nil : f.asideLinks.entries = []
  /-- Links are kept under their own numbers. -/
  link_id : ∀ ⦃k l⦄, f.links.get? k = some l → l.id = k
  /-- Ports are counted from one. -/
  link_port : ∀ ⦃k l⦄, f.links.get? k = some l → 1 ≤ l.srcPort
  /-- A link is in the slot of its source port. -/
  link_plugged : ∀ ⦃k l⦄, f.links.get? k = some l → f.linkIn? l.parent (slotOf l) = some k
  /-- A link ends at a known node. -/
  link_dest : ∀ ⦃k l⦄, f.links.get? k = some l → ∃ n, f.nodes.get? l.dest = some n
  /-- A slot holds a link that leaves through it. -/
  plugged_link : ∀ ⦃id i k⦄, f.linkIn? id i = some k →
    ∃ l, f.links.get? k = some l ∧ l.parent = id ∧ slotOf l = i
  /-- Links are indexed in the order of their numbers. -/
  ascending : f.links.keys.Pairwise (· < ·)
  /-- An edge lists the slots whose links end where it ends. -/
  mem_listed : ∀ {id d p}, p ∈ f.listed id d ↔
    ∃ (i : Nat) (k : LinkId) (l : Link β),
      p = i ∧ f.linkIn? id i = some k ∧ f.links.get? k = some l ∧ l.dest = d

namespace Wired

variable {f : Fabric β}

/-- All links are in the index. -/
theorem anyLink?_eq (w : f.Wired) (k : LinkId) : f.anyLink? k = f.links.get? k := by
  have haside : f.asideLinks.get? k = none := by
    rw [OrderedMap.get?, w.aside_nil, OrderedMap.lookup]
  rw [anyLink?, haside, Option.or_none]

/-- The link in a slot is the one whose number the slot holds. -/
theorem plugged?_eq (w : f.Wired) {id : NodeId} {n : Node β} (hn : f.nodes.get? id = some n)
    (slot : Nat) : f.plugged? n slot = (f.linkIn? id slot).bind f.links.get? := by
  rw [linkIn?_of_node hn, Node.linkIn?, plugged?]
  congr 1
  exact funext w.anyLink?_eq

/-- A slot whose number is known holds the link of that number. -/
theorem plugged?_of_linkIn? (w : f.Wired) {id : NodeId} {n : Node β}
    (hn : f.nodes.get? id = some n) {slot : Nat} {k : LinkId} (h : f.linkIn? id slot = some k) :
    ∃ l, f.plugged? n slot = some l ∧ f.links.get? k = some l := by
  obtain ⟨l, hl, -, -⟩ := w.plugged_link h
  refine ⟨l, ?_, hl⟩
  rw [w.plugged?_eq hn, h, Option.bind_some, hl]

/-- A node is found under its own identifier. -/
theorem get?_of_mem_values (w : f.Wired) {n : Node β} (hn : n ∈ f.nodes.values) :
    f.nodes.get? n.id = some n := by
  obtain ⟨id, hget⟩ := OrderedMap.mem_values_iff.mp hn
  rw [(w.node_fit hget).id_eq]
  exact hget

/-- Nodes of one identifier are one node. -/
theorem eq_of_id_eq (w : f.Wired) {n n' : Node β} (hn : n ∈ f.nodes.values)
    (hn' : n' ∈ f.nodes.values) (h : n.id = n'.id) : n = n' := by
  have hget := w.get?_of_mem_values hn
  rw [h, w.get?_of_mem_values hn'] at hget
  exact (Option.some.inj hget).symm

/-- A known identifier is that of a node. -/
theorem exists_node (w : f.Wired) {id : NodeId} (h : id ∈ f.nodes.keys) :
    ∃ n ∈ f.nodes.values, n.id = id := by
  obtain ⟨n, hn⟩ := OrderedMap.mem_keys_iff.mp h
  exact ⟨n, OrderedMap.mem_values_iff.mpr ⟨id, hn⟩, (w.node_fit hn).id_eq⟩

/-- The nodes have their identifiers in the order of the index. -/
theorem node_ids (w : f.Wired) : f.nodes.values.map (·.id) = f.nodes.keys :=
  OrderedMap.map_values fun _ _ hn => (w.node_fit hn).id_eq

/-- The hosts have distinct identifiers. -/
theorem nodup_host_ids (w : f.Wired) : (f.hosts.map (·.id)).Nodup := by
  have hnodup : (f.nodes.values.map (·.id)).Nodup := by
    rw [w.node_ids]
    exact f.nodes.nodup_keys
  exact (List.filter_sublist.map _).nodup hnodup

/-- The fabric without nodes is wired. -/
theorem empty (subnet : String) : ({ subnet } : Fabric β).Wired where
  node_fit := nofun
  aside_nil := rfl
  link_id := nofun
  link_port := nofun
  link_plugged := nofun
  link_dest := nofun
  plugged_link := nofun
  ascending := List.Pairwise.nil
  mem_listed := by
    intro id d p
    constructor
    · exact nofun
    · rintro ⟨i, k, l, -, h, -, -⟩
      exact nomatch h

/-- A new node without slots and edges changes no slot. -/
theorem linkIn?_insert_node {id : NodeId} (hnew : f.nodes.get? id = none) {n : Node β}
    (hports : n.ports = []) (x : NodeId) (i : Nat) :
    ({ f with nodes := f.nodes.insert id n }).linkIn? x i = f.linkIn? x i := by
  unfold linkIn?
  dsimp only
  rw [OrderedMap.get?_insert]
  by_cases hx : x = id
  · subst hx
    rw [if_pos rfl, hnew, Option.bind_some, Node.linkIn?, hports]
    rfl
  · rw [if_neg hx]

/-- A new node without slots and edges changes no edge. -/
theorem listed_insert_node {id : NodeId} (hnew : f.nodes.get? id = none) {n : Node β}
    (hedges : n.edges = ∅) (x d : NodeId) :
    ({ f with nodes := f.nodes.insert id n }).listed x d = f.listed x d := by
  unfold listed
  dsimp only
  rw [OrderedMap.get?_insert]
  by_cases hx : x = id
  · subst hx
    rw [if_pos rfl, hnew]
    dsimp only
    unfold Node.listed
    rw [hedges]
    rfl
  · rw [if_neg hx]

/-- A new node without slots and edges leaves the fabric wired. -/
theorem insert_node (w : f.Wired) {id : NodeId} (hnew : f.nodes.get? id = none) {n : Node β}
    (hid : n.id = id) (hports : n.ports = []) (hedges : n.edges = ∅)
    (hsub : n.subnodes.entries = []) :
    ({ f with nodes := f.nodes.insert id n }).Wired where
  node_fit := by
    intro x m hm
    dsimp only at hm
    rw [OrderedMap.get?_insert] at hm
    by_cases hx : x = id
    · rw [if_pos hx] at hm
      cases hm
      subst hx
      refine ⟨hid, hsub, ?_, ?_⟩
      · intro d e he
        rw [hedges] at he
        exact nomatch he
      · rw [hports]
        simp
    · rw [if_neg hx] at hm
      exact w.node_fit hm
  aside_nil := w.aside_nil
  link_id := w.link_id
  link_port := w.link_port
  link_plugged := by
    intro k l hl
    rw [linkIn?_insert_node hnew hports]
    exact w.link_plugged hl
  link_dest := by
    intro k l hl
    obtain ⟨m, hm⟩ := w.link_dest hl
    have hne : l.dest ≠ id := by
      intro h
      rw [h, hnew] at hm
      cases hm
    refine ⟨m, ?_⟩
    dsimp only
    rw [OrderedMap.get?_insert, if_neg hne, hm]
  plugged_link := by
    intro x i k h
    rw [linkIn?_insert_node hnew hports] at h
    exact w.plugged_link h
  ascending := w.ascending
  mem_listed := by
    intro x d p
    rw [listed_insert_node hnew hedges]
    simp only [linkIn?_insert_node hnew hports]
    exact w.mem_listed

/-- A number is in one slot only. -/
theorem linkIn?_inj (w : f.Wired) {id id' : NodeId} {i i' : Nat} {k : LinkId}
    (h : f.linkIn? id i = some k) (h' : f.linkIn? id' i' = some k) : id = id' ∧ i = i' := by
  obtain ⟨l, hl, hp, hs⟩ := w.plugged_link h
  obtain ⟨l', hl', hp', hs'⟩ := w.plugged_link h'
  rw [hl] at hl'
  cases hl'
  exact ⟨hp.symm.trans hp', hs.symm.trans hs'⟩

variable [Bandwidth β] {n : Node β} {l : Link β}

/-- Before a link is plugged in, its slot is listed on no edge but the one to
the same destination. -/
theorem listed_vacated (w : f.Wired) (hn : f.nodes.get? l.parent = some n) (d : NodeId) :
    (f.vacated n l).listed d =
      if d = l.dest then n.listed d else (n.listed d).erase (slotOf l : Int) := by
  unfold vacated
  cases hold : f.plugged? n (slotOf l) with
  | none =>
    have hout : (slotOf l : Int) ∉ n.listed d := by
      rw [← listed_of_node hn]
      intro hin
      obtain ⟨i, k, l', hi, hk, -, -⟩ := w.mem_listed.mp hin
      obtain ⟨l'', hl'', -⟩ := w.plugged?_of_linkIn? hn hk
      have hslot : slotOf l = i := by omega
      rw [← hslot, hold] at hl''
      cases hl''
    dsimp only
    rw [List.erase_of_not_mem hout, ite_self]
  | some old =>
    dsimp only
    rw [Node.listed_detach]
    by_cases hd : d = l.dest
    · rw [if_pos hd]
      by_cases hold' : d = old.dest
      · have hsame : decide (old.dest = l.dest) = true := by
          rw [← hold', hd, decide_eq_true_eq]
        rw [if_neg]
        rw [hsame]
        exact fun h => Bool.false_ne_true h.2.symm
      · rw [if_neg (fun h => hold' h.1)]
    · rw [if_neg hd]
      by_cases hold' : d = old.dest
      · have hother : decide (old.dest = l.dest) = false := by
          rw [← hold', decide_eq_false_iff_not]
          exact hd
        rw [if_pos ⟨hold', hother⟩]
      · have hout : (slotOf l : Int) ∉ n.listed d := by
          rw [← listed_of_node hn]
          intro hin
          obtain ⟨i, k, l', hi, hk, hl', hdest⟩ := w.mem_listed.mp hin
          have hslot : slotOf l = i := by omega
          rw [w.plugged?_eq hn, hslot, hk, Option.bind_some, hl'] at hold
          cases hold
          exact hold' hdest.symm
        rw [if_neg (fun h => hold' h.1), List.erase_of_not_mem hout]

/-- A plugged link's slot is listed on the edge to the link's destination and on
no other; the other slots are listed where they were. -/
theorem mem_listed_plug (w : f.Wired) (hn : f.nodes.get? l.parent = some n) (id d : NodeId)
    (p : Int) : p ∈ (f.plug n l).listed id d ↔
      if id = l.parent ∧ p = slotOf l then d = l.dest else p ∈ f.listed id d := by
  by_cases hid : id = l.parent
  · subst hid
    have hnode : (f.plug n l).nodes.get? l.parent = some (f.pluggedNode n l) := by
      rw [plug_nodes, OrderedMap.get?_insert, if_pos rfl]
    have hnodup := (w.node_fit hn).edges_fit.nodup_listed d
    rw [listed_of_node hnode, listed_of_node hn, pluggedNode, Node.listed_attach]
    change (p ∈ if d = l.dest then
        if (slotOf l : Int) ∈ (f.vacated n l).listed d then (f.vacated n l).listed d
        else (f.vacated n l).listed d ++ [(slotOf l : Int)]
      else (f.vacated n l).listed d) ↔ _
    rw [w.listed_vacated hn]
    by_cases hd : d = l.dest
    · simp only [if_pos hd]
      by_cases hin : (slotOf l : Int) ∈ n.listed d
      · rw [if_pos hin]
        grind
      · rw [if_neg hin, List.mem_append, List.mem_singleton]
        grind
    · simp only [if_neg hd]
      rw [hnodup.mem_erase_iff]
      grind
  · have hsame : (f.plug n l).nodes.get? id = f.nodes.get? id := by
      rw [plug_nodes, OrderedMap.get?_insert, if_neg hid]
    rw [listed, hsame, if_neg (fun h => hid h.1), listed]

/-- Plugging a link puts it under its number and removes the former link of its slot. -/
theorem links_plug (w : f.Wired) (hn : f.nodes.get? l.parent = some n) (k : LinkId) :
    (f.plug n l).links.get? k =
      if k = l.id then some l
      else if f.linkIn? l.parent (slotOf l) = some k then none else f.links.get? k := by
  rw [plug_links, OrderedMap.get?_insert]
  by_cases hk : k = l.id
  · rw [if_pos hk, if_pos hk]
  · rw [if_neg hk, if_neg hk]
    cases hslot : f.linkIn? l.parent (slotOf l) with
    | none =>
      have hold : f.plugged? n (slotOf l) = none := by
        rw [w.plugged?_eq hn, hslot, Option.bind_none]
      rw [hold, if_neg (fun h => nomatch h)]
    | some k' =>
      obtain ⟨old, hold, hlink⟩ := w.plugged?_of_linkIn? hn hslot
      rw [hold]
      dsimp only
      rw [OrderedMap.get?_erase, w.link_id hlink]
      simp only [Option.some.injEq, eq_comm]

/-- An indexed link is the one that was plugged in last, or one from before that
was not in its slot. -/
theorem links_plug_cases (w : f.Wired) (hn : f.nodes.get? l.parent = some n) {k : LinkId}
    {l' : Link β} (h : (f.plug n l).links.get? k = some l') :
    (k = l.id ∧ l' = l) ∨
      (k ≠ l.id ∧ f.linkIn? l.parent (slotOf l) ≠ some k ∧ f.links.get? k = some l') := by
  rw [w.links_plug hn] at h
  by_cases hk : k = l.id
  · rw [if_pos hk] at h
    exact .inl ⟨hk, (Option.some.inj h).symm⟩
  · rw [if_neg hk] at h
    by_cases hslot : f.linkIn? l.parent (slotOf l) = some k
    · rw [if_pos hslot] at h
      cases h
    · rw [if_neg hslot] at h
      exact .inr ⟨hk, hslot, h⟩

/-- Links in other slots stay. -/
theorem links_plug_of_other (w : f.Wired) (hn : f.nodes.get? l.parent = some n)
    (hnew : ∀ k ∈ f.links.keys, k < l.id) {x : NodeId} {i : Nat} {k : LinkId} {l' : Link β}
    (hother : ¬(x = l.parent ∧ i = slotOf l)) (hslot : f.linkIn? x i = some k)
    (hl' : f.links.get? k = some l') : (f.plug n l).links.get? k = some l' := by
  have hlt := hnew k (OrderedMap.mem_keys_of_get? hl')
  have hne : k ≠ l.id := Nat.ne_of_lt hlt
  have hout : f.linkIn? l.parent (slotOf l) ≠ some k := by
    intro h
    obtain ⟨hx, hi⟩ := w.linkIn?_inj hslot h
    exact hother ⟨hx, hi⟩
  rw [w.links_plug hn, if_neg hne, if_neg hout, hl']

/-- Plugging a link with a number above all others keeps the numbers ascending. -/
theorem ascending_plug (w : f.Wired) (hnew : ∀ k ∈ f.links.keys, k < l.id) :
    (f.plug n l).links.keys.Pairwise (· < ·) := by
  have hrest : ∀ m : OrderedMap LinkId (Link β), m.keys.Sublist f.links.keys →
      (m.insert l.id l).keys.Pairwise (· < ·) := by
    intro m hsub
    have habsent : m.get? l.id = none := by
      cases hm : m.get? l.id with
      | none => rfl
      | some l' =>
        exact absurd (hnew l.id (hsub.subset (OrderedMap.mem_keys_of_get? hm))) (Nat.lt_irrefl _)
    rw [OrderedMap.keys_insert_of_new habsent, List.pairwise_append]
    refine ⟨w.ascending.sublist hsub, List.pairwise_singleton _ _, ?_⟩
    intro k hk k' hk'
    rw [List.mem_singleton] at hk'
    subst hk'
    exact hnew k (hsub.subset hk)
  rw [plug_links]
  cases f.plugged? n (slotOf l) with
  | none => exact hrest f.links (List.Sublist.refl _)
  | some old =>
    apply hrest
    rw [OrderedMap.keys_erase]
    exact List.filter_sublist

/-- The node of a plugged link fits. -/
theorem fit_pluggedNode (w : f.Wired) (hn : f.nodes.get? l.parent = some n) :
    (f.pluggedNode n l).Fit l.parent := by
  have hfit := w.node_fit hn
  obtain ⟨hid, hports, hsub, -⟩ := f.vacated_frame n l
  constructor
  · exact hid.trans hfit.id_eq
  · change (f.vacated n l).subnodes.entries = []
    rw [hsub]
    exact hfit.subnodes_nil
  · apply Node.EdgesFit.attach
    change (f.vacated n l).EdgesFit
    unfold vacated
    cases f.plugged? n (slotOf l) with
    | none => exact hfit.edges_fit
    | some old => exact hfit.edges_fit.detach _ _ _
  · apply Node.getLast?_setSlot
    rw [hports]
    exact hfit.last_slot

/-- Once a link is plugged in, an edge lists the slots whose links end where it ends. -/
theorem mem_listed_plug_iff (w : f.Wired) (hn : f.nodes.get? l.parent = some n)
    (hnew : ∀ k ∈ f.links.keys, k < l.id) {x d : NodeId} {p : Int} :
    p ∈ (f.plug n l).listed x d ↔ ∃ (i : Nat) (k : LinkId) (l' : Link β),
      p = i ∧ (f.plug n l).linkIn? x i = some k ∧ (f.plug n l).links.get? k = some l' ∧
        l'.dest = d := by
  rw [w.mem_listed_plug hn]
  by_cases hat : x = l.parent ∧ p = slotOf l
  · rw [if_pos hat]
    obtain ⟨rfl, rfl⟩ := hat
    constructor
    · intro hd
      refine ⟨slotOf l, l.id, l, rfl, ?_, ?_, hd.symm⟩
      · rw [linkIn?_plug hn, if_pos ⟨rfl, rfl⟩]
      · rw [w.links_plug hn, if_pos rfl]
    · rintro ⟨i, k, l', hi, hk, hl', hd⟩
      have hslot : i = slotOf l := by omega
      rw [linkIn?_plug hn, if_pos ⟨rfl, hslot⟩] at hk
      cases hk
      rw [w.links_plug hn, if_pos rfl] at hl'
      cases hl'
      exact hd.symm
  · have hother : ∀ i : Nat, p = i → ¬(x = l.parent ∧ i = slotOf l) := by
      rintro i hi ⟨hx, hslot⟩
      exact hat ⟨hx, by rw [hi, hslot]⟩
    rw [if_neg hat, w.mem_listed]
    constructor
    · rintro ⟨i, k, l', hi, hk, hl', hd⟩
      have hstays := w.links_plug_of_other hn hnew (hother i hi) hk hl'
      refine ⟨i, k, l', hi, ?_, hstays, hd⟩
      rw [linkIn?_plug hn, if_neg (hother i hi)]
      exact hk
    · rintro ⟨i, k, l', hi, hk, hl', hd⟩
      rw [linkIn?_plug hn, if_neg (hother i hi)] at hk
      obtain ⟨old, hold, -, -⟩ := w.plugged_link hk
      obtain ⟨rfl, rfl⟩ | ⟨-, -, hl'⟩ := w.links_plug_cases hn hl'
      · exact absurd (hnew _ (OrderedMap.mem_keys_of_get? hold)) (Nat.lt_irrefl _)
      · exact ⟨i, k, l', hi, hk, hl', hd⟩

/-- Plugging a link between known nodes, under a number above all others, leaves
the fabric wired. -/
theorem plug (w : f.Wired) (hn : f.nodes.get? l.parent = some n)
    (hdest : ∃ m, f.nodes.get? l.dest = some m) (hport : 1 ≤ l.srcPort)
    (hnew : ∀ k ∈ f.links.keys, k < l.id) : (f.plug n l).Wired where
  node_fit := by
    intro x m hm
    rw [plug_nodes, OrderedMap.get?_insert] at hm
    by_cases hx : x = l.parent
    · rw [if_pos hx] at hm
      cases hm
      rw [hx]
      exact w.fit_pluggedNode hn
    · rw [if_neg hx] at hm
      exact w.node_fit hm
  aside_nil := by
    rw [plug_asideLinks]
    cases f.plugged? n (slotOf l) with
    | none => exact w.aside_nil
    | some old =>
      change f.asideLinks.entries.filter _ = []
      rw [w.aside_nil, List.filter_nil]
  link_id := by
    intro k l' hl'
    obtain ⟨hk, rfl⟩ | ⟨-, -, hl'⟩ := w.links_plug_cases hn hl'
    · exact hk.symm
    · exact w.link_id hl'
  link_port := by
    intro k l' hl'
    obtain ⟨-, rfl⟩ | ⟨-, -, hl'⟩ := w.links_plug_cases hn hl'
    · exact hport
    · exact w.link_port hl'
  link_plugged := by
    intro k l' hl'
    rw [linkIn?_plug hn]
    obtain ⟨hk, rfl⟩ | ⟨-, hout, hl'⟩ := w.links_plug_cases hn hl'
    · rw [if_pos ⟨rfl, rfl⟩, hk]
    · have hslot := w.link_plugged hl'
      rw [if_neg]
      · exact hslot
      · rintro ⟨hx, hi⟩
        rw [hx, hi] at hslot
        exact hout hslot
  link_dest := by
    intro k l' hl'
    have hknown : ∃ m, f.nodes.get? l'.dest = some m := by
      obtain ⟨-, rfl⟩ | ⟨-, -, hl'⟩ := w.links_plug_cases hn hl'
      · exact hdest
      · exact w.link_dest hl'
    obtain ⟨m, hm⟩ := hknown
    rw [plug_nodes, OrderedMap.get?_insert]
    by_cases hx : l'.dest = l.parent
    · rw [if_pos hx]
      exact ⟨_, rfl⟩
    · rw [if_neg hx]
      exact ⟨m, hm⟩
  plugged_link := by
    intro x i k h
    rw [linkIn?_plug hn] at h
    by_cases hat : x = l.parent ∧ i = slotOf l
    · rw [if_pos hat] at h
      cases h
      refine ⟨l, ?_, hat.1.symm, hat.2.symm⟩
      rw [w.links_plug hn, if_pos rfl]
    · rw [if_neg hat] at h
      obtain ⟨l', hl', hparent, hslot⟩ := w.plugged_link h
      exact ⟨l', w.links_plug_of_other hn hnew hat h hl', hparent, hslot⟩
  ascending := w.ascending_plug hnew
  mem_listed := w.mem_listed_plug_iff hn hnew

end Wired

end Fabric

end FabricPaths
