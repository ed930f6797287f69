import FabricPaths.Proofs.Fabric.Agreement
import FabricPaths.Proofs.Fabric.Decoration

/-!
# Pairing links

In a wired fabric each indexed link is paired exactly once, and with the link in
the slot at its far end if that link ends at its near end. The way back of the
way back is the link itself, so pairing is an involution where it succeeds.
-/

namespace FabricPaths

/-- The numbers in the slots of a node are distinct when no two slots share one. -/
theorem Node.nodup_links {β : Type} {n : Node β}
    (h : ∀ i j k, n.linkIn? i = some k → n.linkIn? j = some k → i = j) : n.links.Nodup := by
  unfold Node.links List.Nodup
  rw [List.pairwise_filterMap, List.pairwise_iff_getElem]
  intro i j hi hj hij k hk k' hk' heq
  have hki : n.linkIn? i = some k := by
    rw [linkIn?, List.getElem?_eq_getElem hi, hk]
    rfl
  have hkj : n.linkIn? j = some k := by
    rw [linkIn?, List.getElem?_eq_getElem hj, hk', heq]
    rfl
  have hsame : i = j := h i j k hki hkj
  omega

namespace Fabric

variable {β : Type}

/-- A link paired with the link that comes back. -/
def paired (f : Fabric β) (l : Link β) : Link β := l.pairedWith (f.returnId? l)

namespace Wired

variable {f : Fabric β}

/-- The number of the way back is that of a link in the far slot that ends at
the near one. -/
theorem returnOf?_eq_some_iff {l o : Link β} : f.returnOf? l = some o ↔
    ∃ n, f.nodes.get? l.dest = some n ∧ f.linkAt? n l.destPort = some o ∧ l.IsReturn o := by
  unfold returnOf?
  simp only [Option.bind_eq_bind, Option.bind_eq_some_iff]
  constructor
  · rintro ⟨n, hn, o', ho', h⟩
    by_cases hreturn : l.IsReturn o'
    · rw [if_pos hreturn] at h
      cases h
      exact ⟨n, hn, ho', hreturn⟩
    · rw [if_neg hreturn] at h
      cases h
  · rintro ⟨n, hn, ho, hreturn⟩
    exact ⟨n, hn, o, ho, if_pos hreturn⟩

/-- The link at a port of a node is the indexed link that leaves the node there. -/
theorem linkAt?_eq_some_iff (w : f.Wired) {id : NodeId} {n : Node β}
    (hn : f.nodes.get? id = some n) {port : Int} {l : Link β} :
    f.linkAt? n port = some l ↔
      f.links.get? l.id = some l ∧ l.parent = id ∧ l.srcPort = port := by
  unfold linkAt? Node.linkAt? Node.slotOf?
  constructor
  · intro h
    obtain ⟨k, hk, hl⟩ := Option.bind_eq_some_iff.mp h
    by_cases hport : 1 ≤ port ∧ port ≤ n.ports.length
    · rw [if_pos hport, Option.bind_some] at hk
      have hslot : f.linkIn? id (port - 1).toNat = some k := by
        rw [linkIn?_of_node hn]
        exact hk
      obtain ⟨l', hl', hparent, hs⟩ := w.plugged_link hslot
      rw [w.anyLink?_eq, hl'] at hl
      cases hl
      have hone := w.link_port hl'
      rw [w.link_id hl']
      rw [slotOf] at hs
      exact ⟨hl', hparent, by omega⟩
    · rw [if_neg hport] at hk
      cases hk
  · rintro ⟨hl, hparent, hport⟩
    have hone := w.link_port hl
    have hslot := w.link_plugged hl
    rw [hparent, linkIn?_of_node hn, Node.linkIn?, slotOf, hport] at hslot
    have hlt : (port - 1).toNat < n.ports.length := by
      apply Nat.lt_of_not_le
      intro hge
      rw [List.getElem?_eq_none hge] at hslot
      cases hslot
    have hin : 1 ≤ port ∧ port ≤ n.ports.length := by omega
    rw [if_pos hin, Option.bind_some, hslot, Option.bind_some, w.anyLink?_eq]
    exact hl

/-- The way back of an indexed link is an indexed link between the same ports. -/
theorem returnOf?_spec (w : f.Wired) {l o : Link β} (h : f.returnOf? l = some o) :
    f.links.get? o.id = some o ∧ o.parent = l.dest ∧ o.srcPort = l.destPort ∧ l.IsReturn o := by
  obtain ⟨n, hn, ho, hreturn⟩ := returnOf?_eq_some_iff.mp h
  obtain ⟨hlink, hparent, hport⟩ := (w.linkAt?_eq_some_iff hn).mp ho
  exact ⟨hlink, hparent, hport, hreturn⟩

/-- The way back of the way back is the link itself. -/
theorem returnOf?_symm (w : f.Wired) {k : LinkId} {l o : Link β} (hl : f.links.get? k = some l)
    (h : f.returnOf? l = some o) : f.returnOf? o = some l := by
  obtain ⟨-, hparent, hport, hdest, hdestPort⟩ := w.returnOf?_spec h
  obtain ⟨n, hn⟩ := w.link_parent hl
  have hself : f.links.get? l.id = some l := by
    rw [w.link_id hl]
    exact hl
  apply returnOf?_eq_some_iff.mpr
  refine ⟨n, ?_, ?_, hparent.symm, hport.symm⟩
  · rw [hdest]
    exact hn
  · exact (w.linkAt?_eq_some_iff hn).mpr ⟨hself, rfl, hdestPort.symm⟩

/-! ## Which links are paired -/

/-- Each node's own links are paired. -/
theorem pairedLinks_eq (w : f.Wired) : f.pairedLinks = f.nodes.values.flatMap f.linksOf := by
  unfold pairedLinks
  apply List.flatMap_congr
  intro n hn
  obtain ⟨id, hget⟩ := OrderedMap.mem_values_iff.mp hn
  have hsub : n.subnodes.entries.isEmpty = true := by
    rw [(w.node_fit hget).subnodes_nil]
    rfl
  rw [pairedNodes, if_pos hsub, List.flatMap_singleton]

/-- The links of a node are the indexed links in its slots. -/
theorem mem_linksOf (w : f.Wired) {id : NodeId} {n : Node β} (hn : f.nodes.get? id = some n)
    {l : Link β} : l ∈ f.linksOf n ↔ f.links.get? l.id = some l ∧ l.parent = id := by
  have hslot : ∀ k, k ∈ n.links ↔ ∃ i, f.linkIn? id i = some k := by
    intro k
    rw [Node.links, List.mem_filterMap]
    simp only [linkIn?_eq_some_iff hn, List.mem_iff_getElem?]
    constructor
    · rintro ⟨slot, ⟨i, hi⟩, hk⟩
      exact ⟨i, by rw [hi, hk]⟩
    · rintro ⟨i, hi⟩
      exact ⟨some k, ⟨i, hi⟩, rfl⟩
  simp only [linksOf, List.mem_filterMap, hslot, w.anyLink?_eq]
  constructor
  · rintro ⟨k, ⟨i, hi⟩, hl⟩
    obtain ⟨l', hl', hparent, -⟩ := w.plugged_link hi
    rw [hl'] at hl
    cases hl
    rw [w.link_id hl']
    exact ⟨hl', hparent⟩
  · rintro ⟨hl, hparent⟩
    refine ⟨l.id, ⟨slotOf l, ?_⟩, hl⟩
    rw [← hparent]
    exact w.link_plugged hl

/-- The paired links are the indexed ones. -/
theorem mem_pairedLinks (w : f.Wired) {l : Link β} :
    l ∈ f.pairedLinks ↔ f.links.get? l.id = some l := by
  rw [w.pairedLinks_eq, List.mem_flatMap]
  constructor
  · rintro ⟨n, hn, hl⟩
    obtain ⟨id, hget⟩ := OrderedMap.mem_values_iff.mp hn
    exact ((w.mem_linksOf hget).mp hl).1
  · intro hl
    obtain ⟨n, hn⟩ := w.link_parent hl
    exact ⟨n, OrderedMap.mem_values_iff.mpr ⟨_, hn⟩, (w.mem_linksOf hn).mpr ⟨hl, rfl⟩⟩

/-- No link of a node is listed twice. -/
theorem nodup_linksOf (w : f.Wired) {id : NodeId} {n : Node β}
    (hn : f.nodes.get? id = some n) : (f.linksOf n).Nodup := by
  have hids : n.links.Nodup := by
    apply Node.nodup_links
    intro i j k hi hj
    rw [← linkIn?_of_node hn] at hi hj
    exact (w.linkIn?_inj hi hj).2
  refine hids.filterMap ?_
  intro k k' l hk hk'
  rw [Option.mem_def, w.anyLink?_eq] at hk hk'
  rw [← w.link_id hk, ← w.link_id hk']

/-- No link is paired twice. -/
theorem nodup_pairedLinks (w : f.Wired) : f.pairedLinks.Nodup := by
  rw [w.pairedLinks_eq]
  refine OrderedMap.nodup_flatMap_values (fun _ _ => w.nodup_linksOf) ?_
  intro id id' n n' l hn hn' hl hl'
  rw [← ((w.mem_linksOf hn).mp hl).2, ← ((w.mem_linksOf hn').mp hl').2]

/-- An indexed link is one that is indexed under its own number. -/
theorem mem_links_values (w : f.Wired) {l : Link β} :
    l ∈ f.links.values ↔ f.links.get? l.id = some l := by
  rw [OrderedMap.mem_values_iff]
  constructor
  · rintro ⟨k, hk⟩
    rw [w.link_id hk]
    exact hk
  · intro h
    exact ⟨l.id, h⟩

/-- No link is indexed twice. -/
theorem nodup_links_values (w : f.Wired) : f.links.values.Nodup := by
  apply List.Nodup.of_map (·.id)
  rw [OrderedMap.map_values w.link_id]
  exact f.links.nodup_keys

/-- The paired links are the indexed ones in another order. -/
theorem perm_pairedLinks (w : f.Wired) : f.pairedLinks.Perm f.links.values := by
  rw [List.perm_ext_iff_of_nodup w.nodup_pairedLinks w.nodup_links_values]
  intro l
  rw [w.mem_pairedLinks, w.mem_links_values]

/-! ## What pairing does -/

/-- Pairing indexed links one after another pairs those that are listed. -/
theorem foldl_pair {ls : List (Link β)} (hls : ∀ l ∈ ls, f.links.get? l.id = some l)
    (g : Fabric β) (haside : g.asideLinks = ∅) :
    ls.foldl (fun g l => g.modifyLink l.id (·.pairedWith (f.returnId? l))) g =
      { g with links := g.links.mapValues fun k l =>
          if k ∈ ls.map (·.id) then l.pairedWith ((f.links.get? k).bind f.returnId?) else l } := by
  induction ls generalizing g with
  | nil =>
    rw [List.foldl_nil, OrderedMap.mapValues_eq_self]
    intro e _
    rw [List.map_nil, if_neg List.not_mem_nil]
  | cons l ls ih =>
    have haside' : (g.modifyLink l.id (·.pairedWith (f.returnId? l))).asideLinks = ∅ := by
      rw [modifyLink, haside]
      rfl
    rw [List.foldl_cons, ih (fun l' hl' => hls l' (List.mem_cons_of_mem l hl')) _ haside']
    have hlinks : ∀ k (l' : Link β), (if k ∈ ls.map (·.id) then
          (if k = l.id then l'.pairedWith (f.returnId? l) else l').pairedWith
            ((f.links.get? k).bind f.returnId?)
        else if k = l.id then l'.pairedWith (f.returnId? l) else l') =
        if k ∈ (l :: ls).map (·.id) then l'.pairedWith ((f.links.get? k).bind f.returnId?)
        else l' := by
      intro k l'
      by_cases hk : k = l.id
      · have hself : (f.links.get? k).bind f.returnId? = f.returnId? l := by
          rw [hk, hls l List.mem_cons_self, Option.bind_some]
        have hin : k ∈ (l :: ls).map (·.id) := by
          rw [List.map_cons, hk]
          exact List.mem_cons_self
        rw [if_pos hk, if_pos hin, hself]
        split <;> rfl
      · simp only [List.map_cons, List.mem_cons, hk, if_false, false_or]
    unfold modifyLink
    rw [OrderedMap.modify, OrderedMap.mapValues_mapValues, haside]
    simp only [hlinks]
    rfl

/-- Pairing a wired fabric pairs each indexed link and changes nothing else. -/
theorem pairLinks_eq (w : f.Wired) :
    f.pairLinks = { f with links := f.links.mapValues fun _ l => f.paired l } := by
  have haside : f.asideLinks = ∅ := OrderedMap.ext w.aside_nil
  have hindexed : ∀ l ∈ f.pairedLinks, f.links.get? l.id = some l :=
    fun l hl => w.mem_pairedLinks.mp hl
  change f.pairedLinks.foldl (fun g l => g.modifyLink l.id (·.pairedWith (f.returnId? l))) f = _
  rw [foldl_pair hindexed f haside]
  congr 1
  apply OrderedMap.mapValues_congr
  intro e he
  have hget : f.links.get? e.1 = some e.2 := OrderedMap.mem_entries_iff.mp he
  have hlisted : e.1 ∈ f.pairedLinks.map (·.id) := by
    have hid := w.link_id hget
    refine List.mem_map.mpr ⟨e.2, w.mem_pairedLinks.mpr ?_, hid⟩
    rw [hid]
    exact hget
  rw [if_pos hlisted, hget, Option.bind_some, paired]

/-- A link is indexed after pairing as it was before, but for its pairing. -/
theorem links_pairLinks (w : f.Wired) (k : LinkId) :
    f.pairLinks.links.get? k = (f.links.get? k).map f.paired := by
  rw [w.pairLinks_eq, OrderedMap.get?_mapValues]

/-- A link leaves the same port after pairing. -/
theorem linkAt?_pairLinks (w : f.Wired) (n : Node β) (port : Int) :
    f.pairLinks.linkAt? n port = (f.linkAt? n port).map f.paired := by
  have w' : f.pairLinks.Wired := w.of_bare_eq f.bare_pairLinks
  unfold linkAt?
  cases n.linkAt? port with
  | none => rfl
  | some k =>
    rw [Option.bind_some, Option.bind_some, w'.anyLink?_eq, w.anyLink?_eq, w.links_pairLinks]

/-- The link that a link is paired with is indexed, comes back between the same
nodes, and is paired with the link itself. -/
theorem otherLink_symm (w : f.Wired) {k other : LinkId} {l : Link β}
    (hl : f.pairLinks.links.get? k = some l) (hother : l.otherLink = some other) :
    ∃ o, f.pairLinks.links.get? other = some o ∧ o.otherLink = some k ∧
      o.parent = l.dest ∧ o.dest = l.parent := by
  rw [w.links_pairLinks] at hl
  obtain ⟨l', hl', rfl⟩ := Option.map_eq_some_iff.mp hl
  obtain ⟨o, ho, hid⟩ := Option.map_eq_some_iff.mp hother
  obtain ⟨hlink, hparent, -, hdest, -⟩ := w.returnOf?_spec ho
  have hback : f.returnId? o = some k := by
    rw [returnId?, w.returnOf?_symm hl' ho, Option.map_some, w.link_id hl']
  refine ⟨f.paired o, ?_, hback, hparent, hdest⟩
  rw [w.links_pairLinks, ← hid, hlink, Option.map_some]

end Wired

end Fabric

end FabricPaths
