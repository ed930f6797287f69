import FabricPaths.Proofs.Path.Recorded

/-!
# Walks to one destination merge

What a node does with the traffic for a destination depends on nothing that happened before. So
two complete walks to one destination that come to the same node, other than by starting there,
take the same links from then on. Beyond their first links the complete walks to a destination
form a tree with the destination as its root. The first link of a source is none that a table
chose, which is why it need not belong to the tree.
-/

namespace FabricPaths

variable {joins : LinkId → NodeId → NodeId → Prop} {root : NodeId}

/-- No chain leads from a root that no link leaves. -/
theorem Chain.not_of_root (hroot : ∀ k v, ¬ joins k root v) {p : List LinkId} :
    ¬ Chain joins root p root := by
  rintro (hk | hk)
  · exact hroot _ _ hk
  · exact hroot _ _ hk

/-- There is one chain at most to a root that no link leaves, if one link at most leaves each
node. -/
theorem Chain.unique (hroot : ∀ k v, ¬ joins k root v)
    (hone : ∀ k k' u v v', joins k u v → joins k' u v' → k = k' ∧ v = v') {source : NodeId}
    {p q : List LinkId} (h : Chain joins source p root) (h' : Chain joins source q root) :
    p = q := by
  induction h generalizing q with
  | last hk =>
    cases h' with
    | last hk' => rw [(hone _ _ _ _ _ hk hk').1]
    | cons hk' rest =>
      rw [← (hone _ _ _ _ _ hk hk').2] at rest
      exact absurd rest (Chain.not_of_root hroot)
  | cons hk rest ih =>
    cases h' with
    | last hk' =>
      rw [(hone _ _ _ _ _ hk hk').2] at rest
      exact absurd rest (Chain.not_of_root hroot)
    | cons hk' rest' =>
      obtain ⟨rfl, rfl⟩ := hone _ _ _ _ _ hk hk'
      rw [ih hroot rest']

/-- There is one way at most to a root that no link leaves, if one link at most leaves each
node. -/
theorem Descends.unique (hroot : ∀ k v, ¬ joins k root v)
    (hone : ∀ k k' u v v', joins k u v → joins k' u v' → k = k' ∧ v = v') {v : NodeId}
    {p q : List LinkId} (h : Descends joins root v p) (h' : Descends joins root v q) : p = q := by
  rcases h with ⟨rfl, rfl⟩ | h
  · rcases h' with ⟨-, rfl⟩ | h'
    · rfl
    · exact absurd h' (Chain.not_of_root hroot)
  · rcases h' with ⟨rfl, -⟩ | h'
    · exact absurd h (Chain.not_of_root hroot)
    · exact h.unique hroot hone h'

/-- The links are those of a tree among the members: none leaves the root, and from each member
there is exactly one way to the root. -/
structure IsTree (joins : LinkId → NodeId → NodeId → Prop) (root : NodeId)
    (member : NodeId → Prop) : Prop where
  /-- The links lead from members to members. -/
  joined : ∀ k u v, joins k u v → member u ∧ member v
  /-- No link leaves the root. -/
  root_last : ∀ k v, ¬ joins k root v
  /-- There is exactly one way from a member to the root. -/
  one_way : ∀ v, member v → ∃! path, Descends joins root v path

namespace Fabric

variable {β : Type}

/-- A complete walk from some node of the fabric. -/
def Completes (f : Fabric β) (dst : Node β) (a : Attempt) : Prop :=
  (∃ src ∈ f.nodes.values, f.trace src dst = .ok a) ∧ a.status = .complete

/-- A complete walk to the destination comes to the node after its first one. -/
def Meets (f : Fabric β) (dst : Node β) (v : NodeId) : Prop :=
  ∃ a, f.Completes dst a ∧ v ∈ a.nodes.tail

/-- A complete walk to the destination takes the link after its first one. -/
def Onward (f : Fabric β) (dst : Node β) (k : LinkId) (u v : NodeId) : Prop :=
  (∃ a, f.Completes dst a ∧ k ∈ a.links.tail) ∧ f.Joins k u v

variable {f : Fabric β} {dest : NodeId} {visited : List NodeId} {ls : List (Link β)} {c : Course}

/-- The destination relays nothing. -/
theorem not_relays_dest (f : Fabric β) (dest : NodeId) (k : LinkId) (v : NodeId) :
    ¬ f.Relays dest k dest v := fun h => h.1 rfl

/-- A node relays along one link. -/
theorem relays_unique (f : Fabric β) (dest : NodeId) (k k' : LinkId) (u v v' : NodeId)
    (h : f.Relays dest k u v) (h' : f.Relays dest k' u v') : k = k' ∧ v = v' := by
  obtain ⟨-, l, hl, rfl, rfl⟩ := h
  obtain ⟨-, l', hl', rfl, rfl⟩ := h'
  rw [hl] at hl'
  cases hl'
  exact ⟨rfl, rfl⟩

namespace Trail

/-- From a node of a complete walk, the links that remain lead to the destination. -/
theorem descends_from (t : f.Trail dest visited ls c) (h : c.status = .complete) {i : Nat}
    {v : NodeId} (hv : c.nodes[i]? = some v) :
    Descends (f.Relays dest) dest v (c.links.drop (i + 1)) := by
  induction t generalizing i with
  | repeated seen => cases hv
  | arrived new there =>
    cases i with
    | zero =>
      cases hv
      exact Or.inl ⟨there, rfl⟩
    | succ i => cases hv
  | stuck new short stalls =>
    cases h
    exact stalls.elim
  | @along visited link next later c new short hop rest ih =>
    cases i with
    | zero =>
      cases hv
      have hdescends := (rest.descends h next rfl).hop ⟨short, next, hop, rfl, rfl⟩
      change Descends _ _ _ c.links
      rw [rest.numbers]
      exact hdescends
    | succ i => exact ih h hv

/-- Each link after the first is the one along which the node where another lands sends the
traffic. -/
theorem relayed_tail (t : f.Trail dest visited ls c) :
    ∀ l ∈ ls.tail, ∃ l' ∈ ls, l'.dest ≠ dest ∧ f.egress? dest l'.dest = some l := by
  induction t with
  | repeated seen => nofun
  | arrived new there => nofun
  | stuck new short stalls => nofun
  | @along visited link next later c new short hop rest ih =>
    intro l hl
    rcases List.mem_cons.mp hl with rfl | hl
    · exact ⟨link, List.mem_cons_self, short, hop⟩
    · obtain ⟨l', hl', hrelays⟩ := ih l hl
      exact ⟨l', List.mem_cons_of_mem _ hl', hrelays⟩

end Trail

namespace Wired

variable {dst : Node β} {a : Attempt}

/-- A complete walk through a wired fabric leaves a trail of indexed links. -/
theorem trail_of_completes (w : f.Wired) (h : f.Completes dst a) :
    ∃ src ls c detail, f.Trail dst.id [src] ls c ∧ c.status = .complete ∧
      a = c.attempt src dst.id detail ∧ ∀ l ∈ ls, f.links.get? l.id = some l := by
  obtain ⟨⟨src, hsrc, ha⟩, hcomplete⟩ := h
  rcases w.firstLink?_cases (w.get?_of_mem_values hsrc) with hnone | ⟨first, hsome, hfirst, -⟩
  · obtain ⟨detail, -, rfl⟩ := (trace_eq_ok_iff hnone dst a).mp ha
    cases hcomplete
  · obtain ⟨detail, -, rfl⟩ := (trace_eq_ok_iff hsome dst a).mp ha
    obtain ⟨later, t⟩ := w.follow_trail dst [src.id] first hfirst
    refine ⟨src.id, _, _, detail, t, hcomplete, rfl, t.indexed w ?_⟩
    rintro l ⟨⟩
    exact hfirst

/-- From a node that a complete walk comes to, the links that remain lead to the destination. -/
theorem descends_of_completes (w : f.Wired) (h : f.Completes dst a) {i : Nat} {v : NodeId}
    (hv : a.nodes[i + 1]? = some v) :
    Descends (f.Relays dst.id) dst.id v (a.links.drop (i + 1)) := by
  obtain ⟨src, ls, c, detail, t, hcomplete, rfl, -⟩ := w.trail_of_completes h
  exact t.descends_from hcomplete hv

/-- A link that a complete walk takes after its first one is one along which a node short of
the destination, which the walk came to, sends the traffic; and the walk comes to its end. -/
theorem relays_of_onward (w : f.Wired) {k : LinkId} {u v : NodeId} (h : f.Onward dst k u v) :
    f.Relays dst.id k u v ∧ f.Meets dst u ∧ f.Meets dst v := by
  obtain ⟨⟨a, ha, hk⟩, l, hl, rfl, rfl⟩ := h
  obtain ⟨src, ls, c, detail, t, hcomplete, rfl, hindexed⟩ := w.trail_of_completes ha
  have hlands : ls.map (·.dest) = c.nodes :=
    t.lands fun hloop => nomatch hcomplete.symm.trans hloop
  change k ∈ c.links.tail at hk
  rw [t.numbers, ← List.map_tail] at hk
  obtain ⟨l', hl', rfl⟩ := List.mem_map.mp hk
  have hsame := hindexed l' (List.mem_of_mem_tail hl')
  rw [hl] at hsame
  cases hsame
  obtain ⟨before, hbefore, hne, hop⟩ := t.relayed_tail l hl'
  have hparent : l.parent = before.dest := (w.egress?_spec hop).2
  rw [hparent]
  have hmeets : ∀ l ∈ ls, f.Meets dst l.dest := by
    intro l hl
    refine ⟨_, ha, ?_⟩
    change l.dest ∈ c.nodes
    rw [← hlands]
    exact List.mem_map_of_mem hl
  exact ⟨⟨hne, l, hop, rfl, rfl⟩, hmeets before hbefore, hmeets l (List.mem_of_mem_tail hl')⟩

/-- The way from a node to the destination along the links of complete walks. -/
theorem exists_way (w : f.Wired) {v : NodeId} (h : f.Meets dst v) :
    ∃ path, Descends (f.Onward dst) dst.id v path := by
  obtain ⟨a, ha, hv⟩ := h
  obtain ⟨i, hi⟩ := List.mem_iff_getElem?.mp hv
  rw [List.getElem?_tail] at hi
  refine ⟨_, (w.descends_of_completes ha hi).imp_mem ?_⟩
  intro k hk u x hrelays
  refine ⟨⟨a, ha, ?_⟩, w.joins_of_relays hrelays⟩
  rw [← List.drop_one]
  exact List.drop_subset_drop_left _ (Nat.succ_le_succ (Nat.zero_le i)) hk

/-- Beyond their first links the complete walks to a destination form a tree. -/
theorem isTree_onward (w : f.Wired) (dst : Node β) :
    IsTree (f.Onward dst) dst.id (f.Meets dst) where
  joined := fun _ _ _ h => (w.relays_of_onward h).2
  root_last := fun k v h => f.not_relays_dest dst.id k v (w.relays_of_onward h).1
  one_way := by
    intro v hv
    obtain ⟨path, hpath⟩ := w.exists_way hv
    refine ⟨path, hpath, fun path' hpath' => ?_⟩
    have hrelays : ∀ {path}, Descends (f.Onward dst) dst.id v path →
        Descends (f.Relays dst.id) dst.id v path :=
      fun d => d.imp_mem fun _ _ _ _ h => (w.relays_of_onward h).1
    exact (hrelays hpath').unique (f.not_relays_dest dst.id) (f.relays_unique dst.id)
      (hrelays hpath)

end Wired

/-- The walk between the nodes of two identifiers, if both are known. -/
def walkBetween? (f : Fabric β) (src dest : NodeId) : Option Attempt := do
  let source ← f.nodes.get? src
  let target ← f.nodes.get? dest
  (f.trace source target).toOption

/-- A walk between the nodes of two identifiers is a walk from a node of the fabric. -/
theorem trace_of_walkBetween? {f : Fabric β} {src dest : NodeId} {dst : Node β} {a : Attempt}
    (hdst : f.nodes.get? dest = some dst) (h : f.walkBetween? src dest = some a) :
    ∃ source ∈ f.nodes.values, f.trace source dst = .ok a := by
  unfold walkBetween? at h
  rw [hdst] at h
  obtain ⟨source, hsource, htrace⟩ := Option.bind_eq_some_iff.mp h
  exact ⟨source, OrderedMap.mem_values_iff.mpr ⟨src, hsource⟩, eq_ok_of_mem_toOption htrace⟩

section Building

variable [Memory] [Bandwidth β]

/-- After any calls on a builder, and with any forwarding tables, two complete walks to one
destination take the same links from any node that both come to after their first; and beyond
their first links the complete walks to the destination form a tree. -/
theorem complete_walks_merge (subnet : String) (calls : List Builder.Call) (routes : RoutingTables)
    (dst : Node β) :
    (∀ a₁ a₂, ((Builder.after subnet calls).fabric.withRoutes routes).Completes dst a₁ →
      ((Builder.after subnet calls).fabric.withRoutes routes).Completes dst a₂ →
      ∀ i j v, a₁.nodes[i + 1]? = some v → a₂.nodes[j + 1]? = some v →
        a₁.links.drop (i + 1) = a₂.links.drop (j + 1)) ∧
    IsTree (((Builder.after subnet calls).fabric.withRoutes routes).Onward dst) dst.id
      (((Builder.after subnet calls).fabric.withRoutes routes).Meets dst) := by
  have w : ((Builder.after subnet calls : Builder β).fabric.withRoutes routes).Wired :=
    (Builder.sound_after subnet calls).wired.of_bare_eq rfl
  refine ⟨?_, w.isTree_onward dst⟩
  intro a₁ a₂ h₁ h₂ i j v hi hj
  exact (w.descends_of_completes h₁ hi).unique (not_relays_dest _ _) (relays_unique _ _)
    (w.descends_of_completes h₂ hj)

end Building

/-- The walks from the first two hosts of the star to the third take the same links from the
switch on. -/
theorem complete_walks_merge_star : ∃ (dst : Node Float) (a₁ a₂ : Attempt),
    ((Builder.after "s" sampleStar).fabric.withRoutes sampleStarRoutes).Completes dst a₁ ∧
    ((Builder.after "s" sampleStar).fabric.withRoutes sampleStarRoutes).Completes dst a₂ ∧
    a₁.links ≠ a₂.links ∧ a₁.links.drop 1 = a₂.links.drop 1 := by
  have hw₁ : (((Builder.after (β := Float) "s" sampleStar).fabric.withRoutes
      sampleStarRoutes).walkBetween? (.ofGuid "1") (.ofGuid "3")).map
        (fun a => (a.status, a.nodes[1]?, a.links)) =
      some (.complete, some (.ofGuid "9"), [0, 2]) := by decide +kernel
  have hw₂ : (((Builder.after (β := Float) "s" sampleStar).fabric.withRoutes
      sampleStarRoutes).walkBetween? (.ofGuid "2") (.ofGuid "3")).map
        (fun a => (a.status, a.nodes[1]?, a.links)) =
      some (.complete, some (.ofGuid "9"), [1, 2]) := by decide +kernel
  obtain ⟨dst, hdst⟩ := OrderedMap.mem_keys_iff.mp (show NodeId.ofGuid "3" ∈
    ((Builder.after (β := Float) "s" sampleStar).fabric.withRoutes sampleStarRoutes).nodes.keys by
      decide +kernel)
  obtain ⟨a₁, ha₁, hfacts₁⟩ := Option.map_eq_some_iff.mp hw₁
  obtain ⟨a₂, ha₂, hfacts₂⟩ := Option.map_eq_some_iff.mp hw₂
  simp only [Prod.mk.injEq] at hfacts₁ hfacts₂
  obtain ⟨hc₁, hv₁, hl₁⟩ := hfacts₁
  obtain ⟨hc₂, hv₂, hl₂⟩ := hfacts₂
  have h₁ := And.intro (trace_of_walkBetween? hdst ha₁) hc₁
  have h₂ := And.intro (trace_of_walkBetween? hdst ha₂) hc₂
  refine ⟨dst, a₁, a₂, h₁, h₂, ?_, ?_⟩
  · rw [hl₁, hl₂]
    decide
  · exact (complete_walks_merge "s" sampleStar sampleStarRoutes dst).1 a₁ a₂ h₁ h₂ 0 0 _ hv₁ hv₂

end Fabric

end FabricPaths
