import Mathlib.Data.List.Perm.Basic
import FabricPaths.Proofs.Builder.Wiring
import FabricPaths.Proofs.Path.Fate

/-!
# Walks are simple chains

The links of a trail land at the nodes of the walk, one after the other; only after a loop does
the last one land at a node that the walk had visited before. So the trail of a walk between two
nodes is a chain of links that visits no node twice, and it is no longer than there are nodes.
-/

namespace FabricPaths.Fabric

variable {β : Type} {f : Fabric β} {dest : NodeId} {visited : List NodeId} {link : Link β}
  {ls : List (Link β)} {c : Course}

namespace Trail

/-- The course tells the numbers of the links taken. -/
theorem numbers (t : f.Trail dest visited ls c) : c.links = ls.map (·.id) := by
  induction t with
  | repeated seen => rfl
  | arrived new there => rfl
  | stuck new short stalls => rfl
  | @along visited link next later c new short hop rest ih =>
    exact congrArg (List.cons link.id) ih

/-- Each link is followed by the one along which the node where it lands sends the traffic. -/
theorem relayed (t : f.Trail dest visited ls c) :
    ls.IsChain fun l l' => f.egress? dest l.dest = some l' := by
  induction t with
  | repeated seen => exact .singleton _
  | arrived new there => exact .singleton _
  | stuck new short stalls => exact .singleton _
  | along new short hop rest ih => exact ih.cons_cons hop

/-- The links are indexed, if the first is. -/
theorem indexed (w : f.Wired) (t : f.Trail dest visited ls c)
    (h : ∀ l, ls.head? = some l → f.links.get? l.id = some l) :
    ∀ l ∈ ls, f.links.get? l.id = some l := by
  have hlater : ∀ l ∈ ls.tail, f.links.get? l.id = some l := by
    clear h
    induction t with
    | repeated seen => nofun
    | arrived new there => nofun
    | stuck new short stalls => nofun
    | @along visited link next later c new short hop rest ih =>
      intro l hl
      rcases List.mem_cons.mp hl with rfl | hl
      · exact w.egress?_indexed hop
      · exact ih l hl
  intro l hl
  cases ls with
  | nil => cases hl
  | cons first later =>
    rcases List.mem_cons.mp hl with rfl | hl
    · exact h l rfl
    · exact hlater l hl

/-- The links land at the nodes of the course, in order; after a loop the last one lands at a
node that was visited before. -/
theorem landings (t : f.Trail dest visited ls c) :
    (c.status ≠ .loop ∧ ls.map (·.dest) = c.nodes) ∨
      (c.status = .loop ∧ ∃ v, c.stalledAt = some v ∧ v ∈ c.nodes ++ visited ∧
        ls.map (·.dest) = c.nodes ++ [v]) := by
  induction t with
  | repeated seen => exact Or.inr ⟨rfl, _, rfl, seen, rfl⟩
  | arrived new there => exact Or.inl ⟨nofun, rfl⟩
  | stuck new short stalls =>
    refine Or.inl ⟨?_, rfl⟩
    rintro rfl
    exact stalls
  | @along visited link next later c new short hop rest ih =>
    rcases ih with ⟨hstatus, hnodes⟩ | ⟨hstatus, v, hstalled, hseen, hnodes⟩
    · exact Or.inl ⟨hstatus, congrArg (List.cons link.dest) hnodes⟩
    · refine Or.inr ⟨hstatus, v, hstalled, ?_, congrArg (List.cons link.dest) hnodes⟩
      change v ∈ link.dest :: (c.nodes ++ visited)
      rcases List.mem_append.mp hseen with hin | hin
      · exact List.mem_cons_of_mem _ (List.mem_append_left _ hin)
      · rcases List.mem_cons.mp hin with rfl | hin
        · exact List.mem_cons_self
        · exact List.mem_cons_of_mem _ (List.mem_append_right _ hin)

/-- Unless the walk loops, its links land at the nodes of the course, in order. -/
theorem lands (t : f.Trail dest visited ls c) (h : c.status ≠ .loop) :
    ls.map (·.dest) = c.nodes := by
  rcases t.landings with ⟨-, hnodes⟩ | ⟨hloop, -⟩
  · exact hnodes
  · exact absurd hloop h

/-- When the walk loops, its last link lands at a node that was visited before. -/
theorem loops (t : f.Trail dest visited ls c) (h : c.status = .loop) :
    ∃ v, c.stalledAt = some v ∧ v ∈ c.nodes ++ visited ∧ ls.map (·.dest) = c.nodes ++ [v] := by
  rcases t.landings with ⟨hloop, -⟩ | ⟨-, hlast⟩
  · exact absurd h hloop
  · exact hlast

/-- Unless the walk loops, it takes as many links as it comes to nodes. -/
theorem length_links (t : f.Trail dest visited ls c) (h : c.status ≠ .loop) :
    c.links.length = c.nodes.length := by
  rw [t.numbers, ← t.lands h, List.length_map, List.length_map]

/-- The walk takes one link more at most than it comes to nodes. -/
theorem length_links_le (t : f.Trail dest visited ls c) :
    c.links.length ≤ c.nodes.length + 1 := by
  by_cases h : c.status = .loop
  · obtain ⟨v, -, -, hnodes⟩ := t.loops h
    have hlength := congrArg List.length hnodes
    rw [List.length_map, List.length_append, List.length_singleton] at hlength
    rw [t.numbers, List.length_map]
    exact Nat.le_of_eq hlength
  · rw [t.length_links h]
    exact Nat.le_succ _

/-- The nodes of the course are new, and distinct. -/
theorem fresh (t : f.Trail dest visited ls c) :
    c.nodes.Nodup ∧ ∀ v ∈ c.nodes, v ∉ visited := by
  induction t with
  | repeated seen => exact ⟨List.nodup_nil, nofun⟩
  | arrived new there => exact ⟨List.nodup_singleton _, List.forall_mem_singleton.mpr new⟩
  | stuck new short stalls => exact ⟨List.nodup_singleton _, List.forall_mem_singleton.mpr new⟩
  | @along visited link next later c new short hop rest ih =>
    obtain ⟨hnodup, hnew⟩ := ih
    refine ⟨List.nodup_cons.mpr ⟨fun hin => hnew _ hin List.mem_cons_self, hnodup⟩, ?_⟩
    intro v hv hseen
    rcases List.mem_cons.mp hv with rfl | hv
    · exact new hseen
    · exact hnew v hv (List.mem_cons_of_mem _ hseen)

/-- The walk is complete just if the destination is the last node of its course. -/
theorem complete_iff (t : f.Trail dest visited ls c) :
    c.status = .complete ↔ c.nodes.getLast? = some dest := by
  induction t with
  | repeated seen => exact ⟨nofun, nofun⟩
  | arrived new there => exact ⟨fun _ => congrArg some there, fun _ => rfl⟩
  | stuck new short stalls =>
    constructor
    · rintro rfl
      exact stalls.elim
    · exact fun h => absurd (Option.some.inj h) short
  | @along visited link next later c new short hop rest ih =>
    refine ih.trans ?_
    change _ ↔ (link.dest :: c.nodes).getLast? = some dest
    rw [List.getLast?_cons]
    cases c.nodes.getLast? with
    | none => exact ⟨nofun, fun h => absurd (Option.some.inj h) short⟩
    | some v => exact Iff.rfl

/-- Each node of the course but the last sends the traffic on, and is not the destination. -/
theorem relays (t : f.Trail dest visited ls c) :
    ∀ v ∈ c.nodes.dropLast, v ≠ dest ∧ ∃ next, f.egress? dest v = some next := by
  induction t with
  | repeated seen => nofun
  | arrived new there => nofun
  | stuck new short stalls => nofun
  | @along visited link next later c new short hop rest ih =>
    intro v hv
    change v ∈ (link.dest :: c.nodes).dropLast at hv
    cases hnodes : c.nodes with
    | nil =>
      rw [hnodes] at hv
      cases hv
    | cons first others =>
      rw [hnodes, List.dropLast_cons_cons, ← hnodes] at hv
      rcases List.mem_cons.mp hv with rfl | hv
      · exact ⟨short, next, hop⟩
      · exact ih v hv

/-- The nodes of the course are those at which links land, so that they are known. -/
theorem nodes_known (w : f.Wired) (t : f.Trail dest visited ls c)
    (h : ∀ l ∈ ls, f.links.get? l.id = some l) : ∀ v ∈ c.nodes, v ∈ f.nodes.keys := by
  intro v hv
  have hlands : v ∈ ls.map (·.dest) := by
    by_cases hloop : c.status = .loop
    · obtain ⟨u, -, -, hnodes⟩ := t.loops hloop
      rw [hnodes]
      exact List.mem_append_left _ hv
    · rw [t.lands hloop]
      exact hv
  obtain ⟨l, hl, rfl⟩ := List.mem_map.mp hlands
  exact OrderedMap.mem_keys_iff.mpr (w.link_dest (h l hl))

end Trail

/-- A node that sends the traffic along a link has a forwarding table. -/
theorem exists_table_of_egress? {v : NodeId} (h : f.egress? dest v = some link) :
    ∃ table, f.routes.get? v = some table := by
  unfold egress? at h
  obtain ⟨node, -, h⟩ := Option.bind_eq_some_iff.mp h
  obtain ⟨table, htable, -⟩ := Option.bind_eq_some_iff.mp h
  exact ⟨table, htable⟩

/-! ## Whole walks -/

/-- The walk between two nodes is a simple chain of links, whichever way it ended. -/
structure SimpleChain (f : Fabric β) (src dest : NodeId) (a : Attempt) (ls : List (Link β)) :
    Prop where
  /-- Its nodes start with the source. -/
  starts : a.nodes.head? = some src
  /-- No node comes twice. -/
  distinct : a.nodes.Nodup
  /-- It tells the numbers of the links. -/
  numbers : a.links = ls.map (·.id)
  /-- The links are indexed. -/
  indexed : ∀ l ∈ ls, f.links.get? l.id = some l
  /-- The first link leaves the source. -/
  leaves : ∀ first, ls.head? = some first → first.parent = src
  /-- Each later link leaves the node where the one before it ends, through the port that the
  node's table has for the destination. -/
  chained : ls.IsChain fun l l' => l'.parent = l.dest ∧ f.egress? dest l.dest = some l'
  /-- The links end at the nodes after the source, in order. -/
  lands : a.status ≠ .loop → ls.map (·.dest) = a.nodes.tail
  /-- After a loop one more link ends where the walk stopped, at a node that it had visited. -/
  loops : a.status = .loop → ∃ v, a.stalledAt = some v ∧ v ∈ a.nodes ∧
    ls.map (·.dest) = a.nodes.tail ++ [v]
  /-- It takes no more links than there are nodes. -/
  bounded : a.links.length ≤ f.nodes.size
  /-- A complete walk takes one link less. -/
  bounded_of_complete : a.status = .complete → a.links.length ≤ f.nodes.size - 1
  /-- It is complete just if its last node is the destination. -/
  complete_iff : a.status = .complete ↔ a.nodes.getLast? = some dest
  /-- No node before the last is the destination. -/
  short : dest ∉ a.nodes.dropLast
  /-- The nodes strictly between the first and the last have forwarding tables. -/
  tabled : ∀ v ∈ a.nodes.tail.dropLast, ∃ table, f.routes.get? v = some table

/-- Distinct known nodes are no more than there are. -/
theorem length_le_size {vs : List NodeId} (hnodup : vs.Nodup)
    (hknown : ∀ v ∈ vs, v ∈ f.nodes.keys) : vs.length ≤ f.nodes.size := by
  have hle := (List.subperm_of_subset hnodup hknown).length_le
  rw [OrderedMap.keys, List.length_map] at hle
  exact hle

namespace Wired

variable {src : NodeId}

/-- A walk that cannot leave its source is a simple chain without links. -/
theorem simpleChain_of_stop (hne : src ≠ dest) (reason : Except Failure String)
    (detail : String) :
    f.SimpleChain src dest ((Course.stop .deadPort src reason).attempt src dest detail) [] where
  starts := rfl
  distinct := List.nodup_singleton _
  numbers := rfl
  indexed := nofun
  leaves := nofun
  chained := .nil
  lands := fun _ => rfl
  loops := nofun
  bounded := Nat.zero_le _
  bounded_of_complete := nofun
  complete_iff := ⟨nofun, fun h => absurd (Option.some.inj h) hne⟩
  short := nofun
  tabled := nofun

/-- A walk that leaves its source along an indexed link is a simple chain. -/
theorem simpleChain_of_trail (w : f.Wired) (hsrc : src ∈ f.nodes.keys) (hne : src ≠ dest)
    {later : List (Link β)} (hlink : f.links.get? link.id = some link) (hparent : link.parent = src)
    (t : f.Trail dest [src] (link :: later) c) (detail : String) :
    f.SimpleChain src dest (c.attempt src dest detail) (link :: later) := by
  have hindexed : ∀ l ∈ link :: later, f.links.get? l.id = some l := by
    refine t.indexed w ?_
    rintro l ⟨⟩
    exact hlink
  have hnodup : (src :: c.nodes).Nodup :=
    List.nodup_cons.mpr ⟨fun hin => t.fresh.2 src hin (List.mem_singleton_self _), t.fresh.1⟩
  have hknown : ∀ v ∈ src :: c.nodes, v ∈ f.nodes.keys :=
    List.forall_mem_cons.mpr ⟨hsrc, t.nodes_known w hindexed⟩
  have hsize : c.nodes.length + 1 ≤ f.nodes.size := length_le_size hnodup hknown
  constructor
  case starts => rfl
  case distinct => exact hnodup
  case numbers => exact t.numbers
  case indexed => exact hindexed
  case leaves =>
    rintro first ⟨⟩
    exact hparent
  case chained => exact t.relayed.imp fun l l' hop => ⟨(w.egress?_spec hop).2, hop⟩
  case lands => exact t.lands
  case loops =>
    intro hloop
    obtain ⟨v, hstalled, hseen, hnodes⟩ := t.loops hloop
    refine ⟨v, hstalled, ?_, hnodes⟩
    rcases List.mem_append.mp hseen with hin | hin
    · exact List.mem_cons_of_mem _ hin
    · rw [List.mem_singleton.mp hin]
      exact List.mem_cons_self
  case bounded => exact Nat.le_trans t.length_links_le hsize
  case bounded_of_complete =>
    intro hcomplete
    have hnoloop : c.status ≠ .loop := fun hloop => nomatch hcomplete.symm.trans hloop
    have hlength := t.length_links hnoloop
    change c.links.length ≤ _
    omega
  case complete_iff =>
    refine t.complete_iff.trans ?_
    change _ ↔ (src :: c.nodes).getLast? = some dest
    rw [List.getLast?_cons]
    cases c.nodes.getLast? with
    | none => exact ⟨nofun, fun h => absurd (Option.some.inj h) hne⟩
    | some v => exact Iff.rfl
  case short =>
    intro hin
    cases hnodes : c.nodes with
    | nil =>
      change dest ∈ (src :: c.nodes).dropLast at hin
      rw [hnodes] at hin
      cases hin
    | cons v vs =>
      change dest ∈ (src :: c.nodes).dropLast at hin
      rw [hnodes, List.dropLast_cons_cons, ← hnodes] at hin
      rcases List.mem_cons.mp hin with heq | hin
      · exact hne heq.symm
      · exact (t.relays dest hin).1 rfl
  case tabled =>
    intro v hv
    obtain ⟨-, next, hop⟩ := t.relays v hv
    exact exists_table_of_egress? hop

/-- Every walk between two nodes of a wired fabric that is reported is a simple chain. -/
theorem simpleChain_of_trace (w : f.Wired) {src dst : Node β}
    (hsrc : f.nodes.get? src.id = some src) (hne : src.id ≠ dst.id) {a : Attempt}
    (ha : f.trace src dst = .ok a) : ∃ ls, f.SimpleChain src.id dst.id a ls := by
  have hknown := OrderedMap.mem_keys_of_get? hsrc
  rcases w.firstLink?_cases hsrc with hnone | ⟨first, hsome, hfirst, hparent⟩
  · obtain ⟨detail, -, rfl⟩ := (trace_eq_ok_iff hnone dst a).mp ha
    exact ⟨[], simpleChain_of_stop hne _ detail⟩
  · obtain ⟨detail, -, rfl⟩ := (trace_eq_ok_iff hsome dst a).mp ha
    obtain ⟨later, t⟩ := w.follow_trail dst [src.id] first hfirst
    exact ⟨_, w.simpleChain_of_trail hknown hne hfirst hparent t detail⟩

end Wired

/-- After any calls on a builder, and with any forwarding tables, every walk between two
distinct nodes that is reported is a simple chain of links of bounded length. A walk is reported
unless the traffic gets stuck at a node whose table sends it to a port without a link and with a
number that is too long to be written, and then it fails for that reason. -/
theorem walk_simple_chain [Memory] [Bandwidth β] (subnet : String) (calls : List Builder.Call)
    (routes : RoutingTables) {src dst : Node β}
    (hsrc : src ∈ (Builder.after subnet calls).fabric.nodes.values)
    (hdst : dst ∈ (Builder.after subnet calls).fabric.nodes.values) (hne : src ≠ dst) :
    (∀ a, ((Builder.after subnet calls).fabric.withRoutes routes).trace src dst = .ok a →
      ∃ ls : List (Link β),
        ((Builder.after subnet calls).fabric.withRoutes routes).SimpleChain
          src.id dst.id a ls) ∧
    ((∃ a, ((Builder.after subnet calls).fabric.withRoutes routes).trace src dst = .ok a) ↔
      ¬ ((Builder.after subnet calls).fabric.withRoutes routes).Silenced src dst) ∧
    ∀ e, ((Builder.after subnet calls).fabric.withRoutes routes).trace src dst = .error e →
      e = .numberTooLong := by
  have w : ((Builder.after subnet calls : Builder β).fabric).Wired :=
    (Builder.sound_after subnet calls).wired
  have w' : ((Builder.after subnet calls : Builder β).fabric.withRoutes routes).Wired :=
    w.of_bare_eq rfl
  have hknown := w.get?_of_mem_values hsrc
  have hids : src.id ≠ dst.id := fun h => hne (w.eq_of_id_eq hsrc hdst h)
  exact ⟨fun a ha => w'.simpleChain_of_trace hknown hids ha, w'.reported_iff hknown dst,
    fun e he => w'.eq_numberTooLong_of_trace hknown he⟩

/-- Cables from two hosts to a switch, and from the switch to a third host. -/
def sampleStar : List Builder.Call :=
  [.ingest (.link { srcType := .host, srcLid := 1, srcPort := 1, srcGuid := "1", width := "4x"
                    speed := "EDR", destType := .switch, destLid := 9, destPort := 1
                    destGuid := "9" }),
   .ingest (.link { srcType := .host, srcLid := 2, srcPort := 1, srcGuid := "2", width := "4x"
                    speed := "EDR", destType := .switch, destLid := 9, destPort := 2
                    destGuid := "9" }),
   .ingest (.link { srcType := .switch, srcLid := 9, srcPort := 3, srcGuid := "9", width := "4x"
                    speed := "EDR", destType := .host, destLid := 3, destPort := 1
                    destGuid := "3" })]

/-- The switch sends the traffic for the third host out of its third port. -/
def sampleStarRoutes : RoutingTables :=
  .ofList [(.ofGuid "9", { switch := .ofGuid "9"
                           entries := .ofList [(.ofGuid "3",
                             { dest := .ofGuid "3", port := 3 })] })]

/-- The first and the third host of the star are two nodes, whatever the forwarding tables. -/
theorem exists_starEnds : ∃ src dst : Node Float,
    src ∈ (Builder.after "s" sampleStar).fabric.nodes.values ∧
    dst ∈ (Builder.after "s" sampleStar).fabric.nodes.values ∧ src ≠ dst ∧
      ∀ routes, ((Builder.after "s" sampleStar).fabric.withRoutes routes).trace src dst =
        ((Builder.after (β := Float) "s" sampleStar).fabric.withRoutes routes).traceBetween
          (.ofGuid "1") (.ofGuid "3") := by
  have w : ((Builder.after "s" sampleStar : Builder Float).fabric).Wired :=
    (Builder.sound_after "s" sampleStar).wired
  have hknown : NodeId.ofGuid "1" ∈
      (Builder.after "s" sampleStar : Builder Float).fabric.nodes.keys := by decide +kernel
  have hknown' : NodeId.ofGuid "3" ∈
      (Builder.after "s" sampleStar : Builder Float).fabric.nodes.keys := by decide +kernel
  obtain ⟨src, hsrc, hsid⟩ := w.exists_node hknown
  obtain ⟨dst, hdst, hdid⟩ := w.exists_node hknown'
  refine ⟨src, dst, hsrc, hdst, ?_, fun routes => ?_⟩
  · rintro rfl
    exact absurd (hsid.symm.trans hdid) (by decide)
  · have hs := w.get?_of_mem_values hsrc
    have hd := w.get?_of_mem_values hdst
    rw [hsid] at hs
    rw [hdid] at hd
    exact trace_eq_traceBetween hs hd routes

/-- The walk from the first host of the star to the third is a chain that arrives. -/
theorem walk_simple_chain_star : ∃ src dst : Node Float,
    src ∈ (Builder.after "s" sampleStar).fabric.nodes.values ∧
    dst ∈ (Builder.after "s" sampleStar).fabric.nodes.values ∧ src ≠ dst ∧
    ∃ a, ∃ ls : List (Link Float),
      ((Builder.after "s" sampleStar).fabric.withRoutes sampleStarRoutes).trace src dst = .ok a ∧
      a.status = .complete ∧
      ((Builder.after "s" sampleStar).fabric.withRoutes sampleStarRoutes).SimpleChain
        src.id dst.id a ls := by
  obtain ⟨src, dst, hsrc, hdst, hne, htrace⟩ := exists_starEnds
  have hstatus : (((Builder.after (β := Float) "s" sampleStar).fabric.withRoutes
      sampleStarRoutes).traceBetween (.ofGuid "1") (.ofGuid "3")).map (·.status) =
        .ok .complete := by decide +kernel
  rw [← htrace] at hstatus
  obtain ⟨a, ha, hcomplete⟩ := exists_of_map_eq_ok hstatus
  obtain ⟨ls, hchain⟩ := (walk_simple_chain "s" _ sampleStarRoutes hsrc hdst hne).1 a ha
  exact ⟨src, dst, hsrc, hdst, hne, a, ls, ha, hcomplete, hchain⟩

/-- The switch sends the traffic for the third host to a port whose number has 4301 digits. -/
def farPortRoutes : RoutingTables :=
  .ofList [(.ofGuid "9", { switch := .ofGuid "9"
                           entries := .ofList [(.ofGuid "3",
                             { dest := .ofGuid "3", port := Text.numberLimit })] })]

/-- The walk from the first host of the star to the third is not reported, and so no chain. -/
theorem farPort_no_chain : ∃ src dst : Node Float,
    src ∈ (Builder.after "s" sampleStar).fabric.nodes.values ∧
    dst ∈ (Builder.after "s" sampleStar).fabric.nodes.values ∧ src ≠ dst ∧
    ¬ ∃ a, ∃ ls : List (Link Float),
      ((Builder.after "s" sampleStar).fabric.withRoutes farPortRoutes).trace src dst = .ok a ∧
      ((Builder.after "s" sampleStar).fabric.withRoutes farPortRoutes).SimpleChain
        src.id dst.id a ls := by
  obtain ⟨src, dst, hsrc, hdst, hne, htrace⟩ := exists_starEnds
  have herror : ((Builder.after (β := Float) "s" sampleStar).fabric.withRoutes
      farPortRoutes).traceBetween (.ofGuid "1") (.ofGuid "3") =
        .error .numberTooLong := by decide +kernel
  refine ⟨src, dst, hsrc, hdst, hne, ?_⟩
  rintro ⟨a, ls, ha, -⟩
  rw [htrace, herror] at ha
  cases ha

end FabricPaths.Fabric
