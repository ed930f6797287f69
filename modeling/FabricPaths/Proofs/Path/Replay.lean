import FabricPaths.Proofs.Path.Trail

/-!
# Walks replay forwarding exactly

A walk between two nodes of a fabric that a builder left tells what becomes of
the traffic: where it ends, in which way, and along which links. That a walk
stops at the first node that it meets again is neither too early nor too late.
-/

namespace FabricPaths.Fabric

variable {β : Type}

/-- A walk that leaves a source along its first link tells what becomes of the
traffic. -/
structure Replays (f : Fabric β) (src dest : NodeId) (first : Link β) (a : Attempt) : Prop where
  /-- It is complete just if the traffic arrives. -/
  complete_iff : a.status = .complete ↔ ∃ k, f.Arrives src dest first.dest k
  /-- Then it takes the links along which the traffic goes, and stops nowhere short. -/
  complete_links : ∀ k, f.Arrives src dest first.dest k → a.stalledAt = none ∧
    a.links.map some = some first.id :: (List.range k).map (f.egressId? dest first.dest)
  /-- It lacks a table just if the traffic is stuck at a node without one. -/
  noTable_iff : ∀ v, a.status = .noTable ∧ a.stalledAt = some v ↔
    ∃ k, f.Underway src dest first.dest k v ∧ f.LacksTable v
  /-- It lacks an entry just if the traffic is stuck at a node whose table has none. -/
  noEntry_iff : ∀ v, a.status = .noEntry ∧ a.stalledAt = some v ↔
    ∃ k, f.Underway src dest first.dest k v ∧ f.LacksEntry dest v
  /-- It meets a dead port just if the traffic is stuck at a node whose port has no link. -/
  deadPort_iff : ∀ v, a.status = .deadPort ∧ a.stalledAt = some v ↔
    ∃ k, f.Underway src dest first.dest k v ∧ f.LacksLink dest v
  /-- It loops just if the traffic comes to the source first, or never stops and
  never arrives. -/
  loop_iff : a.status = .loop ↔
    (∃ k, f.orbit dest first.dest k = some src ∧
      ∀ j, j < k → f.orbit dest first.dest j ≠ some dest) ∨
    (∀ k, ∃ v, f.orbit dest first.dest k = some v ∧ v ≠ dest)
  /-- No number of hops leads out of a loop that does not come to the source. -/
  loop_elsewhere : a.status = .loop → a.stalledAt ≠ some src →
    ∀ k, f.orbit dest first.dest k ≠ some dest
  /-- It stops somewhere unless it is complete. -/
  stalled : a.status ≠ .complete → ∃ v, a.stalledAt = some v

/-- A walk from a source with its first link, if it has one, is what becomes of the
traffic; without a first link it ends where it starts. -/
def ReplaysFrom (f : Fabric β) (src dest : NodeId) : Option (Link β) → Attempt → Prop
  | none, a => a.status = .deadPort ∧ a.stalledAt = some src ∧ a.links = []
  | some first, a => f.Replays src dest first a

variable {f : Fabric β} {src dest start : NodeId}

namespace Wired

/-- A walk is complete just if the traffic arrives. -/
theorem complete_iff_arrives (w : f.Wired) (hstart : ∃ node, f.nodes.get? start = some node)
    (hne : src ≠ dest) {status : PathStatus} {stalledAt : Option NodeId}
    (hfate : f.Fate src dest start status stalledAt) :
    status = .complete ↔ ∃ k, f.Arrives src dest start k := by
  constructor
  · intro h
    subst h
    cases hfate with
    | arrives there => exact ⟨_, there⟩
    | stuck there stalls => exact stalls.elim
  · intro h
    obtain ⟨k, harrives⟩ := h
    rcases w.fate_of_settles hstart hfate harrives.settles with h | h | h
    · exact absurd h.1.symm hne
    · exact h.2.1
    · exact absurd rfl h.2.1

/-- A walk loops just if the traffic comes to the source first, or never stops
and never arrives. -/
theorem loop_iff_returns (w : f.Wired) (hstart : ∃ node, f.nodes.get? start = some node)
    (hne : src ≠ dest) {status : PathStatus} {stalledAt : Option NodeId}
    (hfate : f.Fate src dest start status stalledAt) : status = .loop ↔
      (∃ k, f.orbit dest start k = some src ∧
        ∀ j, j < k → f.orbit dest start j ≠ some dest) ∨
      (∀ k, ∃ v, f.orbit dest start k = some v ∧ v ≠ dest) := by
  constructor
  · intro h
    subst h
    cases hfate with
    | @returns k there clear =>
      refine Or.inl ⟨k, there, ?_⟩
      intro j hj hdest
      exact (clear j hj dest hdest).2 rfl
    | stuck there stalls => exact stalls.elim
    | endless never elsewhere =>
      refine Or.inr fun k => ?_
      obtain ⟨v, hv, -, hdest⟩ := never k
      exact ⟨v, hv, hdest⟩
  · intro h
    rcases h with ⟨k, hk, hbefore⟩ | hnever
    · obtain ⟨m, hm, hclear⟩ := exists_returns hk hbefore
      rcases w.fate_of_settles hstart hfate ⟨hm, hclear, Or.inl rfl⟩ with h | h | h
      · exact h.2
      · exact absurd h.1 hne
      · exact absurd rfl h.1
    · cases hfate with
      | returns there clear => rfl
      | @arrives k there =>
        obtain ⟨v, hv, hdest⟩ := hnever k
        rw [there.1] at hv
        cases hv
        exact absurd rfl hdest
      | @stuck k v _ there stalls =>
        obtain ⟨u, hu, -⟩ := hnever (k + 1)
        obtain ⟨node, hn, hid⟩ := w.orbit_known hstart k there.1
        have hle := orbit_le_of_stuck there.1 (stalls.egress?_eq_none hn hid) hu
        omega
      | endless never elsewhere => rfl

/-- A complete walk ends where the traffic arrives. -/
theorem walked_arrives {first : Link β} {n : Nat} {c : Course}
    (h : f.Walked dest [src] first n c) (hcomplete : c.status = .complete) :
    f.Arrives src dest first.dest n ∧ c.stalledAt = none := by
  have hending := h.ending
  rw [hcomplete] at hending
  generalize c.stalledAt = stalledAt at hending
  cases hending with
  | arrived there new => exact ⟨⟨there, h.clear_way⟩, rfl⟩
  | stuck there new short stalls => exact stalls.elim

/-- A walk that starts along an indexed link replays what becomes of the traffic. -/
theorem replays (w : f.Wired) (hne : src ≠ dest) {first : Link β} {n : Nat} {c : Course}
    (hfirst : f.links.get? first.id = some first) (hwalked : f.Walked dest [src] first n c)
    {a : Attempt} (hstatus : a.status = c.status) (hlinks : a.links = c.links)
    (hstalled : a.stalledAt = c.stalledAt) : f.Replays src dest first a := by
  have hstart := w.link_dest hfirst
  have hfate : f.Fate src dest first.dest a.status a.stalledAt := by
    rw [hstatus, hstalled]
    exact hwalked.fate
  constructor
  case complete_iff => exact w.complete_iff_arrives hstart hne hfate
  case complete_links =>
    intro k harrives
    have hcomplete := (w.complete_iff_arrives hstart hne hfate).mpr ⟨k, harrives⟩
    rw [hstatus] at hcomplete
    obtain ⟨hn, hnone⟩ := walked_arrives hwalked hcomplete
    have hk : k = n := (harrives.settles.unique hn.settles).1
    rw [hlinks, hstalled, hk]
    exact ⟨hnone, hwalked.links⟩
  case noTable_iff => exact w.stalls_iff_underway hstart hfate nofun
  case noEntry_iff => exact w.stalls_iff_underway hstart hfate nofun
  case deadPort_iff => exact w.stalls_iff_underway hstart hfate nofun
  case loop_iff => exact w.loop_iff_returns hstart hne hfate
  case loop_elsewhere =>
    intro hloop helse k hk
    rw [hloop] at hfate
    generalize a.stalledAt = stalledAt at hfate helse
    cases hfate with
    | returns there clear => exact helse rfl
    | stuck there stalls => exact stalls.elim
    | endless never elsewhere =>
      obtain ⟨v, hv, -, hdest⟩ := never k
      rw [hk] at hv
      cases hv
      exact hdest rfl
  case stalled =>
    intro hshort
    generalize a.status = status at hfate hshort
    generalize a.stalledAt = stalledAt at hfate ⊢
    cases hfate with
    | returns there clear => exact ⟨_, rfl⟩
    | arrives there => exact absurd rfl hshort
    | stuck there stalls => exact ⟨_, rfl⟩
    | endless never elsewhere => exact ⟨_, rfl⟩

/-- Every walk through a wired fabric that is reported replays what becomes of the traffic. -/
theorem replays_of_trace (w : f.Wired) {src dst : Node β} (hsrc : f.nodes.get? src.id = some src)
    (hne : src.id ≠ dst.id) : ∃ first, f.firstLink? src = .ok first ∧
      ∀ a, f.trace src dst = .ok a → f.ReplaysFrom src.id dst.id first a := by
  rcases w.firstLink?_cases hsrc with hnone | ⟨first, hsome, hfirst, -⟩
  · refine ⟨none, hnone, fun a ha => ?_⟩
    obtain ⟨detail, -, rfl⟩ := (trace_eq_ok_iff hnone dst a).mp ha
    exact ⟨rfl, rfl, rfl⟩
  · obtain ⟨n, hwalked⟩ := w.follow_walked dst [src.id] first hfirst
    refine ⟨some first, hsome, fun a ha => ?_⟩
    obtain ⟨detail, -, rfl⟩ := (trace_eq_ok_iff hsome dst a).mp ha
    exact w.replays hne hfirst hwalked rfl rfl rfl

end Wired

/-- After any calls on a builder, and with any forwarding tables, a walk between two
distinct nodes that is reported tells what becomes of the traffic. A walk is reported unless the
traffic gets stuck at a node whose table sends it to a port without a link and with a number that
is too long to be written. There it fails for that reason. -/
theorem trace_exact [Memory] [Bandwidth β] (subnet : String) (calls : List Builder.Call)
    (routes : RoutingTables) {src dst : Node β}
    (hsrc : src ∈ (Builder.after subnet calls).fabric.nodes.values)
    (hdst : dst ∈ (Builder.after subnet calls).fabric.nodes.values) (hne : src ≠ dst) :
    ∃ first : Option (Link β),
      ((Builder.after subnet calls).fabric.withRoutes routes).firstLink? src = .ok first ∧
      (∀ a, ((Builder.after subnet calls).fabric.withRoutes routes).trace src dst = .ok a →
        ((Builder.after subnet calls).fabric.withRoutes routes).ReplaysFrom
          src.id dst.id first a) ∧
      ((∃ a, ((Builder.after subnet calls).fabric.withRoutes routes).trace src dst = .ok a) ↔
        ¬ ∃ (link : Link β) (k : Nat) (v : NodeId), first = some link ∧
          ((Builder.after (β := β) subnet calls).fabric.withRoutes routes).Underway
            src.id dst.id link.dest k v ∧
          ((Builder.after (β := β) subnet calls).fabric.withRoutes routes).Mute dst.id v) ∧
      ∀ e, ((Builder.after subnet calls).fabric.withRoutes routes).trace src dst = .error e →
        e = .numberTooLong := by
  have w : ((Builder.after subnet calls : Builder β).fabric).Wired :=
    (Builder.sound_after subnet calls).wired
  have w' : ((Builder.after subnet calls : Builder β).fabric.withRoutes routes).Wired :=
    w.of_bare_eq rfl
  have hknown := w.get?_of_mem_values hsrc
  have hids : src.id ≠ dst.id := fun h => hne (w.eq_of_id_eq hsrc hdst h)
  obtain ⟨first, hfirst, hreplays⟩ := w'.replays_of_trace hknown hids
  refine ⟨first, hfirst, hreplays, (w'.reported_iff hknown dst).trans (not_congr ?_),
    fun e he => w'.eq_numberTooLong_of_trace hknown he⟩
  constructor
  · rintro ⟨link, k, v, hlink, h⟩
    cases hfirst.symm.trans hlink
    exact ⟨link, k, v, rfl, h⟩
  · rintro ⟨link, k, v, rfl, h⟩
    exact ⟨link, k, v, hfirst, h⟩

/-- The walk from the first host of the star to the third replays what becomes of the traffic,
which arrives. -/
theorem trace_exact_across_star : ∃ src dst : Node Float,
    src ∈ (Builder.after (β := Float) "s" sampleStar).fabric.nodes.values ∧
    dst ∈ (Builder.after (β := Float) "s" sampleStar).fabric.nodes.values ∧ src ≠ dst ∧
    ∃ (first : Option (Link Float)) (a : Attempt),
      ((Builder.after (β := Float) "s" sampleStar).fabric.withRoutes sampleStarRoutes).trace
        src dst = .ok a ∧
      a.status = .complete ∧
      ((Builder.after (β := Float) "s" sampleStar).fabric.withRoutes sampleStarRoutes).ReplaysFrom
        src.id dst.id first a := by
  obtain ⟨src, dst, hsrc, hdst, hne, htrace⟩ := exists_starEnds
  have hstatus : (((Builder.after (β := Float) "s" sampleStar).fabric.withRoutes
      sampleStarRoutes).traceBetween (.ofGuid "1") (.ofGuid "3")).map (·.status) =
        .ok .complete := by decide +kernel
  rw [← htrace] at hstatus
  obtain ⟨a, ha, hcomplete⟩ := exists_of_map_eq_ok hstatus
  obtain ⟨first, -, hreplays, -⟩ := trace_exact "s" _ sampleStarRoutes hsrc hdst hne
  exact ⟨src, dst, hsrc, hdst, hne, first, a, ha, hcomplete, hreplays a ha⟩

/-- The traffic from the first host of the star to the third is stuck at the switch for want of a
link, and no walk tells of that. -/
theorem farPort_not_replayed : ∃ src dst : Node Float,
    src ∈ (Builder.after (β := Float) "s" sampleStar).fabric.nodes.values ∧
    dst ∈ (Builder.after (β := Float) "s" sampleStar).fabric.nodes.values ∧ src ≠ dst ∧
    ¬ ∃ (first : Option (Link Float)) (a : Attempt),
      ((Builder.after (β := Float) "s" sampleStar).fabric.withRoutes farPortRoutes).trace
        src dst = .ok a ∧
      ((Builder.after (β := Float) "s" sampleStar).fabric.withRoutes farPortRoutes).ReplaysFrom
        src.id dst.id first a := by
  obtain ⟨src, dst, hsrc, hdst, hne, htrace⟩ := exists_starEnds
  have herror : ((Builder.after (β := Float) "s" sampleStar).fabric.withRoutes
      farPortRoutes).traceBetween (.ofGuid "1") (.ofGuid "3") =
        .error .numberTooLong := by decide +kernel
  refine ⟨src, dst, hsrc, hdst, hne, ?_⟩
  rintro ⟨first, a, ha, -⟩
  rw [htrace, herror] at ha
  cases ha

end FabricPaths.Fabric
