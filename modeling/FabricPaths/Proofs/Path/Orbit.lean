import FabricPaths.Path.Trace

/-!
# Orbits under the forwarding tables

Traffic for a destination goes from node to node as the tables say, whether or
not anyone follows it. Its orbit lists the nodes that it meets, one for each
number of hops, and has nothing for a number of hops that cannot be made. An
orbit that meets a node twice goes round for ever among the nodes met before.
-/

namespace FabricPaths

variable {β : Type}

/-- How a walk ends at a node that does so with traffic, if it ends there. -/
def Forwarding.stall? : Forwarding β → Option PathStatus
  | .noTable => some .noTable
  | .noEntry => some .noEntry
  | .deadPort _ => some .deadPort
  | .along _ => none

namespace Fabric

/-- The link along which a node sends the traffic for a destination, where the
node, its table, the entry and the link all exist. -/
def egress? (f : Fabric β) (dest v : NodeId) : Option (Link β) := do
  let node ← f.nodes.get? v
  let table ← f.routes.get? v
  let port ← table.egressPort? dest
  f.linkAt? node port

/-- The node to which a node sends the traffic for a destination. -/
def hop? (f : Fabric β) (dest v : NodeId) : Option NodeId := (f.egress? dest v).map (·.dest)

/-- The node at which traffic for a destination is after a number of hops. -/
def orbit (f : Fabric β) (dest start : NodeId) : Nat → Option NodeId
  | 0 => some start
  | k + 1 => (f.orbit dest start k).bind (f.hop? dest)

/-- The number of the link that traffic takes after a number of hops. -/
def egressId? (f : Fabric β) (dest start : NodeId) (k : Nat) : Option LinkId :=
  ((f.orbit dest start k).bind (f.egress? dest)).map (·.id)

/-- The node has no forwarding table. -/
def LacksTable (f : Fabric β) (v : NodeId) : Prop := f.routes.get? v = none

/-- The node's table has no entry for the destination. -/
def LacksEntry (f : Fabric β) (dest v : NodeId) : Prop :=
  ∃ table, f.routes.get? v = some table ∧ table.egressPort? dest = none

/-- The node's table sends the traffic to a port without a link. -/
def LacksLink (f : Fabric β) (dest v : NodeId) : Prop :=
  ∃ node table port, f.nodes.get? v = some node ∧ f.routes.get? v = some table ∧
    table.egressPort? dest = some port ∧ f.linkAt? node port = none

/-- The node's table sends the traffic to a port without a link, and the number of the port is
too long to be written. -/
def Mute (f : Fabric β) (dest v : NodeId) : Prop :=
  ∃ node table port, f.nodes.get? v = some node ∧ f.routes.get? v = some table ∧
    table.egressPort? dest = some port ∧ f.linkAt? node port = none ∧ ¬ Text.IsWritable port

/-- What the node lacks when a walk ends at it in some way. -/
def Stalls (f : Fabric β) (dest : NodeId) : PathStatus → NodeId → Prop
  | .noTable, v => f.LacksTable v
  | .noEntry, v => f.LacksEntry dest v
  | .deadPort, v => f.LacksLink dest v
  | .complete, _ => False
  | .loop, _ => False

variable {f : Fabric β} {dest start : NodeId}

/-! ## One hop -/

/-- What a node does with traffic tells what it lacks. -/
theorem stalls_iff {v : NodeId} {node : Node β} (hn : f.nodes.get? v = some node)
    (hid : node.id = v) (status : PathStatus) :
    f.Stalls dest status v ↔ (f.forwarding node dest).stall? = some status := by
  unfold forwarding
  rw [hid]
  cases ht : f.routes.get? v with
  | none =>
    cases status <;> simp [Stalls, LacksTable, LacksEntry, LacksLink, Forwarding.stall?, ht]
  | some table =>
    cases he : table.egressPort? dest with
    | none =>
      cases status <;> simp [Stalls, LacksTable, LacksEntry, LacksLink, Forwarding.stall?, ht, he]
    | some port =>
      cases hl : f.linkAt? node port with
      | none =>
        cases status <;>
          simp [Stalls, LacksTable, LacksEntry, LacksLink, Forwarding.stall?, ht, he, hn, hl]
      | some link =>
        cases status <;>
          simp [Stalls, LacksTable, LacksEntry, LacksLink, Forwarding.stall?, ht, he, hn, hl]

/-- What a node does with traffic tells along which link it goes. -/
theorem egress?_eq_some_iff {v : NodeId} {node : Node β} (hn : f.nodes.get? v = some node)
    (hid : node.id = v) (link : Link β) :
    f.egress? dest v = some link ↔ f.forwarding node dest = .along link := by
  unfold egress? forwarding
  rw [hn, hid]
  change (f.routes.get? v).bind _ = some link ↔ _
  cases f.routes.get? v with
  | none => exact ⟨nofun, nofun⟩
  | some table =>
    change (table.egressPort? dest).bind _ = some link ↔ _
    dsimp only
    cases table.egressPort? dest with
    | none => exact ⟨nofun, nofun⟩
    | some port =>
      dsimp only [Option.bind_some]
      cases f.linkAt? node port with
      | none => exact ⟨nofun, nofun⟩
      | some link' =>
        constructor
        · intro h
          cases h
          rfl
        · intro h
          cases h
          rfl

/-- A node can be told of exactly if the port to which it sends the traffic can be written, where
it has no link. -/
theorem mute_iff {v : NodeId} {node : Node β} (hn : f.nodes.get? v = some node)
    (hid : node.id = v) :
    f.Mute dest v ↔ ∃ port, f.forwarding node dest = .deadPort port ∧ ¬ Text.IsWritable port := by
  unfold Mute forwarding
  rw [hid]
  constructor
  · rintro ⟨node', table, port, hn', htable, hport, hlink, hlong⟩
    rw [hn] at hn'
    cases hn'
    refine ⟨port, ?_, hlong⟩
    rw [htable]
    dsimp only
    rw [hport]
    dsimp only
    rw [hlink]
  · rintro ⟨port, hforwarding, hlong⟩
    cases htable : f.routes.get? v with
    | none =>
      rw [htable] at hforwarding
      cases hforwarding
    | some table =>
      rw [htable] at hforwarding
      dsimp only at hforwarding
      cases hport : table.egressPort? dest with
      | none =>
        rw [hport] at hforwarding
        cases hforwarding
      | some port' =>
        rw [hport] at hforwarding
        dsimp only at hforwarding
        cases hlink : f.linkAt? node port' with
        | none =>
          rw [hlink] at hforwarding
          cases hforwarding
          exact ⟨node, table, port, hn, rfl, hport, hlink, hlong⟩
        | some link =>
          rw [hlink] at hforwarding
          cases hforwarding

/-- A node that cannot be told of has a port without a link. -/
theorem Mute.lacksLink {v : NodeId} (h : f.Mute dest v) : f.LacksLink dest v := by
  obtain ⟨node, table, port, hn, htable, hport, hlink, -⟩ := h
  exact ⟨node, table, port, hn, htable, hport, hlink⟩

/-- A node that cannot be told of lacks nothing else. -/
theorem Mute.status_eq {v : NodeId} (h : f.Mute dest v) {status : PathStatus}
    (hstalls : f.Stalls dest status v) : status = .deadPort := by
  obtain ⟨node, table, port, -, htable, hport, -⟩ := h
  cases status with
  | noTable => exact nomatch htable.symm.trans hstalls
  | noEntry =>
    obtain ⟨table', htable', hnone⟩ := hstalls
    rw [htable] at htable'
    cases htable'
    exact nomatch hport.symm.trans hnone
  | deadPort => rfl
  | complete => exact hstalls.elim
  | loop => exact hstalls.elim

/-- A node that lacks something sends the traffic nowhere. -/
theorem Stalls.egress?_eq_none {v : NodeId} {node : Node β} (hn : f.nodes.get? v = some node)
    (hid : node.id = v) {status : PathStatus} (h : f.Stalls dest status v) :
    f.egress? dest v = none := by
  cases hlink : f.egress? dest v with
  | none => rfl
  | some link =>
    have halong := (egress?_eq_some_iff hn hid link).mp hlink
    have hstall := (stalls_iff hn hid status).mp h
    rw [halong] at hstall
    cases hstall

/-- A node lacks one thing at most. -/
theorem Stalls.status_eq {v : NodeId} {node : Node β} (hn : f.nodes.get? v = some node)
    (hid : node.id = v) {status status' : PathStatus} (h : f.Stalls dest status v)
    (h' : f.Stalls dest status' v) : status = status' := by
  have hstall := (stalls_iff hn hid status).mp h
  have hstall' := (stalls_iff hn hid status').mp h'
  rw [hstall] at hstall'
  exact Option.some.inj hstall'

/-! ## Many hops -/

/-- Hops add up. -/
theorem orbit_add (f : Fabric β) (dest start : NodeId) (j k : Nat) :
    f.orbit dest start (j + k) = (f.orbit dest start j).bind fun v => f.orbit dest v k := by
  induction k with
  | zero =>
    change f.orbit dest start j = (f.orbit dest start j).bind some
    rw [Option.bind_fun_some]
  | succ k ih =>
    change (f.orbit dest start (j + k)).bind (f.hop? dest) = _
    rw [ih, Option.bind_assoc]
    rfl

/-- The orbit from the node after one hop is the rest of the orbit. -/
theorem orbit_succ {link : Link β} (h : f.egress? dest start = some link) (k : Nat) :
    f.orbit dest start (k + 1) = f.orbit dest link.dest k := by
  have hfirst : f.orbit dest start 1 = some link.dest := by
    change (some start).bind (f.hop? dest) = _
    rw [Option.bind_some, hop?, h, Option.map_some]
  rw [Nat.add_comm, orbit_add, hfirst, Option.bind_some]

/-- Traffic has made every number of hops below one that it has made. -/
theorem orbit_of_le {j k : Nat} (hjk : j ≤ k) {v : NodeId} (h : f.orbit dest start k = some v) :
    ∃ u, f.orbit dest start j = some u := by
  obtain ⟨m, rfl⟩ := Nat.exists_eq_add_of_le hjk
  rw [orbit_add] at h
  obtain ⟨u, hu, -⟩ := Option.bind_eq_some_iff.mp h
  exact ⟨u, hu⟩

/-- Traffic goes no further than to a node that sends it nowhere. -/
theorem orbit_le_of_stuck {j k : Nat} {u v : NodeId} (hu : f.orbit dest start j = some u)
    (hstuck : f.egress? dest u = none) (hv : f.orbit dest start k = some v) : k ≤ j := by
  apply Nat.le_of_not_lt
  intro hjk
  obtain ⟨w, hw⟩ := orbit_of_le (Nat.succ_le_of_lt hjk) hv
  change (f.orbit dest start j).bind (f.hop? dest) = some w at hw
  rw [hu, Option.bind_some, hop?, hstuck] at hw
  cases hw

/-- Traffic that comes to a node again meets only the nodes that it met before. -/
theorem orbit_cycle {j n : Nat} (hjn : j < n) {v : NodeId} (hj : f.orbit dest start j = some v)
    (hn : f.orbit dest start n = some v) (k : Nat) :
    ∃ i, i < n ∧ f.orbit dest start k = f.orbit dest start i := by
  induction k using Nat.strongRecOn with
  | ind k ih =>
    by_cases hk : k < n
    · exact ⟨k, hk, rfl⟩
    · have hback : f.orbit dest start k = f.orbit dest start (j + (k - n)) := by
        have hsplit : k = n + (k - n) := by omega
        rw [orbit_add, hj, ← hn, ← orbit_add, ← hsplit]
      have hless : j + (k - n) < k := by omega
      obtain ⟨i, hi, hsame⟩ := ih _ hless
      exact ⟨i, hi, hback.trans hsame⟩

end Fabric

end FabricPaths
