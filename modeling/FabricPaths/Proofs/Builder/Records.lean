import Mathlib.Data.List.Induction
import FabricPaths.Proofs.Builder.Refusal
import FabricPaths.Proofs.Builder.Wiring

/-!
# Records that are accepted

A builder takes records in one after another. `Accepted` says of a list of records that
none of them is refused, and `Accepting` what becomes of the builder with each: both
nodes of the record are known, the next number is used up, and the link is plugged in.
-/

namespace FabricPaths

variable {β : Type}

/-- The slot of the source port. -/
def LinkRecord.slot (r : LinkRecord) : Nat := (r.srcPort - 1).toNat

namespace Builder

/-- The nodes of a record use up no number. -/
theorem nextLink_withEnds (b : Builder β) (r : LinkRecord) :
    (b.withEnds r).nextLink = b.nextLink :=
  (addsEnds_withEnds r b).nextLink

variable [Memory] [Bandwidth β]

/-- The builder of a subnet after records one after another. -/
def taken (subnet : String) (rs : List LinkRecord) : Builder β :=
  after subnet (rs.map fun r => .ingest (.link r))

/-- The last record comes after all others. -/
theorem taken_concat (subnet : String) (rs : List LinkRecord) (r : LinkRecord) :
    taken (β := β) subnet (rs ++ [r]) = (addLink r (taken subnet rs)).state := by
  rw [taken, List.map_append, List.map_cons, List.map_nil, after_concat]
  exact (ingest_link r _).2

/-- Records leave the builder sound. -/
theorem sound_taken (subnet : String) (rs : List LinkRecord) :
    (taken subnet rs : Builder β).Sound :=
  sound_after subnet _

/-- None of the records is refused by a builder that takes them in one after another. -/
inductive Accepted (β : Type) [Memory] [Bandwidth β] (subnet : String) : List LinkRecord → Prop
  /-- There is no record to refuse. -/
  | nil : Accepted β subnet []
  /-- The last record is not refused, and none before it. -/
  | concat {rs : List LinkRecord} {r : LinkRecord} {l : Link β} (before : Accepted β subnet rs)
    (last : (addLink r (taken (β := β) subnet rs)).outcome = .ok l) :
    Accepted β subnet (rs ++ [r])

/-- Records that are refused by no builder, with ports for which there is room in any, are
accepted. -/
theorem accepted_of_room {subnet : String} {rs : List LinkRecord}
    (h : ∀ r ∈ rs, r.refusal? = none ∧ r.srcPort < Memory.slots) : Accepted β subnet rs := by
  induction rs using List.reverseRecOn with
  | nil => exact .nil
  | append_singleton rs r ih =>
    obtain ⟨hnone, hroom⟩ := h r (List.mem_append_right _ (List.mem_singleton_self r))
    obtain ⟨l, hl⟩ := addLink_of_room (β := β) hnone hroom (taken subnet rs)
    exact .concat (ih fun r' hr' => h r' (List.mem_append_left _ hr')) hl

/-- What a record does to a builder that accepts it. -/
structure Accepting (r : LinkRecord) (gbits : β) (src : Node β) (b b' : Builder β) : Prop where
  /-- Ports are counted from one. -/
  port : 1 ≤ r.srcPort
  /-- The bandwidth can be told. -/
  measured : Bandwidth.ofLink r.speed r.width = .ok gbits
  /-- The source is known by then. -/
  source : (b.withEnds r).fabric.nodes.get? r.srcId = some src
  /-- There is room for the slot. -/
  room : checkRoom (src.missingSlots r.slot) = .ok ()
  /-- The link is plugged in under the next number. -/
  state : b' = { (b.withEnds r).numbered with
    fabric := (b.withEnds r).fabric.plug src (linkOf r b.nextLink gbits) }

/-- A record that is accepted plugs its link in. -/
theorem accepting_of_ok {r : LinkRecord} {b : Builder β} {l : Link β}
    (h : (addLink r b).outcome = .ok l) :
    ∃ gbits src, Accepting r gbits src b (addLink r b).state := by
  have hadding := addLink_adding r b
  generalize addLink r b = run at hadding h
  cases hadding with
  | refused port => cases h
  | unmeasured port gbits => cases h
  | crowded port measured source room => cases h
  | @plugged gbits src log port measured source room =>
    refine ⟨gbits, src, port, measured, source, room, ?_⟩
    rw [nextLink_withEnds]

/-- A record that can be plugged in is accepted. -/
theorem addLink_ok_of_room {r : LinkRecord} {b : Builder β} {gbits : β} {src : Node β}
    (port : 1 ≤ r.srcPort) (measured : Bandwidth.ofLink r.speed r.width = .ok gbits)
    (source : (b.withEnds r).fabric.nodes.get? r.srcId = some src)
    (room : checkRoom (src.missingSlots r.slot) = .ok ()) : ∃ l, (addLink r b).outcome = .ok l := by
  have hadding := addLink_adding r b
  generalize addLink r b = run at hadding
  cases hadding with
  | refused hport => omega
  | unmeasured _ hgbits =>
    rw [measured] at hgbits
    cases hgbits
  | crowded _ _ hsource hroom =>
    rw [source] at hsource
    cases hsource
    rw [LinkRecord.slot, hroom] at room
    cases room
  | plugged => exact ⟨_, rfl⟩

namespace Accepting

variable {r : LinkRecord} {gbits : β} {src : Node β} {b b' : Builder β}

/-- The next number is used up. -/
theorem nextLink (h : Accepting r gbits src b b') : b'.nextLink = b.nextLink + 1 := by
  rw [h.state]
  exact congrArg (· + 1) (nextLink_withEnds b r)

/-- No node but the source is changed once both nodes are known. -/
theorem nodes (h : Accepting r gbits src b b') : b'.fabric.nodes =
    (b.withEnds r).fabric.nodes.insert r.srcId
      ((b.withEnds r).fabric.pluggedNode src (linkOf r b.nextLink gbits)) := by
  rw [h.state]
  exact Fabric.plug_nodes _ _ _

/-- No node is new once both nodes are known. -/
theorem keys (h : Accepting r gbits src b b') :
    b'.fabric.nodes.keys = (b.withEnds r).fabric.nodes.keys := by
  rw [h.nodes]
  exact OrderedMap.keys_insert_of_get? h.source _

/-- Nodes change no more than their edges and slots. -/
theorem node_kept (h : Accepting r gbits src b b') {id : NodeId} {n : Node β}
    (hn : (b.withEnds r).fabric.nodes.get? id = some n) :
    ∃ n', b'.fabric.nodes.get? id = some n' ∧ n.Rewired n' := by
  rw [h.nodes, OrderedMap.get?_insert]
  by_cases hid : id = r.srcId
  · rw [hid, h.source] at hn
    cases hn
    rw [if_pos hid]
    exact ⟨_, rfl, Fabric.rewired_pluggedNode _ _ _⟩
  · rw [if_neg hid]
    exact ⟨n, hn, .refl n⟩

/-- A node is a node from before with other edges and slots. -/
theorem node_before (h : Accepting r gbits src b b') {id : NodeId} {n' : Node β}
    (hn' : b'.fabric.nodes.get? id = some n') :
    ∃ n, (b.withEnds r).fabric.nodes.get? id = some n ∧ n.Rewired n' := by
  have hkey : id ∈ (b.withEnds r).fabric.nodes.keys := by
    rw [← h.keys]
    exact OrderedMap.mem_keys_of_get? hn'
  obtain ⟨n, hn⟩ := OrderedMap.mem_keys_iff.mp hkey
  obtain ⟨n'', hn'', hrewired⟩ := h.node_kept hn
  rw [hn'] at hn''
  cases hn''
  exact ⟨n, hn, hrewired⟩

/-- The slot of the record holds the next number, and other slots what they held. -/
theorem linkIn? (h : Accepting r gbits src b b') (x : NodeId) (i : Nat) :
    b'.fabric.linkIn? x i =
      if x = r.srcId ∧ i = r.slot then some b.nextLink else b.fabric.linkIn? x i := by
  rw [h.state, ← linkIn?_withEnds b r x i]
  exact Fabric.linkIn?_plug (l := linkOf r b.nextLink gbits) h.source x i

/-- The link of the record is in the index, in place of the former link of its slot. -/
theorem links (s : b.Sound) (h : Accepting r gbits src b b') (k : LinkId) :
    b'.fabric.links.get? k =
      if k = b.nextLink then some (linkOf r b.nextLink gbits)
      else if b.fabric.linkIn? r.srcId r.slot = some k then none
      else b.fabric.links.get? k := by
  rw [h.state, ← linkIn?_withEnds b r, ← (addsEnds_withEnds r b).links]
  exact (s.withEnds r).wired.links_plug (l := linkOf r b.nextLink gbits) h.source k

end Accepting

end Builder

end FabricPaths
