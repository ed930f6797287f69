import FabricPaths.Proofs.Builder.History
import FabricPaths.Proofs.Fabric.Agreement
import FabricPaths.Proofs.Fabric.Decoration

/-!
# Builders keep their fabrics wired

Whatever calls a builder has lived through, and however they ended, its index of
links, its slots and its edges agree. The main statement says so in three parts:
links and slots are in bijection, each edge lists just the slots of its links,
and no list of slots ends in an empty one.
-/

namespace FabricPaths.Builder

variable {β : Type}

/-- The fabric is wired, and the next number was given to no link. -/
structure Sound (b : Builder β) : Prop where
  /-- The fabric is wired. -/
  wired : b.fabric.Wired
  /-- The numbers of links are below the next one. -/
  fresh : ∀ k ∈ b.fabric.links.keys, k < b.nextLink

/-- A node that is mentioned changes no slot. -/
theorem linkIn?_withNode (b : Builder β) (type : NodeType) (lid : Int) (guid description : String)
    (x : NodeId) (i : Nat) :
    (b.withNode type lid guid description).fabric.linkIn? x i = b.fabric.linkIn? x i := by
  unfold withNode
  cases hg : b.fabric.nodes.get? (.ofGuid guid) with
  | some n => rfl
  | none => exact Fabric.Wired.linkIn?_insert_node hg rfl x i

/-- The nodes of a record change no slot. -/
theorem linkIn?_withEnds (b : Builder β) (r : LinkRecord) (x : NodeId) (i : Nat) :
    (b.withEnds r).fabric.linkIn? x i = b.fabric.linkIn? x i := by
  rw [withEnds, linkIn?_withNode, linkIn?_withNode]

/-- The builder that has read nothing is sound. -/
theorem sound_start (subnet : String) : (start subnet : Builder β).Sound :=
  ⟨.empty subnet, nofun⟩

namespace Sound

variable {b : Builder β}

/-- A node that is mentioned leaves the builder sound. -/
theorem withNode (s : b.Sound) (type : NodeType) (lid : Int) (guid description : String) :
    (b.withNode type lid guid description).Sound := by
  unfold Builder.withNode
  cases hg : b.fabric.nodes.get? (.ofGuid guid) with
  | some n => exact s
  | none => exact ⟨s.wired.insert_node hg rfl rfl rfl rfl, s.fresh⟩

/-- The nodes of a record leave the builder sound. -/
theorem withEnds (s : b.Sound) (r : LinkRecord) : (b.withEnds r).Sound :=
  (s.withNode _ _ _ _).withNode _ _ _ _

/-- A number that is used up leaves the builder sound. -/
theorem numbered (s : b.Sound) : b.numbered.Sound :=
  ⟨s.wired, fun k hk => Nat.lt_succ_of_lt (s.fresh k hk)⟩

/-- Pairing the links leaves the builder sound. -/
theorem finish (s : b.Sound) : (Builder.finish b).state.Sound := by
  obtain ⟨ls, n, hstate⟩ := finish_state_pairing b
  rw [hstate]
  have hbare := b.fabric.bare_pairing ls b.fabric
  refine ⟨s.wired.of_bare_eq hbare, ?_⟩
  intro k hk
  obtain ⟨l, hl⟩ := OrderedMap.mem_keys_iff.mp hk
  obtain ⟨l', hl', -⟩ := Fabric.link_of_bare_eq hbare hl
  exact s.fresh k (OrderedMap.mem_keys_of_get? hl')

variable [Bandwidth β]

/-- Plugging the next link leaves the builder sound. -/
theorem plug (s : b.Sound) {n : Node β} {l : Link β}
    (hn : b.fabric.nodes.get? l.parent = some n)
    (hdest : ∃ m, b.fabric.nodes.get? l.dest = some m) (hport : 1 ≤ l.srcPort)
    (hid : l.id = b.nextLink) :
    ({ b.numbered with fabric := b.fabric.plug n l } : Builder β).Sound := by
  have hnew : ∀ k ∈ b.fabric.links.keys, k < l.id := by
    rw [hid]
    exact s.fresh
  refine ⟨s.wired.plug hn hdest hport hnew, ?_⟩
  intro k hk
  obtain ⟨l', hl'⟩ := OrderedMap.mem_keys_iff.mp hk
  obtain ⟨hk', -⟩ | ⟨-, -, hl'⟩ := s.wired.links_plug_cases hn hl'
  · rw [hk', hid]
    exact Nat.lt_succ_self _
  · exact Nat.lt_succ_of_lt (s.fresh k (OrderedMap.mem_keys_of_get? hl'))

/-- Adding a link leaves the builder sound, however it ends. -/
theorem addLink [Memory] (s : b.Sound) (r : LinkRecord) : (Builder.addLink r b).state.Sound := by
  have hadding := addLink_adding r b
  generalize Builder.addLink r b = run at hadding
  cases hadding with
  | refused port => exact s
  | unmeasured port gbits => exact s.withEnds r
  | crowded port measured source room => exact (s.withEnds r).numbered
  | plugged port measured source room =>
    exact (s.withEnds r).plug source (withEnds_dest b r) port rfl

end Sound

variable [Memory] [Bandwidth β]

/-- Every history leaves the builder sound. -/
theorem sound_after (subnet : String) (calls : List Call) :
    (after subnet calls : Builder β).Sound :=
  after_induction (sound_start subnet) (fun r _ s => s.addLink r)
    (fun _ _ s => ⟨s.wired, s.fresh⟩) (fun _ s => s.finish) calls

/-- After any calls, in any order and whether they stopped or not, links and
slots are in bijection, edges list the slots of their links, and lists of slots
end in occupied ones. -/
theorem links_slots_edges_agree (subnet : String) (calls : List Call) :
    (after subnet calls : Builder β).fabric.LinksMatchSlots
        (after subnet calls : Builder β).nextLink ∧
      (after subnet calls : Builder β).fabric.EdgesMatchSlots ∧
      (after subnet calls : Builder β).fabric.SlotsEndOccupied := by
  have s : (after subnet calls : Builder β).Sound := sound_after subnet calls
  exact ⟨s.wired.linksMatchSlots s.fresh, s.wired.edgesMatchSlots, s.wired.slotsEndOccupied⟩

end FabricPaths.Builder
