import FabricPaths.Proofs.Builder.Wiring
import FabricPaths.Proofs.Fabric.Extension

/-!
# More data never spoils a known path

A link that is reported for an empty slot extends the fabric, however the adding of
it ends. So does everything that a loader takes in for its tables. A walk that
arrived, or that went round in a circle, is therefore the same after either.
-/

namespace FabricPaths.Builder

variable {β : Type}

/-- The builder whose fabric has other forwarding tables. -/
def withRoutes (b : Builder β) (routes : RoutingTables) : Builder β :=
  { b with fabric := b.fabric.withRoutes routes }

/-- No link leaves through the source port of a record. -/
def Vacant (b : Builder β) (r : LinkRecord) : Prop :=
  ∀ ⦃n⦄, b.fabric.nodes.get? r.srcId = some n → n.linkAt? r.srcPort = none

/-- The slot for a record is empty if no link leaves through its source port. -/
theorem Vacant.linkIn? {b : Builder β} {r : LinkRecord} (h : b.Vacant r)
    (hport : 1 ≤ r.srcPort) : b.fabric.linkIn? r.srcId (r.srcPort - 1).toNat = none := by
  unfold Fabric.linkIn?
  cases hn : b.fabric.nodes.get? r.srcId with
  | none => rfl
  | some n =>
    have hnone := h hn
    rw [n.linkAt?_of_pos hport] at hnone
    exact hnone

namespace Sound

variable {b : Builder β}

/-- Forwarding tables leave the builder sound. -/
theorem withRoutes (s : b.Sound) (routes : RoutingTables) : (b.withRoutes routes).Sound :=
  ⟨s.wired.of_bare_eq rfl, s.fresh⟩

/-- A node that is mentioned extends the fabric. -/
theorem extends_withNode (s : b.Sound) (type : NodeType) (lid : Int) (guid description : String) :
    b.fabric.Extends (b.withNode type lid guid description).fabric := by
  unfold Builder.withNode
  cases hg : b.fabric.nodes.get? (.ofGuid guid) with
  | some n => exact .refl b.fabric
  | none => exact s.wired.extends_insert_node hg rfl rfl rfl rfl

/-- The nodes of a record extend the fabric. -/
theorem extends_withEnds (s : b.Sound) (r : LinkRecord) :
    b.fabric.Extends (b.withEnds r).fabric :=
  (s.extends_withNode _ _ _ _).trans ((s.withNode _ _ _ _).extends_withNode _ _ _ _)

variable [Memory] [Bandwidth β]

/-- Adding a link for an empty slot extends the fabric, however it ends. -/
theorem extends_addLink (s : b.Sound) {r : LinkRecord} (hvacant : b.Vacant r) :
    b.fabric.Extends (Builder.addLink r b).state.fabric := by
  have hadding := addLink_adding r b
  generalize Builder.addLink r b = run at hadding
  cases hadding with
  | refused port => exact .refl b.fabric
  | unmeasured port gbits => exact s.extends_withEnds r
  | crowded port measured source room => exact s.extends_withEnds r
  | @plugged gbits src log port measured source room =>
    refine (s.extends_withEnds r).trans ?_
    have hslot : (b.withEnds r).fabric.linkIn? r.srcId (r.srcPort - 1).toNat = none := by
      rw [linkIn?_withEnds]
      exact hvacant.linkIn? port
    exact (s.withEnds r).wired.extends_plug source (withEnds_dest b r) port (s.withEnds r).fresh
      hslot

end Sound

section Growing

variable [Memory] [Bandwidth β]

/-- After any calls on a builder, and with whatever a loader gathered as forwarding tables,
a walk that arrives or goes round in a circle is not changed by further lines of route
dumps, wherever the reading of them ends, nor by the link of a record whose source port
has none, however the adding of it ends. -/
theorem lasting_walks_kept (subnet : String) (calls : List Call) (loader : Loader)
    {source dest : NodeId} {a : Attempt} (hlasting : Fabric.Lasting a.status)
    (ha : ((after subnet calls : Builder β).withRoutes loader.tables).fabric.traceBetween
      source dest = .ok a) :
    (∀ (path : String) (lines : List String),
      ((after subnet calls : Builder β).withRoutes (Loader.ingestLines path lines
        loader).state.tables).fabric.traceBetween source dest = .ok a) ∧
      ∀ r, ((after subnet calls : Builder β).withRoutes loader.tables).Vacant r →
        (addLink r ((after subnet calls : Builder β).withRoutes
          loader.tables)).state.fabric.traceBetween source dest = .ok a := by
  have s : ((after subnet calls : Builder β).withRoutes loader.tables).Sound :=
    (sound_after subnet calls).withRoutes _
  constructor
  · intro path lines
    have hgrows := Loader.growsTo_ingestLines path lines loader
    exact (Fabric.extends_withRoutes _ hgrows).traceBetween hlasting ha
  · intro r hvacant
    exact (s.extends_addLink hvacant).traceBetween hlasting ha

end Growing

/-- A cable from a host to a switch, and one from a second port of the switch to another
host. -/
def sampleCalls : List Call := [
  .ingest (.link
    { srcType := .host, srcLid := 1, srcPort := 1, srcGuid := "11", width := "4x", speed := "EDR"
      destType := .switch, destLid := 9, destPort := 1, destGuid := "a1" }),
  .ingest (.link
    { srcType := .switch, srcLid := 9, srcPort := 2, srcGuid := "a1", width := "4x", speed := "EDR"
      destType := .host, destLid := 2, destPort := 1, destGuid := "12" })]

/-- A second cable from the switch to the other host. -/
def sampleRecord : LinkRecord :=
  { srcType := .switch, srcLid := 9, srcPort := 3, srcGuid := "a1", width := "4x", speed := "EDR"
    destType := .host, destLid := 2, destPort := 2, destGuid := "12" }

/-- A loader that sends the traffic for the other host through the second port. -/
def sampleLoader : Loader :=
  { tables := (∅ : RoutingTables).insert (.ofGuid "a1")
      (({ switch := .ofGuid "a1" } : RoutingTable).setEntry { dest := .ofGuid "12", port := 2 }) }

/-- A later entry for the third port. -/
def sampleDump : List String := [
  "Unicast lids guid 0x00000000000000a1:",
  "0x2 3 : (Channel Adapter portguid 0x0000000000000012:"]

/-- The walk across the switch. -/
def sampleWalk : Attempt :=
  { source := .ofGuid "11", dest := .ofGuid "12", status := .complete, links := [0, 1]
    nodes := [.ofGuid "11", .ofGuid "a1", .ofGuid "12"], stalledAt := none, detail := "" }

/-- The walk across the switch stays on the first cable. -/
theorem sampleWalk_kept : Fabric.Lasting sampleWalk.status ∧
    ((after "s" sampleCalls : Builder Float).withRoutes sampleLoader.tables).fabric.traceBetween
      (.ofGuid "11") (.ofGuid "12") = .ok sampleWalk ∧
    ((after "s" sampleCalls : Builder Float).withRoutes (Loader.ingestLines "r" sampleDump
      sampleLoader).state.tables).fabric.traceBetween (.ofGuid "11") (.ofGuid "12") =
        .ok sampleWalk ∧
    (addLink sampleRecord ((after "s" sampleCalls : Builder Float).withRoutes
      sampleLoader.tables)).state.fabric.traceBetween (.ofGuid "11") (.ofGuid "12") =
        .ok sampleWalk := by
  have hlasting : Fabric.Lasting sampleWalk.status := Or.inl rfl
  have hwalk : ((after "s" sampleCalls : Builder Float).withRoutes
      sampleLoader.tables).fabric.traceBetween (.ofGuid "11") (.ofGuid "12") =
        .ok sampleWalk := by
    decide +kernel
  have hslot : (((after "s" sampleCalls : Builder Float).withRoutes
      sampleLoader.tables).fabric.nodes.get? sampleRecord.srcId).map (·.linkAt? 3) =
        some none := by
    decide +kernel
  obtain ⟨hrouted, hplugged⟩ := lasting_walks_kept "s" sampleCalls sampleLoader hlasting hwalk
  refine ⟨hlasting, hwalk, hrouted "r" sampleDump, hplugged sampleRecord ?_⟩
  intro n hn
  rw [hn] at hslot
  exact Option.some.inj hslot

end FabricPaths.Builder
