import FabricPaths.Fabric.Builder
import FabricPaths.Proofs.Action

/-!
# What adding a link can do

Adding the link of a record ends in one of four ways: the port is refused
before anything happens, the bandwidth cannot be told, there is no room for the
slot, or the link is plugged in. `Adding` says for each way what becomes of the
builder, and `addLink_adding` that there is no other way.
-/

namespace FabricPaths.Builder

variable {β : Type}

/-- The node that a first mention creates. -/
def newNode (b : Builder β) (type : NodeType) (lid : Int) (guid description : String) : Node β :=
  { id := .ofGuid guid, lid, type, description
    hostname := if isNameless type description then Hostname.anonymous b.namelessHosts
      else Hostname.ofDescription description }

/-- The builder once a node is known. -/
def withNode (b : Builder β) (type : NodeType) (lid : Int) (guid description : String) :
    Builder β :=
  match b.fabric.nodes.get? (.ofGuid guid) with
  | some _ => b
  | none =>
    { b with
      fabric := { b.fabric with
        nodes := b.fabric.nodes.insert (.ofGuid guid) (b.newNode type lid guid description) }
      namelessHosts := b.namelessHosts + (if isNameless type description then 1 else 0) }

/-- The builder once both nodes of a record are known. -/
def withEnds (b : Builder β) (r : LinkRecord) : Builder β :=
  (b.withNode r.srcType r.srcLid r.srcGuid r.srcDesc).withNode
    r.destType r.destLid r.destGuid r.destDesc

/-- The builder once the number of the next link is used up. -/
def numbered (b : Builder β) : Builder β := { b with nextLink := b.nextLink + 1 }

/-- Creating a node changes the builder in no other way. -/
theorem ensureNode_state (type : NodeType) (lid : Int) (guid description : String)
    (b : Builder β) :
    (ensureNode type lid guid description b).state = b.withNode type lid guid description := by
  unfold ensureNode withNode
  simp only [Action.get_bind]
  cases hn : b.fabric.nodes.get? (.ofGuid guid) with
  | some n => rfl
  | none =>
    cases hl : isNameless type description with
    | true =>
      simp only [if_true, Action.say_bind, Action.modify_bind, Action.pure_run, newNode, hl]
    | false =>
      simp only [Bool.false_eq_true, if_false, Action.modify_bind, Action.pure_run, newNode, hl]

/-- Creating a node never fails. -/
theorem ensureNode_outcome (type : NodeType) (lid : Int) (guid description : String)
    (b : Builder β) : ∃ n, (ensureNode type lid guid description b).outcome = .ok n := by
  unfold ensureNode
  simp only [Action.get_bind]
  cases hn : b.fabric.nodes.get? (.ofGuid guid) with
  | some n => exact ⟨n, rfl⟩
  | none =>
    cases hl : isNameless type description with
    | true => exact ⟨_, rfl⟩
    | false => exact ⟨_, rfl⟩

/-- Nodes that are known stay what they are. -/
theorem withNode_get?_of_some {b : Builder β} {id : NodeId} {n : Node β}
    (h : b.fabric.nodes.get? id = some n) (type : NodeType) (lid : Int)
    (guid description : String) :
    (b.withNode type lid guid description).fabric.nodes.get? id = some n := by
  unfold withNode
  cases hg : b.fabric.nodes.get? (.ofGuid guid) with
  | some m => exact h
  | none =>
    have hne : id ≠ .ofGuid guid := by
      rintro rfl
      rw [h] at hg
      cases hg
    change (b.fabric.nodes.insert _ _).get? id = some n
    rw [OrderedMap.get?_insert, if_neg hne]
    exact h

/-- A node that is mentioned is known. -/
theorem withNode_get?_self (b : Builder β) (type : NodeType) (lid : Int)
    (guid description : String) :
    ∃ n, (b.withNode type lid guid description).fabric.nodes.get? (.ofGuid guid) = some n := by
  unfold withNode
  cases hg : b.fabric.nodes.get? (.ofGuid guid) with
  | some m => exact ⟨m, hg⟩
  | none =>
    refine ⟨b.newNode type lid guid description, ?_⟩
    change (b.fabric.nodes.insert _ _).get? _ = _
    rw [OrderedMap.get?_insert, if_pos rfl]

/-- The source of a record is known before its link is made. -/
theorem withEnds_source (b : Builder β) (r : LinkRecord) :
    ∃ n, (b.withEnds r).fabric.nodes.get? r.srcId = some n := by
  obtain ⟨n, hn⟩ := withNode_get?_self b r.srcType r.srcLid r.srcGuid r.srcDesc
  exact ⟨n, withNode_get?_of_some hn _ _ _ _⟩

/-- The destination of a record is known before its link is made. -/
theorem withEnds_dest (b : Builder β) (r : LinkRecord) :
    ∃ n, (b.withEnds r).fabric.nodes.get? r.destId = some n :=
  withNode_get?_self _ _ _ _ _

/-- Using up a number hands it on. -/
theorem takeLinkId_bind {γ : Type} (f : LinkId → Action (Builder β) γ) (b : Builder β) :
    (takeLinkId >>= f) b = f b.nextLink b.numbered := rfl

variable [Memory] [Bandwidth β]

/-- How adding the link of a record ends. -/
inductive Adding (r : LinkRecord) (b : Builder β) : Run (Builder β) (Link β) → Prop
  /-- The port is refused, and the builder is as it was. -/
  | refused (port : r.srcPort < 1) :
    Adding r b ⟨.error (refusal r.srcPort r.srcId), b, []⟩
  /-- The bandwidth cannot be told; the nodes stay. -/
  | unmeasured {e : Failure} {log : List Log.Entry} (port : 1 ≤ r.srcPort)
    (gbits : Bandwidth.ofLink (β := β) r.speed r.width = .error e) :
    Adding r b ⟨.error e, b.withEnds r, log⟩
  /-- There is no room for the slot; the nodes stay and the number is used up. -/
  | crowded {gbits : β} {src : Node β} {e : Failure} {log : List Log.Entry}
    (port : 1 ≤ r.srcPort) (measured : Bandwidth.ofLink r.speed r.width = .ok gbits)
    (source : (b.withEnds r).fabric.nodes.get? r.srcId = some src)
    (room : checkRoom (src.missingSlots (r.srcPort - 1).toNat) = .error e) :
    Adding r b ⟨.error e, (b.withEnds r).numbered, log⟩
  /-- The link is plugged in. -/
  | plugged {gbits : β} {src : Node β} {log : List Log.Entry}
    (port : 1 ≤ r.srcPort) (measured : Bandwidth.ofLink r.speed r.width = .ok gbits)
    (source : (b.withEnds r).fabric.nodes.get? r.srcId = some src)
    (room : checkRoom (src.missingSlots (r.srcPort - 1).toNat) = .ok ()) :
    Adding r b ⟨.ok (linkOf r (b.withEnds r).nextLink gbits),
      { (b.withEnds r).numbered with
        fabric := (b.withEnds r).fabric.plug src (linkOf r (b.withEnds r).nextLink gbits) }, log⟩

/-- The part of adding a link that comes once both nodes are known. -/
def makeLink (r : LinkRecord) : Action (Builder β) (Link β) := do
  let gbits ← Action.ofExcept (Bandwidth.ofLink r.speed r.width)
  let link := linkOf r (← takeLinkId) gbits
  let b ← Action.get
  let src ← Action.ofExcept (b.fabric.node link.parent)
  let slot := Fabric.slotOf link
  Action.ofExcept (checkRoom (src.missingSlots slot))
  if let some old := b.fabric.plugged? src slot then
    Action.say .debug Log.ingest
      s!"[{src.id.text}] port {r.srcPort} reported again, replacing link {old.id}"
  Action.modify fun b => { b with fabric := b.fabric.plug src link }
  return link

/-- Adding a link is to check its port, to know both nodes and to make it. -/
theorem addLink_eq (r : LinkRecord) : addLink (β := β) r = (do
    if r.srcPort < 1 then Action.fail (refusal r.srcPort r.srcId)
    let _ ← ensureNode r.srcType r.srcLid r.srcGuid r.srcDesc
    let _ ← ensureNode r.destType r.destLid r.destGuid r.destDesc
    makeLink r) := rfl

/-- A link that is measured, numbered and given room is plugged in. -/
theorem makeLink_plugged {r : LinkRecord} {b : Builder β} {gbits : β} {src : Node β}
    (measured : Bandwidth.ofLink r.speed r.width = .ok gbits)
    (source : b.fabric.nodes.get? r.srcId = some src)
    (room : checkRoom (src.missingSlots (r.srcPort - 1).toNat) = .ok ()) :
    ∃ log, makeLink r b = ⟨.ok (linkOf r b.nextLink gbits),
      { b.numbered with fabric := b.fabric.plug src (linkOf r b.nextLink gbits) }, log⟩ := by
  have hnode : b.numbered.fabric.node (linkOf r b.nextLink gbits).parent = .ok src :=
    Fabric.node_eq_ok_iff.mpr source
  have hroom : checkRoom (src.missingSlots (Fabric.slotOf (linkOf r b.nextLink gbits))) =
      .ok () := room
  unfold makeLink
  rw [measured, Action.ofExcept_ok_bind, takeLinkId_bind]
  dsimp only
  rw [Action.get_bind, hnode, Action.ofExcept_ok_bind, hroom, Action.ofExcept_ok_bind]
  cases b.numbered.fabric.plugged? src (Fabric.slotOf (linkOf r b.nextLink gbits)) with
  | none => exact ⟨_, rfl⟩
  | some old => exact ⟨_, rfl⟩

/-- A link without room uses up its number. -/
theorem makeLink_crowded {r : LinkRecord} {b : Builder β} {gbits : β} {src : Node β}
    {e : Failure} (measured : Bandwidth.ofLink r.speed r.width = .ok gbits)
    (source : b.fabric.nodes.get? r.srcId = some src)
    (room : checkRoom (src.missingSlots (r.srcPort - 1).toNat) = .error e) :
    makeLink r b = ⟨.error e, b.numbered, []⟩ := by
  have hnode : b.numbered.fabric.node (linkOf r b.nextLink gbits).parent = .ok src :=
    Fabric.node_eq_ok_iff.mpr source
  have hroom : checkRoom (src.missingSlots (Fabric.slotOf (linkOf r b.nextLink gbits))) =
      .error e := room
  unfold makeLink
  rw [measured, Action.ofExcept_ok_bind, takeLinkId_bind]
  dsimp only
  rw [Action.get_bind, hnode, Action.ofExcept_ok_bind, hroom, Action.ofExcept_error_bind]

/-- Adding a link ends in one of the four ways. -/
theorem addLink_adding (r : LinkRecord) (b : Builder β) : Adding r b (addLink r b) := by
  rw [addLink_eq]
  by_cases port : r.srcPort < 1
  · rw [if_pos port]
    exact .refused port
  · rw [if_neg port]
    dsimp only
    have hport : 1 ≤ r.srcPort := by omega
    obtain ⟨n, hn⟩ := ensureNode_outcome r.srcType r.srcLid r.srcGuid r.srcDesc b
    obtain ⟨m, hm⟩ := ensureNode_outcome r.destType r.destLid r.destGuid r.destDesc
      (b.withNode r.srcType r.srcLid r.srcGuid r.srcDesc)
    obtain ⟨src, source⟩ := withEnds_source b r
    rw [Action.bind_of_outcome hn, ensureNode_state, Action.bind_of_outcome hm, ensureNode_state]
    change Adding r b ⟨(makeLink r (b.withEnds r)).outcome, (makeLink r (b.withEnds r)).state, _⟩
    cases measured : Bandwidth.ofLink (β := β) r.speed r.width with
    | error e =>
      have hmake : makeLink r (b.withEnds r) = ⟨.error e, b.withEnds r, []⟩ := by
        unfold makeLink
        rw [measured, Action.ofExcept_error_bind]
      rw [hmake]
      exact .unmeasured hport measured
    | ok gbits =>
      cases room : checkRoom (src.missingSlots (r.srcPort - 1).toNat) with
      | error e =>
        rw [makeLink_crowded measured source room]
        exact .crowded hport measured source room
      | ok _ =>
        obtain ⟨log, hmake⟩ := makeLink_plugged measured source room
        rw [hmake]
        exact .plugged hport measured source room

end FabricPaths.Builder
