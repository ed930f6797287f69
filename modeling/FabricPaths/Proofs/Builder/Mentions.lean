import FabricPaths.Proofs.Builder.Records

/-!
# Nodes are what is first said of them

Each record mentions its source and then its destination. The nodes of a builder are
those that were mentioned, in the order of their first mention and as that mention
describes them. Later mentions, and the links that are plugged in, leave it at that.
-/

namespace FabricPaths

/-- What a record says of one of its ends. -/
structure Mention where
  /-- What the node is. -/
  type : NodeType
  /-- The node's local identifier. -/
  lid : Int
  /-- The node's GUID. -/
  guid : String
  /-- The node's description. -/
  description : String
deriving DecidableEq, Inhabited

/-- The node that is mentioned. -/
def Mention.id (m : Mention) : NodeId := .ofGuid m.guid

/-- What a record says of its ends, the source first. -/
def LinkRecord.mentions (r : LinkRecord) : List Mention := [
  ⟨r.srcType, r.srcLid, r.srcGuid, r.srcDesc⟩,
  ⟨r.destType, r.destLid, r.destGuid, r.destDesc⟩]

/-- A record mentions its source and then its destination. -/
theorem LinkRecord.mentions_ids (r : LinkRecord) :
    r.mentions.map Mention.id = [r.srcId, r.destId] := rfl

/-- The first mention of a node. -/
def firstMention? (id : NodeId) (ms : List Mention) : Option Mention :=
  ms.find? fun m => decide (m.id = id)

variable {β : Type}

/-- The node is as the mention describes it. -/
structure Mention.Describes (m : Mention) (n : Node β) : Prop where
  /-- It is the node that is mentioned. -/
  id_eq : n.id = m.id
  /-- It is of the type that is mentioned. -/
  type_eq : n.type = m.type
  /-- It has the local identifier that is mentioned. -/
  lid_eq : n.lid = m.lid
  /-- It has the description that is mentioned. -/
  description_eq : n.description = m.description

/-- A node with other edges and slots is as it was described. -/
theorem Mention.Describes.rewired {m : Mention} {n n' : Node β} (h : m.Describes n)
    (hrewired : n.Rewired n') : m.Describes n' := by
  unfold Node.Rewired at hrewired
  constructor
  · rw [hrewired]
    exact h.id_eq
  · rw [hrewired]
    exact h.type_eq
  · rw [hrewired]
    exact h.lid_eq
  · rw [hrewired]
    exact h.description_eq

/-- The nodes are those that were mentioned, each as it was mentioned first. -/
structure Fabric.Introduced (ms : List Mention) (f : Fabric β) : Prop where
  /-- The nodes come in the order of their first mention. -/
  keys : f.nodes.keys = (ms.map Mention.id).eraseDups
  /-- A node is as its first mention describes it. -/
  first : ∀ id n, f.nodes.get? id = some n → ∃ m, firstMention? id ms = some m ∧ m.Describes n

namespace Builder

/-- The builder once a node was mentioned. -/
def mention (b : Builder β) (m : Mention) : Builder β :=
  b.withNode m.type m.lid m.guid m.description

/-- A mention adds no more than a node that is new. -/
theorem introduced_mention {b : Builder β} {ms : List Mention} (h : b.fabric.Introduced ms)
    (m : Mention) : (b.mention m).fabric.Introduced (ms ++ [m]) := by
  have hmap : (ms ++ [m]).map Mention.id = ms.map Mention.id ++ [m.id] := by
    rw [List.map_append, List.map_cons, List.map_nil]
  have hlater : ∀ {id m'}, firstMention? id ms = some m' →
      firstMention? id (ms ++ [m]) = some m' := by
    intro id m' hm'
    rw [firstMention?, List.find?_append, ← firstMention?, hm', Option.some_or]
  unfold mention withNode
  cases hn : b.fabric.nodes.get? (.ofGuid m.guid) with
  | some n =>
    have hold : m.id ∈ ms.map Mention.id := by
      rw [← List.mem_eraseDups, ← h.keys]
      exact OrderedMap.mem_keys_of_get? hn
    constructor
    · rw [hmap, eraseDups_concat, if_pos hold]
      exact h.keys
    · intro id n hn
      obtain ⟨m', hm', hdescribes⟩ := h.first id n hn
      exact ⟨m', hlater hm', hdescribes⟩
  | none =>
    have hnew : m.id ∉ ms.map Mention.id := by
      rw [← List.mem_eraseDups, ← h.keys, OrderedMap.mem_keys_iff]
      rintro ⟨n, hsome⟩
      cases hn.symm.trans hsome
    constructor
    · rw [hmap, eraseDups_concat, if_neg hnew, ← h.keys]
      exact OrderedMap.keys_insert_of_new hn _
    · intro id n hget
      change (b.fabric.nodes.insert m.id _).get? id = some n at hget
      rw [OrderedMap.get?_insert] at hget
      by_cases hid : id = m.id
      · rw [if_pos hid] at hget
        rw [← Option.some.inj hget]
        have hnone : firstMention? id ms = none := by
          rw [firstMention?, List.find?_eq_none]
          intro m' hm' heq
          rw [hid, decide_eq_true_eq] at heq
          exact hnew (heq ▸ List.mem_map_of_mem hm')
        refine ⟨m, ?_, rfl, rfl, rfl, rfl⟩
        rw [firstMention?, List.find?_append, ← firstMention?, hnone, Option.none_or]
        exact List.find?_cons_of_pos (decide_eq_true hid.symm)
      · rw [if_neg hid] at hget
        obtain ⟨m', hm', hdescribes⟩ := h.first id n hget
        exact ⟨m', hlater hm', hdescribes⟩

/-- The nodes of a record are introduced, the source first. -/
theorem introduced_withEnds {b : Builder β} {ms : List Mention} (h : b.fabric.Introduced ms)
    (r : LinkRecord) : (b.withEnds r).fabric.Introduced (ms ++ r.mentions) := by
  have hends := introduced_mention (introduced_mention h
    ⟨r.srcType, r.srcLid, r.srcGuid, r.srcDesc⟩) ⟨r.destType, r.destLid, r.destGuid, r.destDesc⟩
  rw [List.append_assoc] at hends
  exact hends

variable [Memory] [Bandwidth β] {subnet : String} {rs : List LinkRecord}

/-- The nodes of a builder that accepted records are those that the records mention, each as
it was mentioned first. -/
theorem Accepted.introduced (h : Accepted β subnet rs) :
    (taken subnet rs : Builder β).fabric.Introduced (rs.flatMap LinkRecord.mentions) := by
  induction h with
  | nil => exact ⟨rfl, nofun⟩
  | @concat rs r l before last ih =>
    obtain ⟨gbits, src, hstep⟩ := accepting_of_ok last
    have hends := introduced_withEnds ih r
    rw [taken_concat, List.flatMap_append, List.flatMap_singleton]
    constructor
    · rw [hstep.keys]
      exact hends.keys
    · intro id n hn
      obtain ⟨n', hn', hrewired⟩ := hstep.node_before hn
      obtain ⟨m, hm, hdescribes⟩ := hends.first id n' hn'
      exact ⟨m, hm, hdescribes.rewired hrewired⟩

/-- Adding a link changes no more of a node than its edges and slots, however it ends. -/
theorem node_kept_addLink (r : LinkRecord) {b : Builder β} {id : NodeId} {n : Node β}
    (hn : b.fabric.nodes.get? id = some n) :
    ∃ n', (addLink r b).state.fabric.nodes.get? id = some n' ∧ n.Rewired n' := by
  have hends : (b.withEnds r).fabric.nodes.get? id = some n := (addsEnds_withEnds r b).known id n hn
  cases hadded : (addLink r b).outcome with
  | ok l =>
    obtain ⟨gbits, src, hstep⟩ := accepting_of_ok hadded
    exact hstep.node_kept hends
  | error e =>
    have hadding := addLink_adding r b
    generalize addLink r b = run at hadding hadded
    cases hadding with
    | refused port => exact ⟨n, hn, .refl n⟩
    | unmeasured port gbits => exact ⟨n, hends, .refl n⟩
    | crowded port measured source room => exact ⟨n, hends, .refl n⟩
    | plugged port measured source room => cases hadded

/-- Records that come later change no more of a node than its edges and slots. -/
theorem node_kept_taken (before later : List LinkRecord) {id : NodeId} {n : Node β}
    (hn : (taken subnet before).fabric.nodes.get? id = some n) :
    ∃ n', (taken subnet (before ++ later)).fabric.nodes.get? id = some n' ∧ n.Rewired n' := by
  induction later generalizing before n with
  | nil =>
    rw [List.append_nil]
    exact ⟨n, hn, .refl n⟩
  | cons r later ih =>
    obtain ⟨n', hn', hrewired⟩ := node_kept_addLink r hn
    rw [← taken_concat] at hn'
    obtain ⟨n'', hn'', hrewired'⟩ := ih (before ++ [r]) hn'
    rw [List.append_assoc] at hn''
    exact ⟨n'', hn'', hrewired.trans hrewired'⟩

end Builder

end FabricPaths
