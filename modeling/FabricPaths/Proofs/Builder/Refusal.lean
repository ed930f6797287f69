import FabricPaths.Proofs.Builder.Lines

/-!
# What a refused record leaves

A record is refused for its port before anything happens, and for its width only
once both of its nodes are known. The main statement says that a refused record
leaves the builder as it was exactly if its port is refused or its nodes were known
before, and that else no more than its nodes are added.
-/

namespace FabricPaths.Builder

variable {β : Type}

/-- Both nodes of the record are known. -/
def Knows (b : Builder β) (r : LinkRecord) : Prop :=
  (∃ n, b.fabric.nodes.get? r.srcId = some n) ∧ ∃ n, b.fabric.nodes.get? r.destId = some n

/-- Nodes with their edges and slots, links and counters are the same. -/
structure Untouched (b b' : Builder β) : Prop where
  /-- The nodes are the same, and so are their edges and slots. -/
  nodes : b'.fabric.nodes = b.fabric.nodes
  /-- The links are the same. -/
  links : b'.fabric.links = b.fabric.links
  /-- The number of the next link is the same. -/
  nextLink : b'.nextLink = b.nextLink
  /-- As many hosts were given a name. -/
  namelessHosts : b'.namelessHosts = b.namelessHosts

/-- No more is new than nodes of the record, without edges and slots. -/
structure AddsEnds (r : LinkRecord) (b b' : Builder β) : Prop where
  /-- The links are the same. -/
  links : b'.fabric.links = b.fabric.links
  /-- The number of the next link is the same. -/
  nextLink : b'.nextLink = b.nextLink
  /-- Known nodes are the same. -/
  known : ∀ id n, b.fabric.nodes.get? id = some n → b'.fabric.nodes.get? id = some n
  /-- Other nodes are nodes of the record, without edges and slots. -/
  added : ∀ id n, b.fabric.nodes.get? id = none → b'.fabric.nodes.get? id = some n →
    (id = r.srcId ∨ id = r.destId) ∧ n.edges = ∅ ∧ n.ports = []

/-- A node that is known is not mentioned anew. -/
theorem withNode_of_known {b : Builder β} {guid : String} {n : Node β}
    (h : b.fabric.nodes.get? (.ofGuid guid) = some n) (type : NodeType) (lid : Int)
    (description : String) : b.withNode type lid guid description = b := by
  unfold withNode
  rw [h]

/-- A record whose nodes are known adds none. -/
theorem withEnds_of_knows {b : Builder β} {r : LinkRecord} (h : b.Knows r) :
    b.withEnds r = b := by
  obtain ⟨⟨src, hsrc⟩, dest, hdest⟩ := h
  unfold withEnds
  rw [withNode_of_known hsrc, withNode_of_known hdest]

/-- A node that is mentioned and found is known or new. -/
theorem withNode_get?_cases {b : Builder β} {type : NodeType} {lid : Int}
    {guid description : String} {id : NodeId} {n : Node β}
    (h : (b.withNode type lid guid description).fabric.nodes.get? id = some n) :
    b.fabric.nodes.get? id = some n ∨
      id = .ofGuid guid ∧ n = b.newNode type lid guid description := by
  unfold withNode at h
  cases hg : b.fabric.nodes.get? (.ofGuid guid) with
  | some m =>
    rw [hg] at h
    exact .inl h
  | none =>
    rw [hg] at h
    dsimp only at h
    rw [OrderedMap.get?_insert] at h
    by_cases hid : id = .ofGuid guid
    · rw [if_pos hid] at h
      exact .inr ⟨hid, (Option.some.inj h).symm⟩
    · rw [if_neg hid] at h
      exact .inl h

/-- A node that is mentioned changes no link and uses up no number. -/
theorem withNode_frame (b : Builder β) (type : NodeType) (lid : Int) (guid description : String) :
    (b.withNode type lid guid description).fabric.links = b.fabric.links ∧
      (b.withNode type lid guid description).nextLink = b.nextLink := by
  unfold withNode
  cases b.fabric.nodes.get? (.ofGuid guid) with
  | some n => exact ⟨rfl, rfl⟩
  | none => exact ⟨rfl, rfl⟩

/-- The nodes of a record add no more than themselves. -/
theorem addsEnds_withEnds (r : LinkRecord) (b : Builder β) : AddsEnds r b (b.withEnds r) where
  links := (withNode_frame _ _ _ _ _).1.trans (withNode_frame _ _ _ _ _).1
  nextLink := (withNode_frame _ _ _ _ _).2.trans (withNode_frame _ _ _ _ _).2
  known := fun id n hn => withNode_get?_of_some (withNode_get?_of_some hn _ _ _ _) _ _ _ _
  added := by
    intro id n hnone hn
    rcases withNode_get?_cases hn with hn | ⟨hid, rfl⟩
    · rcases withNode_get?_cases hn with hn | ⟨hid, rfl⟩
      · rw [hnone] at hn
        cases hn
      · exact ⟨.inl hid, rfl, rfl⟩
    · exact ⟨.inr hid, rfl, rfl⟩

/-- A builder adds nothing to itself. -/
theorem addsEnds_self (r : LinkRecord) (b : Builder β) : AddsEnds r b b where
  links := rfl
  nextLink := rfl
  known := fun _ _ hn => hn
  added := by
    intro id n hnone hn
    rw [hnone] at hn
    cases hn

/-- The nodes of a record are no news exactly if they are known. -/
theorem untouched_withEnds_iff {r : LinkRecord} {b : Builder β} :
    b.Untouched (b.withEnds r) ↔ b.Knows r := by
  constructor
  · intro h
    obtain ⟨src, hsrc⟩ := withEnds_source b r
    obtain ⟨dest, hdest⟩ := withEnds_dest b r
    rw [h.nodes] at hsrc hdest
    exact ⟨⟨src, hsrc⟩, dest, hdest⟩
  · intro h
    rw [withEnds_of_knows h]
    exact ⟨rfl, rfl, rfl, rfl⟩

section Refused

variable [Memory] [Bandwidth β]

/-- A record that spoils no more than its line is refused for its port or for its
width, and it leaves its nodes known in the latter case. -/
theorem addLink_refused_cases {r : LinkRecord} {b : Builder β} {e : Failure}
    (h : (addLink r b).outcome = .error e) (hspoils : e.spoilsLine = true) :
    r.srcPort < 1 ∧ (addLink r b).state = b ∨
      1 ≤ r.srcPort ∧ Bandwidth.Overlong r.speed r.width ∧
        (addLink r b).state = b.withEnds r := by
  have hadding := addLink_adding r b
  generalize addLink r b = run at hadding h
  cases hadding with
  | refused port => exact .inl ⟨port, rfl⟩
  | unmeasured port gbits =>
    cases h
    have hoverlong := (Bandwidth.spoilsLine_of_failure?_iff
      (Bandwidth.ofLink_eq_error_iff.mp gbits)).mp hspoils
    exact .inr ⟨port, hoverlong, rfl⟩
  | crowded port measured source room =>
    cases h
    unfold checkRoom at room
    split at room
    · cases room
      cases hspoils
    · split at room
      · cases room
        cases hspoils
      · cases room
  | plugged port measured source room => cases h

/-- Adding a link fails with no more harm than to its line exactly if its port or its
width is refused. -/
theorem addLink_spoils_iff {r : LinkRecord} {b : Builder β} :
    (∃ e, (addLink r b).outcome = .error e ∧ e.spoilsLine = true) ↔
      r.srcPort < 1 ∨ Bandwidth.Overlong r.speed r.width := by
  constructor
  · rintro ⟨e, h, hspoils⟩
    rcases addLink_refused_cases h hspoils with ⟨port, -⟩ | ⟨-, hoverlong, -⟩
    · exact .inl port
    · exact .inr hoverlong
  · intro h
    by_cases port : r.srcPort < 1
    · have hrefusal : r.refusal? = some (refusal r.srcPort r.srcId) := by
        rw [LinkRecord.refusal?, if_pos port]
      exact ⟨_, addLink_of_refused hrefusal b, spoilsLine_refusal _ _⟩
    · obtain ⟨grade, e, hgrade, hlanes⟩ := h.resolve_left port
      have hfailure : Bandwidth.failure? r.speed r.width = some e :=
        Bandwidth.failure?_eq_some_iff.mpr (.inl ⟨grade, hgrade, hlanes⟩)
      have hrefusal : r.refusal? = some e := by
        rw [LinkRecord.refusal?, if_neg port, hfailure]
      exact ⟨e, addLink_of_refused hrefusal b,
        (Bandwidth.spoilsLine_of_failure?_iff hfailure).mpr ⟨grade, e, hgrade, hlanes⟩⟩

/-- A refused record leaves the builder as it was exactly if its port is refused or its
nodes are known. -/
theorem untouched_addLink_iff {r : LinkRecord} {b : Builder β} {e : Failure}
    (h : (addLink r b).outcome = .error e) (hspoils : e.spoilsLine = true) :
    b.Untouched (addLink r b).state ↔ r.srcPort < 1 ∨ b.Knows r := by
  rcases addLink_refused_cases h hspoils with ⟨port, hstate⟩ | ⟨port, -, hstate⟩
  · rw [hstate]
    exact ⟨fun _ => .inl port, fun _ => ⟨rfl, rfl, rfl, rfl⟩⟩
  · rw [hstate, untouched_withEnds_iff]
    have hport : ¬ r.srcPort < 1 := by omega
    exact (or_iff_right hport).symm

/-- A line that is passed over leaves the builder as it was exactly if it holds no record
of a link, or its port is refused or its nodes are known. -/
theorem untouched_ingestLine_iff {report : FileReport} {l : SourceLine} {s : LineReport}
    {b : Builder β} (h : (ingestLine report l b).outcome = .ok (report.countLine.skip s)) :
    b.Untouched (ingestLine report l b).state ↔
      ∀ r, record? l.raw = some (.link r) → r.srcPort < 1 ∨ b.Knows r := by
  have hself : b.Untouched b := ⟨rfl, rfl, rfl, rfl⟩
  cases hrecord : record? l.raw with
  | none =>
    rw [(ingestLine_of_none hrecord report b).2]
    exact ⟨fun _ r hr => (Option.some_ne_none _ hr.symm).elim, fun _ => hself⟩
  | some r =>
    obtain ⟨houtcome, hstate⟩ := takeIn_run report.countLine l r b
    rw [(ingestLine_of_record hrecord report).1] at h ⊢
    rw [hstate]
    rw [houtcome] at h
    cases r with
    | port r =>
      rw [(ingest_port r b).2]
      refine ⟨fun _ r' hr' => ?_, fun _ => hself⟩
      cases hr'
    | link r =>
      rw [(ingest_link r b).1] at h
      rw [(ingest_link r b).2]
      cases hadd : (addLink r b).outcome with
      | ok link =>
        rw [hadd] at h
        have hskipped : report.skipped = report.skipped ++ [s] :=
          congrArg FileReport.skipped (Except.ok.inj h)
        exact absurd (List.self_eq_append_right.mp hskipped) (List.cons_ne_nil _ _)
      | error e =>
        rw [hadd] at h
        have hspoils : e.spoilsLine = true := by
          cases hs : e.spoilsLine with
          | true => rfl
          | false =>
            simp only [Except.map, settled, hs, Bool.false_eq_true, if_false] at h
            cases h
        rw [untouched_addLink_iff hadd hspoils]
        constructor
        · intro hr r' hr'
          cases hr'
          exact hr
        · intro hr
          exact hr r rfl

/-- A record is refused, with no more harm than to its line, exactly if its port is below
one or its width spells a number of lanes that is not read. Then the builder is as it was
exactly if the port is below one or both nodes of the record were known, and else no more
than these nodes are new. A line that is passed over leaves as much as its record. -/
theorem refusal_traceless_iff (b : Builder β) :
    (∀ r, (∃ e, (addLink r b).outcome = .error e ∧ e.spoilsLine = true) ↔
      r.srcPort < 1 ∨ Bandwidth.Overlong r.speed r.width) ∧
    (∀ r e, (addLink r b).outcome = .error e → e.spoilsLine = true →
      (b.Untouched (addLink r b).state ↔ r.srcPort < 1 ∨ b.Knows r) ∧
        AddsEnds r b (addLink r b).state) ∧
    ∀ report l s, (ingestLine report l b).outcome = .ok (report.countLine.skip s) →
      (b.Untouched (ingestLine report l b).state ↔
        ∀ r, record? l.raw = some (.link r) → r.srcPort < 1 ∨ b.Knows r) := by
  refine ⟨fun r => addLink_spoils_iff, ?_, fun report l s h => untouched_ingestLine_iff h⟩
  intro r e h hspoils
  refine ⟨untouched_addLink_iff h hspoils, ?_⟩
  rcases addLink_refused_cases h hspoils with ⟨-, hstate⟩ | ⟨-, -, hstate⟩
  · rw [hstate]
    exact addsEnds_self r b
  · rw [hstate]
    exact addsEnds_withEnds r b

end Refused

/-- A link whose width has 4301 digits. -/
def overlongRecord : LinkRecord :=
  { srcType := .switch, srcLid := 1, srcPort := 1, srcGuid := "00000000000000a1"
    width := String.ofList (List.replicate 4301 '1' ++ ['x']), speed := "QDR"
    destType := .host, destLid := 11, destPort := 1, destGuid := "0000000000000011" }

/-- The number of lanes of a width of 4301 digits is not read. -/
theorem overlong_overlongRecord :
    Bandwidth.Overlong overlongRecord.speed overlongRecord.width := by
  have hdigits : ∀ c ∈ List.replicate 4301 '1', Text.isDigit c = true :=
    Text.isDigit_of_mem_replicate (by decide)
  have hne : List.replicate 4301 '1' ≠ [] := nofun
  refine ⟨.qdr, .numeralTooLong 4301, rfl, ?_⟩
  refine (Bandwidth.laneCount_ofDigits hne hdigits).trans ?_
  rw [Text.readNumeral_eq_error_iff, List.length_replicate]
  exact ⟨by decide, rfl⟩

/-- A record that is refused for its width leaves its nodes. -/
theorem overlongRecord_leaves_nodes :
    ∃ e, (addLink overlongRecord (start "s" : Builder Float)).outcome = .error e ∧
      e.spoilsLine = true ∧
      ¬ (start "s" : Builder Float).Untouched (addLink overlongRecord (start "s")).state := by
  obtain ⟨e, h, hspoils⟩ := (addLink_spoils_iff (b := (start "s" : Builder Float))).mpr
    (.inr overlong_overlongRecord)
  refine ⟨e, h, hspoils, ?_⟩
  rw [untouched_addLink_iff h hspoils]
  rintro (port | ⟨⟨n, hn⟩, -⟩)
  · exact absurd port (by decide)
  · cases hn

end FabricPaths.Builder
