import FabricPaths.Proofs.Builder.Unpaired
import FabricPaths.Proofs.Builder.Wiring
import FabricPaths.Proofs.Fabric.Reversal

/-!
# Builders pair links in both directions

Whatever calls came before it, the pairing at the end of a history pairs each
link with the link that comes back through the same cable and counts the links
without one. Pairings before it make no difference. It breaks off at a link
without a way back that has a port whose number is too long to be written. Edges
that are paired afterwards are paired in both directions too, and as their links
are.
-/

namespace FabricPaths.Builder

variable {β : Type}

/-- The links are paired as their two ends tell, in both directions, and the
links without a way back are counted. -/
structure Paired (b : Builder β) : Prop where
  /-- A link is paired with the link that leaves its far port, if that link ends
  at its near port, and else with none. -/
  otherLink_iff : ∀ k l, b.fabric.links.get? k = some l → ∀ other, l.otherLink = some other ↔
    ∃ n o, b.fabric.nodes.get? l.dest = some n ∧ b.fabric.linkAt? n l.destPort = some o ∧
      o.dest = l.parent ∧ o.destPort = l.srcPort ∧ o.id = other
  /-- The link that comes back is indexed, and paired with the link itself. -/
  involutive : ∀ k l other, b.fabric.links.get? k = some l → l.otherLink = some other →
    ∃ o, b.fabric.links.get? other = some o ∧ o.otherLink = some l.id
  /-- The links without a way back are counted. -/
  unresolved_eq : b.unresolved = b.fabric.links.values.countP fun l => l.otherLink.isNone

/-- A link of a paired fabric is paired as its two ends tell. -/
theorem otherLink_pairLinks {f : Fabric β} (w : f.Wired) {k : LinkId} {l : Link β}
    (hl : f.pairLinks.links.get? k = some l) (other : LinkId) : l.otherLink = some other ↔
      ∃ n o, f.pairLinks.nodes.get? l.dest = some n ∧ f.pairLinks.linkAt? n l.destPort = some o ∧
        o.dest = l.parent ∧ o.destPort = l.srcPort ∧ o.id = other := by
  have hnodes : f.pairLinks.nodes = f.nodes := by rw [w.pairLinks_eq]
  rw [w.links_pairLinks] at hl
  obtain ⟨l', -, rfl⟩ := Option.map_eq_some_iff.mp hl
  change (f.returnOf? l').map (·.id) = some other ↔ _
  rw [hnodes, Option.map_eq_some_iff]
  simp only [Fabric.Wired.returnOf?_eq_some_iff, w.linkAt?_pairLinks]
  constructor
  · intro h
    rcases h with ⟨o, ⟨n, hn, ho, hdest, hport⟩, hid⟩
    exact ⟨n, f.paired o, hn, congrArg (Option.map f.paired) ho, hdest, hport, hid⟩
  · intro h
    rcases h with ⟨n, o, hn, ho, hdest, hport, hid⟩
    obtain ⟨o', ho', rfl⟩ := Option.map_eq_some_iff.mp ho
    exact ⟨o', ⟨n, hn, ho', hdest, hport⟩, hid⟩

/-- The links without a way back are counted. -/
theorem Finishes.unresolved_eq {b : Builder β} (h : b.Finishes) (w : b.fabric.Wired) :
    (finish b).state.unresolved =
      b.fabric.pairLinks.links.values.countP fun l => l.otherLink.isNone := by
  have hvalues : b.fabric.pairLinks.links.values = b.fabric.links.values.map b.fabric.paired := by
    rw [w.pairLinks_eq]
    exact OrderedMap.values_mapValues b.fabric.paired b.fabric.links
  calc
    (finish b).state.unresolved =
        b.fabric.pairedLinks.countP fun l => (b.fabric.returnId? l).isNone := by
      rw [h.finish_state, List.countP_eq_length_filter]
      rfl
    _ = b.fabric.links.values.countP fun l => (b.fabric.returnId? l).isNone :=
      w.perm_pairedLinks.countP_eq _
    _ = b.fabric.pairLinks.links.values.countP fun l => l.otherLink.isNone := by
      rw [hvalues, List.countP_map]
      rfl

/-- Pairing the links of a wired fabric, if it does not break off, pairs them in both
directions. -/
theorem Finishes.paired {b : Builder β} (h : b.Finishes) (w : b.fabric.Wired) :
    (finish b).state.Paired where
  otherLink_iff := by
    intro k l hl other
    rw [h.finish_state] at hl ⊢
    exact otherLink_pairLinks w hl other
  involutive := by
    intro k l other hl hother
    rw [h.finish_state] at hl ⊢
    have w' : b.fabric.pairLinks.Wired := w.of_bare_eq b.fabric.bare_pairLinks
    obtain ⟨o, ho, hback, -, -⟩ := w.otherLink_symm hl hother
    have hid : l.id = k := w'.link_id hl
    rw [hid]
    exact ⟨o, ho, hback⟩
  unresolved_eq := by
    rw [h.unresolved_eq w, h.finish_state]

/-- Pairing the links of a wired fabric does not break off just if the ports of each link without
a way back can be written. -/
theorem finishes_iff_of_wired {b : Builder β} (w : b.fabric.Wired) :
    b.Finishes ↔ ∀ l ∈ b.fabric.links.values, b.fabric.returnOf? l = none → l.Reportable := by
  rw [finishes_iff, unreturned, missed]
  simp only [List.mem_filter, w.perm_pairedLinks.mem_iff, Fabric.returnId?, Option.isNone_map,
    Option.isNone_iff_eq_none, and_imp]

section Building

variable [Memory] [Bandwidth β]

/-- After any calls, in any order and whether they stopped or not, pairing the links leaves all else
as it was. It ends well just if both ports of each link without a way back can be written, and fails
otherwise for a number that is too long. Where it ends well, the links are paired in both
directions, and earlier pairings make no difference to what is left. -/
theorem links_paired_both_ways (subnet : String) (calls : List Call) :
    ((after subnet calls : Builder β).Finishes ↔
      ∀ l ∈ (after subnet calls : Builder β).fabric.links.values,
        (after subnet calls : Builder β).fabric.returnOf? l = none → l.Reportable) ∧
    (¬ (after subnet calls : Builder β).Finishes →
      (finish (after subnet calls : Builder β)).outcome = .error .numberTooLong) ∧
    (after subnet (calls ++ [.finish]) : Builder β).unpaired = (after subnet calls).unpaired ∧
    ((after subnet calls : Builder β).Finishes →
      (after subnet (calls ++ [.finish]) : Builder β).Paired ∧
      (after subnet (calls ++ [.finish]) : Builder β) =
        after subnet ((calls.filter fun c => decide (c ≠ .finish)) ++ [.finish])) := by
  have s : (after subnet calls : Builder β).Sound := sound_after subnet calls
  have s' : (after subnet (calls.filter fun c => decide (c ≠ .finish)) : Builder β).Sound :=
    sound_after subnet _
  have hsame : (after subnet calls : Builder β).unpaired =
      (after subnet (calls.filter fun c => decide (c ≠ .finish))).unpaired :=
    run_unpaired calls rfl
  rw [after_concat, after_concat]
  refine ⟨finishes_iff_of_wired s.wired, (finish_outcome_cases _).resolve_left,
    unpaired_finish _, fun h => ⟨h.paired s.wired, ?_⟩⟩
  have h' : (after subnet (calls.filter fun c => decide (c ≠ .finish)) : Builder β).Finishes := by
    rw [← finishes_unpaired, ← hsame, finishes_unpaired]
    exact h
  have hfinish : finish (after subnet calls : Builder β) =
      finish (after subnet (calls.filter fun c => decide (c ≠ .finish))) := by
    rw [← h.finish_unpaired s.wired, hsame, h'.finish_unpaired s'.wired]
  exact congrArg Run.state hfinish

end Building

/-- One host has a link to a port of a switch that has no link, and another host has a cable to
the switch. -/
def sampleCables (port : Int) : List Call :=
  [.ingest (.link { srcType := .host, srcLid := 1, srcPort := 1, srcGuid := "1", width := "4x"
                    speed := "EDR", destType := .switch, destLid := 9, destPort := port
                    destGuid := "9" }),
   .ingest (.link { srcType := .host, srcLid := 2, srcPort := 1, srcGuid := "2", width := "4x"
                    speed := "EDR", destType := .switch, destLid := 9, destPort := 2
                    destGuid := "9" }),
   .ingest (.link { srcType := .switch, srcLid := 9, srcPort := 2, srcGuid := "9", width := "4x"
                    speed := "EDR", destType := .host, destLid := 2, destPort := 1
                    destGuid := "2" })]

/-- The links of the cables can be paired. -/
theorem sampleCables_finishes : (after "s" (sampleCables 7) : Builder Float).Finishes := by
  unfold Finishes
  decide +kernel

/-- The two links of the cable are paired with each other if the other link can be reported. -/
theorem sampleCables_paired : (after "s" (sampleCables 7) : Builder Float).Finishes ∧
    (after "s" (sampleCables 7 ++ [.finish]) : Builder Float).Paired ∧
    (after (β := Float) "s" (sampleCables 7 ++ [.finish])).fabric.links.values.map (·.otherLink) =
      [none, some 2, some 1] :=
  ⟨sampleCables_finishes,
    ((links_paired_both_ways "s" (sampleCables 7)).2.2.2 sampleCables_finishes).1,
    by decide +kernel⟩

/-- The links of the cable are not paired if the port of the other link is too long to be
reported. -/
theorem farCable_unpaired :
    ¬ (after "s" (sampleCables Text.numberLimit ++ [.finish]) : Builder Float).Paired := by
  intro h
  have hlink : ((after (β := Float) "s"
      (sampleCables Text.numberLimit ++ [.finish])).fabric.links.get? 1).map
        (fun l => (l.parent, l.srcPort, l.dest, l.destPort, l.otherLink)) =
      some (.ofGuid "2", 1, .ofGuid "9", 2, none) := by decide +kernel
  have hreturn : ((after (β := Float) "s"
      (sampleCables Text.numberLimit ++ [.finish])).fabric.nodes.get? (.ofGuid "9")).bind
        (fun n => ((after (β := Float) "s"
          (sampleCables Text.numberLimit ++ [.finish])).fabric.linkAt? n 2).map
            fun o => (o.dest, o.destPort, o.id)) =
      some (.ofGuid "2", 1, 2) := by decide +kernel
  obtain ⟨l, hl, hfields⟩ := Option.map_eq_some_iff.mp hlink
  obtain ⟨n, hn, hfound⟩ := Option.bind_eq_some_iff.mp hreturn
  obtain ⟨o, ho, hends⟩ := Option.map_eq_some_iff.mp hfound
  simp only [Prod.mk.injEq] at hfields hends
  obtain ⟨hparent, hsrc, hdest, hport, hother⟩ := hfields
  obtain ⟨hback, hbackPort, hid⟩ := hends
  have hpaired := (h.otherLink_iff 1 l hl 2).mpr ⟨n, o, by rw [hdest, hn], by rw [hport, ho],
    by rw [hback, hparent], by rw [hbackPort, hsrc], hid⟩
  rw [hother] at hpaired
  cases hpaired

section Building

variable [Memory] [Bandwidth β]

/-- After any calls, in any order and whether they stopped or not, and a pairing of the links that
ends well, pairing the edges pairs them in both directions, and as their links are paired, and
counts the edges without one the other way. -/
theorem edges_paired_both_ways (subnet : String) (calls : List Call)
    (h : (after subnet calls : Builder β).Finishes) :
    (after subnet (calls ++ [.finish]) : Builder β).fabric.pairEdges.EdgesPaired
      (after subnet (calls ++ [.finish]) : Builder β).fabric.unpairedEdges := by
  have s : (after subnet calls : Builder β).Sound := sound_after subnet calls
  have s' : (after subnet (calls ++ [.finish]) : Builder β).Sound := sound_after subnet _
  refine s'.wired.edgesPaired_pairEdges fun k l other hl hother => ?_
  rw [after_concat] at hl ⊢
  change (finish (after subnet calls : Builder β)).state.fabric.links.get? k = some l at hl
  change ∃ o, (finish (after subnet calls : Builder β)).state.fabric.links.get? other = some o ∧ _
  rw [h.finish_state] at hl ⊢
  obtain ⟨o, ho, -, hparent, hdest⟩ := s.wired.otherLink_symm hl hother
  exact ⟨o, ho, hparent, hdest⟩

end Building

/-- The edges between the switch and the second host are paired in both directions, and the edge
from the first host has none the other way. -/
theorem sampleCables_edges_paired : (after "s" (sampleCables 7) : Builder Float).Finishes ∧
    (after "s" (sampleCables 7 ++ [.finish]) : Builder Float).fabric.unpairedEdges = 1 ∧
    (after "s" (sampleCables 7 ++ [.finish]) : Builder Float).fabric.pairEdges.EdgesPaired
      (after "s" (sampleCables 7 ++ [.finish]) : Builder Float).fabric.unpairedEdges :=
  ⟨sampleCables_finishes, by decide +kernel,
    edges_paired_both_ways "s" (sampleCables 7) sampleCables_finishes⟩

end FabricPaths.Builder
