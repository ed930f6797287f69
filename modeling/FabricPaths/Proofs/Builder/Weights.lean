import FabricPaths.Proofs.Builder.Records
import FabricPaths.Proofs.Fabric.Pairing
import FabricPaths.Proofs.Fabric.Weights

/-!
# Builders keep the bandwidths of edges

Whatever calls a builder has lived through, and however they ended, each edge has the bandwidth
of the links that it lists, together, if bandwidths are exact. The main statement says so with
rational bandwidths.
-/

namespace FabricPaths

/-- Changing a link in other respects leaves the bandwidths at positions. -/
theorem Fabric.weightAt_modifyLink {β : Type} [Bandwidth β] (f : Fabric β) (k : LinkId)
    (id : NodeId) {c : Link β → Link β} (h : ∀ l, (c l).gbits = l.gbits) :
    (f.modifyLink k c).weightAt id = f.weightAt id := by
  funext p
  cases p with
  | negSucc i => rfl
  | ofNat i =>
    have hslot : (f.modifyLink k c).linkIn? id i = f.linkIn? id i := rfl
    have hlinks : (f.modifyLink k c).links = f.links.modify k c := rfl
    rw [weightAt, weightAt, hslot, hlinks]
    cases f.linkIn? id i with
    | none => rfl
    | some j =>
      rw [Option.bind_some, Option.bind_some, OrderedMap.get?_modify]
      split
      · rw [Option.map_map]
        congr 2
        funext l
        exact h l
      · rfl

namespace Builder

open Bandwidth (Exact)

variable {β : Type} [Bandwidth β]

/-- A node that is mentioned leaves the bandwidths of edges. -/
theorem weighed_withNode {b : Builder β} (h : b.fabric.Weighed) (type : NodeType) (lid : Int)
    (guid description : String) :
    (b.withNode type lid guid description).fabric.Weighed := by
  unfold withNode
  cases hg : b.fabric.nodes.get? (.ofGuid guid) with
  | some n => exact h
  | none => exact Fabric.Wired.weighed_insert_node h hg rfl rfl

/-- The nodes of a record leave the bandwidths of edges. -/
theorem weighed_withEnds {b : Builder β} (h : b.fabric.Weighed) (r : LinkRecord) :
    (b.withEnds r).fabric.Weighed :=
  weighed_withNode (weighed_withNode h _ _ _ _) _ _ _ _

/-- Pairing the links leaves the bandwidths of edges. -/
theorem weighed_finish {b : Builder β} (h : b.fabric.Weighed) :
    (finish b).state.fabric.Weighed := by
  obtain ⟨ls, k, hstate⟩ := finish_state_pairing b
  have hnodes : (b.fabric.pairing ls b.fabric).nodes = b.fabric.nodes :=
    b.fabric.pairing_frame (fun _ _ _ => rfl) ls b.fabric
  have hweights : ∀ id, (b.fabric.pairing ls b.fabric).weightAt id = b.fabric.weightAt id :=
    fun id => b.fabric.pairing_frame (p := fun g => g.weightAt id)
      (fun g k other => g.weightAt_modifyLink k id fun _ => rfl) ls b.fabric
  intro id n hn d e he
  rw [hstate] at hn ⊢
  dsimp only at hn ⊢
  rw [hnodes] at hn
  rw [hweights]
  exact h hn he

variable [Memory]

/-- Adding a link leaves the edges with the bandwidths of their links, however it ends. -/
theorem weighed_addLink (exact : Exact β) {b : Builder β} (s : b.Sound) (h : b.fabric.Weighed)
    (r : LinkRecord) : (addLink r b).state.fabric.Weighed := by
  have hends := weighed_withEnds h r
  have hadding := addLink_adding r b
  generalize addLink r b = run at hadding
  cases hadding with
  | refused port => exact h
  | unmeasured port gbits => exact hends
  | crowded port measured source room => exact hends
  | plugged port measured source room =>
    exact (s.withEnds r).wired.weighed_plug exact hends source (s.withEnds r).fresh

/-- After any calls, each edge has the bandwidth of the links that it lists, together. -/
theorem weighed_after (exact : Exact β) (subnet : String) (calls : List Call) :
    (after subnet calls : Builder β).fabric.Weighed := by
  refine (after_induction (I := fun b : Builder β => b.Sound ∧ b.fabric.Weighed) ?_ ?_ ?_ ?_
    calls).2
  · exact ⟨sound_start subnet, Fabric.weighed_empty subnet⟩
  · exact fun r b h => ⟨h.1.addLink r, weighed_addLink exact h.1 h.2 r⟩
  · exact fun b files h => ⟨⟨h.1.wired, h.1.fresh⟩, h.2⟩
  · exact fun b h => ⟨h.1.finish, weighed_finish h.2⟩

/-- After any records, each edge has the bandwidth of the links that it lists, together. -/
theorem weighed_taken (exact : Exact β) (subnet : String) (rs : List LinkRecord) :
    (taken subnet rs : Builder β).fabric.Weighed :=
  weighed_after exact subnet _

/-- After any calls, in any order and whether they stopped or not, each edge has the bandwidths
of the links at its positions, added up. -/
theorem edges_add_up (subnet : String) (calls : List Call) :
    (after subnet calls : Builder ℚ).fabric.EdgesAddUp :=
  (sound_after subnet calls).wired.edgesAddUp
    (weighed_after Bandwidth.exact_rat subnet calls)

end Builder

end FabricPaths
