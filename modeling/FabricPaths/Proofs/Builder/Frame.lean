import FabricPaths.Proofs.Builder.History
import FabricPaths.Proofs.Fabric.Decoration

/-!
# What builders leave alone

A builder changes the nodes and the links of its fabric. The rest of the fabric is as it was when
the builder started: it is the subnet's, and has no tables, paths and partitions.
-/

namespace FabricPaths.Builder

variable {β : Type}

/-- A node that is mentioned leaves the rest of the fabric. -/
theorem rest_withNode (b : Builder β) (type : NodeType) (lid : Int) (guid description : String) :
    (b.withNode type lid guid description).fabric.rest = b.fabric.rest := by
  unfold withNode
  cases b.fabric.nodes.get? (.ofGuid guid) with
  | some n => rfl
  | none => rfl

/-- Pairing the links leaves the rest of the fabric. -/
theorem rest_finish (b : Builder β) : (finish b).state.fabric.rest = b.fabric.rest := by
  obtain ⟨ls, n, hstate⟩ := finish_state_pairing b
  rw [hstate]
  exact b.fabric.pairing_frame (fun _ _ _ => rfl) ls b.fabric

variable [Memory] [Bandwidth β]

/-- Adding a link leaves the rest of the fabric, however it ends. -/
theorem rest_addLink (r : LinkRecord) (b : Builder β) :
    (addLink r b).state.fabric.rest = b.fabric.rest := by
  have hends : (b.withEnds r).fabric.rest = b.fabric.rest := by
    rw [withEnds, rest_withNode, rest_withNode]
  have hadding := addLink_adding r b
  generalize addLink r b = run at hadding
  cases hadding with
  | refused port => rfl
  | unmeasured port gbits => exact hends
  | crowded port measured source room => exact hends
  | plugged port measured source room => exact hends

/-- Every history leaves the rest of the fabric. -/
theorem rest_after (subnet : String) (calls : List Call) :
    (after subnet calls : Builder β).fabric.rest = { subnet } :=
  after_induction (I := fun b : Builder β => b.fabric.rest = { subnet }) rfl
    (fun r b hb => (rest_addLink r b).trans hb) (fun _ _ hb => hb)
    (fun b hb => (rest_finish b).trans hb) calls

end FabricPaths.Builder
