import FabricPaths.Partition.Detect
import FabricPaths.Proofs.Fabric.Decoration

/-!
# What finding partitions changes

Finding partitions puts each host into a partition, and changes nothing else.
-/

namespace FabricPaths

variable {β : Type}

/-- The node in a partition. -/
def Node.inPartition (n : Node β) (partition : Int) : Node β :=
  { n with mainPartition := partition }

namespace Fabric

/-- What grouping makes of a node: a host gets a partition, a switch stays. -/
inductive Assigned (n : Node β) : Node β → Prop
  /-- A host gets a partition. -/
  | host (h : n.isHost = true) (i : Nat) : Assigned n (n.inPartition i)
  /-- A switch stays as it is. -/
  | switch (h : n.isHost = false) : Assigned n n

/-- Grouping assigns each node. -/
theorem mem_groupNodes {groups : Grouping} {es : List (NodeId × Node β)} {id : NodeId}
    {n' : Node β} (h : (id, n') ∈ (groupNodes groups es).2) :
    ∃ n, (id, n) ∈ es ∧ Assigned n n' := by
  induction es generalizing groups with
  | nil => exact absurd h List.not_mem_nil
  | cons e es ih =>
    obtain ⟨key, n⟩ := e
    unfold groupNodes at h
    cases hhost : n.isHost with
    | true =>
      rw [hhost, if_pos rfl] at h
      rcases List.mem_cons.mp h with heq | hin
      · cases heq
        exact ⟨n, List.mem_cons_self, .host hhost _⟩
      · obtain ⟨n₀, hn₀, hassigned⟩ := ih hin
        exact ⟨n₀, List.mem_cons_of_mem _ hn₀, hassigned⟩
    | false =>
      rw [hhost, if_neg Bool.false_ne_true] at h
      rcases List.mem_cons.mp h with heq | hin
      · cases heq
        exact ⟨_, List.mem_cons_self, .switch hhost⟩
      · obtain ⟨n₀, hn₀, hassigned⟩ := ih hin
        exact ⟨n₀, List.mem_cons_of_mem _ hn₀, hassigned⟩

/-- A node of the grouped fabric is an assigned node of the fabric. -/
theorem get?_grouped {f : Fabric β} {id : NodeId} {n' : Node β}
    (h : f.grouped.1.nodes.get? id = some n') :
    ∃ n, f.nodes.get? id = some n ∧ Assigned n n' := by
  have hin : (id, n') ∈ (groupNodes [] f.nodes.entries).2 := OrderedMap.mem_entries_iff.mpr h
  obtain ⟨n, hn, hassigned⟩ := mem_groupNodes hin
  exact ⟨n, OrderedMap.mem_entries_iff.mp hn, hassigned⟩

/-- An assigned node is a host just if it was one. -/
theorem Assigned.isHost_eq {n n' : Node β} (h : Assigned n n') : n'.isHost = n.isHost := by
  cases h with
  | host _ i => rfl
  | switch _ => rfl

/-- Grouping changes no node but for its partition. -/
theorem bare_groupNodes (groups : Grouping) (es : List (NodeId × Node β)) :
    (groupNodes groups es).2.map (fun e => (e.1, e.2.bare)) = es.map fun e => (e.1, e.2.bare) := by
  induction es generalizing groups with
  | nil => rfl
  | cons e es ih =>
    obtain ⟨key, n⟩ := e
    unfold groupNodes
    split
    · dsimp only
      rw [List.map_cons, List.map_cons, ih]
      rfl
    · dsimp only
      rw [List.map_cons, List.map_cons, ih]

/-- Grouping leaves the fabric bare as it was. -/
theorem bare_grouped (f : Fabric β) : f.grouped.1.bare = f.bare := by
  unfold bare grouped
  dsimp only
  congr 1
  apply OrderedMap.ext
  exact bare_groupNodes [] f.nodes.entries

end Fabric

end FabricPaths
