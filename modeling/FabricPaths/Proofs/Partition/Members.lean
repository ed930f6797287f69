import Mathlib.Data.List.Nodup
import FabricPaths.Proofs.OrderedMap
import FabricPaths.Partition.Detect

/-!
# The members of partitions

Each host is a member of one partition, once: of the one whose number it is given.
-/

namespace FabricPaths

variable {β : Type}

/-- A host that is added to a partition is one more member. -/
theorem Grouping.members_add (name : String) (id : NodeId) (groups : Grouping) :
    ((groups.add name id).1.flatMap (·.members)).Perm
      (groups.flatMap (·.members) ++ [id]) := by
  induction groups with
  | nil => exact .refl _
  | cons p rest ih =>
    unfold add
    by_cases h : p.name = name
    · rw [if_pos h, List.flatMap_cons, List.flatMap_cons, List.append_assoc, List.append_assoc]
      exact List.perm_append_comm.append_left p.members
    · rw [if_neg h, List.flatMap_cons, List.flatMap_cons, List.append_assoc]
      exact ih.append_left p.members

/-- The partition of a number has a node among its members. -/
def Grouping.Lists (groups : Grouping) (i : Nat) (id : NodeId) : Prop :=
  ∃ p, groups[i]? = some p ∧ id ∈ p.members

/-- A host that is added is a member of the partition whose number is returned. -/
theorem Grouping.lists_add (name : String) (id : NodeId) (groups : Grouping) :
    (groups.add name id).1.Lists (groups.add name id).2 id := by
  induction groups with
  | nil => exact ⟨_, rfl, List.mem_singleton_self id⟩
  | cons p rest ih =>
    unfold add
    by_cases h : p.name = name
    · rw [if_pos h]
      exact ⟨_, rfl, List.mem_append_right _ (List.mem_singleton_self id)⟩
    · rw [if_neg h]
      exact ih

namespace Grouping.Lists

variable {groups : Grouping} {i j : Nat} {x : NodeId}

/-- A member stays one when a host is added. -/
theorem add (h : groups.Lists i x) (name : String) (id : NodeId) :
    (groups.add name id).1.Lists i x := by
  induction groups generalizing i with
  | nil =>
    obtain ⟨p, hp, -⟩ := h
    cases hp
  | cons q rest ih =>
    obtain ⟨p, hp, hx⟩ := h
    unfold Grouping.add
    by_cases hname : q.name = name
    · rw [if_pos hname]
      cases i with
      | zero =>
        cases hp
        exact ⟨_, rfl, List.mem_append_left _ hx⟩
      | succ i => exact ⟨p, hp, hx⟩
    · rw [if_neg hname]
      cases i with
      | zero => exact ⟨p, hp, hx⟩
      | succ i => exact ih ⟨p, hp, hx⟩

/-- A member of two partitions is one twice among all members. -/
theorem unique (hnodup : (groups.flatMap (·.members)).Nodup) (h : groups.Lists i x)
    (h' : groups.Lists j x) : i = j := by
  obtain ⟨p, hp, hx⟩ := h
  obtain ⟨p', hp', hx'⟩ := h'
  obtain ⟨hi, rfl⟩ := List.getElem?_eq_some_iff.mp hp
  obtain ⟨hj, rfl⟩ := List.getElem?_eq_some_iff.mp hp'
  have hapart := List.pairwise_iff_getElem.mp (List.nodup_flatMap.mp hnodup).2
  rcases Nat.lt_trichotomy i j with hlt | heq | hgt
  · exact (hapart i j hi hj hlt hx hx').elim
  · exact heq
  · exact (hapart j i hj hi hgt hx' hx).elim

end Grouping.Lists

namespace Fabric

/-- A member stays one when hosts are grouped. -/
theorem lists_groupNodes_of_lists {groups : Grouping} {i : Nat} {x : NodeId}
    (h : groups.Lists i x) (es : List (NodeId × Node β)) :
    (groupNodes groups es).1.Lists i x := by
  induction es generalizing groups with
  | nil => exact h
  | cons e es ih =>
    obtain ⟨key, n⟩ := e
    unfold groupNodes
    cases n.isHost with
    | true => exact ih (h.add n.partitionName n.id)
    | false => exact ih h

/-- Grouping gives each host the number of the partition whose member it is. -/
theorem lists_groupNodes {groups : Grouping} {es : List (NodeId × Node β)} {key : NodeId}
    {n' : Node β} (h : (key, n') ∈ (groupNodes groups es).2) (hhost : n'.isHost = true) :
    ∃ i : Nat, n'.mainPartition = i ∧ (groupNodes groups es).1.Lists i n'.id := by
  induction es generalizing groups with
  | nil => cases h
  | cons e es ih =>
    obtain ⟨key', n⟩ := e
    unfold groupNodes at h ⊢
    cases hn : n.isHost with
    | true =>
      rw [hn, if_pos rfl] at h
      rw [if_pos rfl]
      rcases List.mem_cons.mp h with heq | hin
      · cases heq
        exact ⟨_, rfl, lists_groupNodes_of_lists (Grouping.lists_add _ _ groups) es⟩
      · exact ih hin
    | false =>
      rw [hn, if_neg Bool.false_ne_true] at h
      rw [if_neg Bool.false_ne_true]
      rcases List.mem_cons.mp h with heq | hin
      · cases heq
        exact absurd (hn.symm.trans hhost) Bool.false_ne_true
      · exact ih hin

/-- A host of the grouped fabric has the number of the partition whose member it is. -/
theorem lists_grouped {f : Fabric β} {id : NodeId} {n' : Node β}
    (h : f.grouped.1.nodes.get? id = some n') (hhost : n'.isHost = true) :
    ∃ i : Nat, n'.mainPartition = i ∧ Grouping.Lists f.grouped.2 i n'.id :=
  lists_groupNodes (OrderedMap.mem_entries_iff.mpr h) hhost

/-- Grouping makes each host among some nodes one more member. -/
theorem members_groupNodes (groups : Grouping) (es : List (NodeId × Node β)) :
    ((groupNodes groups es).1.flatMap (·.members)).Perm
      (groups.flatMap (·.members) ++ ((es.map Prod.snd).filter (·.isHost)).map (·.id)) := by
  induction es generalizing groups with
  | nil => exact .of_eq (List.append_nil _).symm
  | cons e es ih =>
    obtain ⟨key, n⟩ := e
    unfold groupNodes
    rw [List.map_cons]
    cases hhost : n.isHost with
    | false =>
      rw [if_neg Bool.false_ne_true, List.filter_cons_of_neg (by simp [hhost])]
      exact ih groups
    | true =>
      rw [if_pos rfl, List.filter_cons_of_pos hhost, List.map_cons, ← List.singleton_append,
        ← List.append_assoc]
      exact (ih _).trans ((Grouping.members_add n.partitionName n.id groups).append_right _)

/-- The members of the partitions are the hosts. -/
theorem members_grouped (f : Fabric β) :
    (f.grouped.2.flatMap (·.members)).Perm (f.hosts.map (·.id)) :=
  members_groupNodes [] f.nodes.entries

end Fabric

end FabricPaths
