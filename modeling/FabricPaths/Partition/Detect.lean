import FabricPaths.Action
import FabricPaths.Fabric.Basic

/-!
# Finding partitions

Hosts whose names have the same stem form a partition. Partitions are numbered
in the order in which their first hosts appear.
-/

namespace FabricPaths

/-- The partitions found among some hosts. -/
abbrev Grouping := List Partition

namespace Grouping

/-- Adds a host to the partition of a name, which is opened if it is new; the
partition's number is returned. -/
def add (name : String) (id : NodeId) : Grouping → Grouping × Nat
  | [] => ([⟨name, [id]⟩], 0)
  | p :: ps =>
    if p.name = name then ({ p with members := p.members ++ [id] } :: ps, 0)
    else
      let (rest, i) := add name id ps
      (p :: rest, i + 1)

end Grouping

namespace Node

variable {β : Type}

/-- The name of the partition that the node's host name belongs to. -/
def partitionName (n : Node β) : String := Hostname.stem n.hostname

end Node

namespace Fabric

variable {β : Type}

/-- Puts the hosts among some nodes into partitions. -/
def groupNodes : Grouping → List (NodeId × Node β) → Grouping × List (NodeId × Node β)
  | groups, [] => (groups, [])
  | groups, (key, n) :: rest =>
    if n.isHost then
      let (groups, i) := groups.add n.partitionName n.id
      let (groups, rest) := groupNodes groups rest
      (groups, (key, { n with mainPartition := (i : Nat) }) :: rest)
    else
      let (groups, rest) := groupNodes groups rest
      (groups, (key, n) :: rest)

/-- Grouping leaves the keys of the nodes. -/
theorem keys_groupNodes (groups : Grouping) (es : List (NodeId × Node β)) :
    (groupNodes groups es).2.map Prod.fst = es.map Prod.fst := by
  induction es generalizing groups with
  | nil => rfl
  | cons e es ih =>
    obtain ⟨key, n⟩ := e
    simp only [groupNodes]
    split <;> simp [ih]

/-- The fabric with each host in its partition, and the partitions. -/
def grouped (f : Fabric β) : Fabric β × List Partition :=
  let g := groupNodes [] f.nodes.entries
  ({ f with nodes := ⟨g.2, by rw [keys_groupNodes]; exact f.nodes.nodup_keys⟩ }, g.1)

/-- Puts the hosts into partitions. -/
def findPartitions : Action (Fabric β) (List Partition) := do
  let (f, partitions) := (← Action.get).grouped
  Action.modify fun _ => f
  Action.say .info Log.partitions s!"{partitions.length} partitions found"
  Action.sayAll (partitions.map fun p => ⟨.debug, Log.partitions, "\t'" ++ p.name ++ "'"⟩)
  return partitions

end Fabric

end FabricPaths
