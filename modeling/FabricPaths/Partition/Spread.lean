import FabricPaths.Partition.Detect

/-!
# Spreading partition marks

The paths between hosts of one partition show which links, edges and nodes
carry its traffic. Each link on such a path is marked with the partition, and so
is the link that comes back through the same cable; the mark is passed on to the
edge and the node from which the link leaves.
-/

namespace FabricPaths

namespace Fabric

variable {β : Type}

/-- The fabric without marks, but for each host the mark of its own partition. -/
def clearMarks (f : Fabric β) : Fabric β :=
  { f with
    nodes := f.nodes.mapValues fun _ n =>
      { n with
        marks := if n.mainPartition = noPartition then ∅ else .singleton n.mainPartition
        edges := n.edges.mapValues fun _ e => { e with marks := ∅ } }
    links := f.links.mapValues fun _ l => { l with marks := ∅ } }

/-- Marks a link, its edge and the node that it leaves. -/
def mark (f : Fabric β) (partition : Int) (l : Link β) : Fabric β :=
  { f with
    links := f.links.modify l.id fun l => { l with marks := l.marks.add partition }
    nodes := f.nodes.modify l.parent fun n =>
      { n with
        marks := n.marks.add partition
        edges := n.edges.modify l.dest fun e => { e with marks := e.marks.add partition } } }

/-- Marks a link and the link that comes back. -/
def markBoth (f : Fabric β) (partition : Int) (id : LinkId) : Except Failure (Fabric β) := do
  let l ← f.link id
  let f := f.mark partition l
  return match l.otherLink.bind f.links.get? with
    | some other => f.mark partition other
    | none => f

/-- Marks the links of a path. -/
def markPath (partition : Int) : Path → Action (Fabric β) Unit
  | [] => pure ()
  | id :: rest => do
    let f ← Action.ofExcept ((← Action.get).markBoth partition id)
    Action.modify fun _ => f
    markPath partition rest

/-- Marks the links of the paths that stay within a partition. -/
def markPaths : List (NodeId × NodeId × Path) → Action (Fabric β) Unit
  | [] => pure ()
  | (source, dest, links) :: rest => do
    let f ← Action.get
    let src ← Action.ofExcept (f.node source)
    let dst ← Action.ofExcept (f.node dest)
    if src.mainPartition = dst.mainPartition then
      markPath src.mainPartition links
    markPaths rest

/-- Finds the partitions and marks what carries their traffic. -/
def setPartitions : Action (Fabric β) (List Partition) := do
  let partitions ← findPartitions
  Action.modify fun f => { f with partitions }.clearMarks
  markPaths (← Action.get).paths.list
  return partitions

end Fabric

end FabricPaths
