import FabricPaths.Fabric.Node
import FabricPaths.Routing.Table

/-!
# Fabrics

The fabric of a subnet: its nodes, its links, and what was found out about
them. Nodes and links are indexed in the order of their first appearance. A
link that is still plugged into a port though it left the index is kept beside
it, and so is a node that is still someone's subnode.
-/

namespace FabricPaths

/-- The links of a complete path. -/
abbrev Path := List LinkId

/-- The complete paths by source and destination. -/
abbrev Paths := OrderedMap NodeId (OrderedMap NodeId Path)

/-- Hosts whose names share a stem. -/
structure Partition where
  /-- The stem. -/
  name : String
  /-- The hosts. -/
  members : List NodeId
deriving DecidableEq, Inhabited

/-- What is known about one subnet. -/
structure Fabric (β : Type) where
  /-- The subnet's identifier. -/
  subnet : String
  /-- The nodes. -/
  nodes : OrderedMap NodeId (Node β) := ∅
  /-- Nodes that left the index. -/
  asideNodes : List (Node β) := []
  /-- The links. -/
  links : OrderedMap LinkId (Link β) := ∅
  /-- Links that left the index. -/
  asideLinks : OrderedMap LinkId (Link β) := ∅
  /-- The forwarding tables. -/
  routes : RoutingTables := ∅
  /-- The complete paths. -/
  paths : Paths := ∅
  /-- The partitions. -/
  partitions : List Partition := []
  /-- The directory with hardware descriptions. -/
  hwlocDir : Option String := none
deriving Inhabited

namespace Fabric

variable {β : Type}

/-- The node of an identifier. -/
def node? (f : Fabric β) (id : NodeId) : Option (Node β) := f.nodes.get? id

/-- The node of an identifier, which has to be there. -/
def node (f : Fabric β) (id : NodeId) : Except Failure (Node β) :=
  match f.nodes.get? id with
  | some n => .ok n
  | none => .error (.unknownNode id)

/-- The node of an identifier is there exactly when it is indexed. -/
theorem node_eq_ok_iff {f : Fabric β} {id : NodeId} {n : Node β} :
    f.node id = .ok n ↔ f.nodes.get? id = some n := by
  unfold node
  cases f.nodes.get? id with
  | none => exact ⟨nofun, nofun⟩
  | some m =>
    exact ⟨fun h => congrArg some (Except.ok.inj h),
      fun h => congrArg Except.ok (Option.some.inj h)⟩

/-- The link of a number, which has to be there. -/
def link (f : Fabric β) (id : LinkId) : Except Failure (Link β) :=
  match f.links.get? id with
  | some l => .ok l
  | none => .error (.unknownLink id)

/-- The link of a number is there exactly when it is indexed. -/
theorem link_eq_ok_iff {f : Fabric β} {id : LinkId} {l : Link β} :
    f.link id = .ok l ↔ f.links.get? id = some l := by
  unfold link
  cases f.links.get? id with
  | none => exact ⟨nofun, nofun⟩
  | some m =>
    exact ⟨fun h => congrArg some (Except.ok.inj h),
      fun h => congrArg Except.ok (Option.some.inj h)⟩

/-- The link of a number, whether it is indexed or not. -/
def anyLink? (f : Fabric β) (id : LinkId) : Option (Link β) :=
  (f.links.get? id).or (f.asideLinks.get? id)

/-- Changes a link, whether it is indexed or not. -/
def modifyLink (f : Fabric β) (id : LinkId) (g : Link β → Link β) : Fabric β :=
  { f with links := f.links.modify id g, asideLinks := f.asideLinks.modify id g }

/-- The edge between two nodes. -/
def edge? (f : Fabric β) (key : NodeId × NodeId) : Option (Edge β) :=
  (f.nodes.get? key.1).bind fun n => n.edges.get? key.2

/-- The hosts. -/
def hosts (f : Fabric β) : List (Node β) := f.nodes.values.filter (·.isHost)

/-- The switches. -/
def switches (f : Fabric β) : List (Node β) := f.nodes.values.filter (!·.isHost)

/-- The complete path between two hosts. -/
def path? (f : Fabric β) (source dest : NodeId) : Option Path :=
  (f.paths.get? source).bind fun p => p.get? dest

/-- The number of complete paths. -/
def pathCount (f : Fabric β) : Nat := (f.paths.values.map (·.size)).foldr (· + ·) 0

/-- The links that leave a node, in the order of its slots. -/
def linksOf (f : Fabric β) (n : Node β) : List (Link β) :=
  n.links.filterMap f.anyLink?

/-- The link that leaves a node through a port. -/
def linkAt? (f : Fabric β) (n : Node β) (port : Int) : Option (Link β) :=
  (n.linkAt? port).bind f.anyLink?

/-- The first link of a node's first edge. -/
def firstLink? (f : Fabric β) (n : Node β) : Except Failure (Option (Link β)) := do
  return (← n.firstLink?).bind f.anyLink?

/-- The node that a keeping refers to. -/
def kept? (f : Fabric β) (id : NodeId) : Keeping → Option (Node β)
  | .indexed => f.nodes.get? id
  | .aside position => f.asideNodes[position]?

/-- The nodes that were put under a node. -/
def subnodesOf (f : Fabric β) (n : Node β) : List (Node β) :=
  n.subnodes.entries.filterMap fun (id, keeping) => f.kept? id keeping

end Fabric

/-- The complete paths in order, with their ends. -/
def Paths.list (p : Paths) : List (NodeId × NodeId × Path) :=
  p.entries.flatMap fun (source, dests) => dests.entries.map fun (dest, links) =>
    (source, dest, links)

end FabricPaths
