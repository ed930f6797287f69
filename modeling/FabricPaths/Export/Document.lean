import FabricPaths.Fabric.Basic

/-!
# Exported fabrics

The document that a finished fabric is written as. It names nodes and links by
the identifiers that the fabric uses, so its paths and back references can be
followed without any other file.
-/

namespace FabricPaths.Export

/-- An edge of the document. -/
structure EdgeEntry (β : Type) where
  /-- The node at which the links end. -/
  dest : NodeId
  /-- The bandwidth of the links together. -/
  gbits : β
  /-- The links. -/
  links : List LinkId
  /-- The edge the other way. -/
  reverse : Option (NodeId × NodeId)
  /-- The partitions whose traffic it carries. -/
  partitions : List Int
deriving DecidableEq, Inhabited

/-- A node of the document. -/
inductive NodeEntry (β : Type)
  | mk (id : NodeId) (lid : Int) (type : NodeType) (hostname description : String)
    (mainPartition : Int) (partitions : List Int) (subnodes : List (NodeEntry β))
    (edges : List (EdgeEntry β))
deriving Inhabited

namespace NodeEntry

variable {β : Type}

/-- The node's identifier. -/
def id : NodeEntry β → NodeId
  | mk id _ _ _ _ _ _ _ _ => id

/-- What the node is. -/
def type : NodeEntry β → NodeType
  | mk _ _ type _ _ _ _ _ _ => type

/-- The partitions whose traffic the node sends. -/
def partitions : NodeEntry β → List Int
  | mk _ _ _ _ _ _ partitions _ _ => partitions

/-- The nodes under the node. -/
def subnodes : NodeEntry β → List (NodeEntry β)
  | mk _ _ _ _ _ _ _ subnodes _ => subnodes

/-- The edges that leave the node. -/
def edges : NodeEntry β → List (EdgeEntry β)
  | mk _ _ _ _ _ _ _ _ edges => edges

end NodeEntry

/-- A link of the document. -/
structure LinkEntry (β : Type) where
  /-- The link's number. -/
  id : LinkId
  /-- The port that it leaves through. -/
  srcPort : Int
  /-- The port at which it ends. -/
  destPort : Int
  /-- The node that it leaves. -/
  parent : NodeId
  /-- The node at which it ends. -/
  dest : NodeId
  /-- The width. -/
  width : String
  /-- The speed grade's code. -/
  speed : String
  /-- The bandwidth. -/
  gbits : β
  /-- The description of both nodes. -/
  description : String
  /-- The link that comes back. -/
  otherLink : Option LinkId
  /-- The partitions whose traffic it carries. -/
  partitions : List Int
deriving DecidableEq, Inhabited

/-- A path of the document. -/
structure PathEntry where
  /-- Where it starts. -/
  source : NodeId
  /-- Where it ends. -/
  dest : NodeId
  /-- Its links. -/
  links : List LinkId
deriving DecidableEq, Inhabited

/-- A whole fabric as a document. -/
structure Document (β : Type) where
  /-- The subnet's identifier. -/
  subnet : String
  /-- The directory with hardware descriptions. -/
  hwlocDir : Option String
  /-- The partitions. -/
  partitions : List Partition
  /-- The nodes. -/
  nodes : List (NodeEntry β)
  /-- The links by number. -/
  links : List (LinkEntry β)
  /-- The paths. -/
  paths : List PathEntry
deriving Inhabited

end FabricPaths.Export

namespace FabricPaths

open Export

variable {β : Type}

/-- The links that an edge lists; a listed slot may be empty but has to exist. -/
def Node.listedLinks (n : Node β) : List Int → Except Failure (List LinkId)
  | [] => .ok []
  | position :: rest => do
    let link ← n.listedLink position
    let later ← n.listedLinks rest
    return link.toList ++ later

namespace Fabric

/-- An edge of a node as the document has it. -/
def edgeEntry (n : Node β) (e : Edge β) : Except Failure (EdgeEntry β) := do
  return {
    dest := e.dest
    gbits := e.gbits
    links := ← n.listedLinks e.linkPorts
    reverse := e.reverse
    partitions := e.marks.members }

/-- The edges of a node as the document has them. -/
def edgeEntries (n : Node β) : List (Edge β) → Except Failure (List (EdgeEntry β))
  | [] => .ok []
  | e :: rest => do
    let entry ← edgeEntry n e
    return entry :: (← edgeEntries n rest)

/-- Nodes as the document has them, given the entries of the nodes under a node. -/
def nodeEntriesOver (f : Fabric β)
    (under : List (Node β) → Except Failure (List (NodeEntry β))) :
    List (Node β) → Except Failure (List (NodeEntry β))
  | [] => .ok []
  | n :: rest => do
    let subnodes ← under (f.subnodesOf n)
    let edges ← edgeEntries n n.edges.values
    let entry := .mk n.id n.lid n.type n.hostname n.description n.mainPartition
      n.marks.members subnodes edges
    return entry :: (← f.nodeEntriesOver under rest)

/-- Nodes as the document has them, with subnodes up to a depth. -/
def nodeEntries (f : Fabric β) : (depth : Nat) → List (Node β) → Except Failure (List (NodeEntry β))
  | 0, [] => .ok []
  | 0, _ :: _ => .error .nestedWithoutEnd
  | depth + 1, ns => f.nodeEntriesOver (f.nodeEntries depth) ns

/-- A link as the document has it. -/
def linkEntry (l : Link β) : LinkEntry β :=
  { id := l.id, srcPort := l.srcPort, destPort := l.destPort, parent := l.parent, dest := l.dest
    width := l.width, speed := l.speed, gbits := l.gbits, description := l.description
    otherLink := l.otherLink, partitions := l.marks.members }

/-- The greatest depth of nodes within nodes. -/
def greatestDepth (f : Fabric β) : Nat := f.nodes.size + f.asideNodes.length + 1

/-- The fabric as a document. -/
def document (f : Fabric β) : Except Failure (Document β) := do
  return {
    subnet := f.subnet
    hwlocDir := f.hwlocDir
    partitions := f.partitions
    nodes := ← f.nodeEntries f.greatestDepth f.nodes.values
    links := (f.links.values.mergeSort fun a b => decide (a.id ≤ b.id)).map linkEntry
    paths := f.paths.list.map fun (source, dest, links) => ⟨source, dest, links⟩ }

end Fabric

end FabricPaths
