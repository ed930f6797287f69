import FabricPaths.Fabric.Edge
import FabricPaths.Hostname
import FabricPaths.OrderedMap
import FabricPaths.NodeType

/-!
# Nodes

A node owns the edges that leave it and a list of port slots, of which slot `i`
belongs to port `i + 1`. A slot that no link was reported for is empty.
-/

namespace FabricPaths

/-- Where a subnode is kept. -/
inductive Keeping
  /-- In the fabric's index. -/
  | indexed
  /-- Among the nodes that left the index, at a position. -/
  | aside (position : Nat)
deriving DecidableEq, Inhabited

/-- The main partition of a node that belongs to none. -/
def noPartition : Int := -1

/-- A channel adapter or a switch. -/
structure Node (β : Type) where
  /-- The node's identifier. -/
  id : NodeId
  /-- The node's local identifier. -/
  lid : Int
  /-- What the node is. -/
  type : NodeType
  /-- The description under which the node was first seen. -/
  description : String
  /-- The host name. -/
  hostname : String
  /-- Nodes that were put under this one. -/
  subnodes : OrderedMap NodeId Keeping := ∅
  /-- The partition that a host belongs to. -/
  mainPartition : Int := noPartition
  /-- The partitions whose traffic the node sends. -/
  marks : Marks := ∅
  /-- The edges that leave the node, by destination. -/
  edges : OrderedMap NodeId (Edge β) := ∅
  /-- The links that leave the node, by slot. -/
  ports : List (Option LinkId) := []
deriving Inhabited

namespace Node

variable {β : Type}

/-- Whether the node is a host. -/
def isHost (n : Node β) : Bool := n.type == .host

/-- What to call the node: its host name or else its identifier. -/
def display (n : Node β) : String := if n.hostname.isEmpty then n.id.text else n.hostname

/-- The slot of a port counted from one. -/
def slotOf? (n : Node β) (port : Int) : Option Nat :=
  if 1 ≤ port ∧ port ≤ n.ports.length then some (port - 1).toNat else none

/-- The link that leaves through a port, if one is known. -/
def linkAt? (n : Node β) (port : Int) : Option LinkId :=
  (n.slotOf? port).bind fun i => n.ports[i]?.join

/-- The links that leave the node, in the order of its slots. -/
def links (n : Node β) : List LinkId := n.ports.filterMap fun slot => slot

/-- The slot at a position of the port list. A position below zero counts from
the end of the list. -/
def slotAt? (n : Node β) : (position : Int) → Option Nat
  | .ofNat i => if i < n.ports.length then some i else none
  | .negSucc i => if i < n.ports.length then some (n.ports.length - 1 - i) else none

/-- A slot at a position is a slot of the port list. -/
theorem lt_of_slotAt? {n : Node β} {position : Int} {slot : Nat}
    (h : n.slotAt? position = some slot) : slot < n.ports.length := by
  cases position with
  | ofNat i =>
    simp only [slotAt?, Option.ite_none_right_eq_some, Option.some.injEq] at h
    omega
  | negSucc i =>
    simp only [slotAt?, Option.ite_none_right_eq_some, Option.some.injEq] at h
    omega

/-- The link in the slot at a position, which may be empty but has to exist. -/
def listedLink (n : Node β) (position : Int) : Except Failure (Option LinkId) :=
  match n.slotAt? position with
  | some slot => .ok n.ports[slot]?.join
  | none => .error (.slotPastEnd position)

/-- The first link of the first edge that lists one. The slot that the edge
names may be empty. -/
def firstLink? (n : Node β) : Except Failure (Option LinkId) :=
  match n.edges.values.findSome? fun e => e.linkPorts.head? with
  | none => .ok none
  | some position => n.listedLink position

/-- The occupied ports, counted from one, with their links. -/
def occupied (n : Node β) : List (Nat × LinkId) :=
  n.ports.zipIdx.filterMap fun (slot, i) => slot.map (i + 1, ·)

end Node

end FabricPaths
