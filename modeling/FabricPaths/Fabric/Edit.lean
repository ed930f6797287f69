import FabricPaths.Action
import FabricPaths.Fabric.Basic

/-!
# Editing fabrics

Single changes to a fabric by hand. They may leave it in a state that no dump
leads to: an edge may list an empty slot, a path may name a link that is gone.
-/

namespace FabricPaths.Fabric

variable {β : Type}

/-- The keeping of a subnode after the node `id` was put aside. -/
def keepingAfter (id : NodeId) (position : Nat) (k : NodeId) (keeping : Keeping) : Keeping :=
  if k = id ∧ keeping = .indexed then .aside position else keeping

/-- A node after the node `id` was put aside. -/
def afterWithdrawal (id : NodeId) (position : Nat) (n : Node β) : Node β :=
  { n with subnodes := n.subnodes.mapValues (keepingAfter id position) }

/-- Takes a node out of the index. It stays the subnode of the nodes that it was
put under. -/
def withdrawNode (f : Fabric β) (n : Node β) : Fabric β :=
  let revise := afterWithdrawal n.id f.asideNodes.length
  { f with
    nodes := (f.nodes.erase n.id).mapValues fun _ => revise
    asideNodes := (f.asideNodes ++ [n]).map revise }

/-- Takes a node out of the index; tells whether it was there. -/
def dropNode (id : NodeId) : Action (Fabric β) Bool := do
  match (← Action.get).nodes.get? id with
  | none => return false
  | some n =>
    Action.modify fun f => f.withdrawNode n
    return true

/-- Takes a link out of the index; tells whether it was there. The link stays
plugged in. -/
def dropLink (id : LinkId) : Action (Fabric β) Bool := do
  match (← Action.get).links.get? id with
  | none => return false
  | some l =>
    Action.modify fun f =>
      { f with links := f.links.erase id, asideLinks := f.asideLinks.insert id l }
    return true

/-- Changes the node of an identifier. -/
def editNode (id : NodeId) (change : Node β → Node β) : Action (Fabric β) Unit := do
  let n ← Action.ofExcept ((← Action.get).node id)
  Action.modify fun f => { f with nodes := f.nodes.insert id (change n) }

/-- Removes an edge; tells whether it was there. -/
def dropEdge (source dest : NodeId) : Action (Fabric β) Bool := do
  let n ← Action.ofExcept ((← Action.get).node source)
  editNode source fun n => { n with edges := n.edges.erase dest }
  return n.edges.contains dest

/-- The slot of a port to be cleared; ports below one count from the end of the
list. -/
def slotToClear (n : Node β) (port : Int) : Except Failure Nat :=
  match n.slotAt? (port - 1) with
  | some slot => .ok slot
  | none => .error (.noSlotToClear (port - 1))

/-- Empties the slot of a port. -/
def clearPort (id : NodeId) (port : Int) : Action (Fabric β) Unit := do
  let n ← Action.ofExcept ((← Action.get).node id)
  let slot ← Action.ofExcept (slotToClear n port)
  editNode id fun n => { n with ports := n.ports.set slot none }

/-- Puts an edge with the given slots between two nodes. -/
def setEdge [Bandwidth β] (source dest : NodeId) (linkPorts : List Int) :
    Action (Fabric β) (Edge β) := do
  let e : Edge β := { Edge.fresh source dest with linkPorts }
  editNode source fun n => { n with edges := n.edges.insert dest e }
  return e

/-- Gives a node another host name. -/
def setHostname (id : NodeId) (hostname : String) : Action (Fabric β) Unit :=
  editNode id fun n => { n with hostname }

/-- Puts a node under another, out of the index if it is to move; returns the
nodes that are under the other one then. A node that moves under itself is gone,
with all that is under it. -/
def putUnder (parent child : NodeId) (move : Bool) : Action (Fabric β) (List NodeId) := do
  let c ← Action.ofExcept ((← Action.get).node child)
  editNode parent fun n => { n with subnodes := n.subnodes.insert child .indexed }
  if move then
    Action.modify fun f => f.withdrawNode ((f.nodes.get? child).getD c)
  return (← Action.ofExcept ((← Action.get).node parent)).subnodes.keys

end FabricPaths.Fabric
