import FabricPaths.Fabric.Basic

/-!
# Plugging links

A link is plugged into the slot of its source port. The slot's former link, if
any, leaves the fabric first. Each occupied slot is listed on the edge to the
node at which its link ends; an edge that lists no slot is dropped.
-/

namespace FabricPaths

namespace Node

variable {β : Type}

/-- The number of slots that are missing for a position. -/
def missingSlots (n : Node β) (slot : Nat) : Nat := slot + 1 - n.ports.length

/-- Puts a link into a slot, with empty slots before it where there are none. -/
def setSlot (n : Node β) (slot : Nat) (link : LinkId) : Node β :=
  { n with ports := (n.ports ++ List.replicate (n.missingSlots slot) none).set slot (some link) }

variable [Bandwidth β]

/-- Lists a slot on the edge to a node. -/
def attach (n : Node β) (dest : NodeId) (slot : Nat) (gbits : β) : Node β :=
  let edge := (n.edges.get? dest).getD (.fresh n.id dest)
  { n with edges := n.edges.insert dest (edge.attach slot gbits) }

/-- Takes the link of a slot off its edge. The edge keeps the slot on its list
when the slot's next link ends at the same node; otherwise an edge without
slots goes. -/
def detach (n : Node β) (slot : Nat) (old : Link β) (sameDest : Bool) : Node β :=
  match n.edges.get? old.dest with
  | none => n
  | some e =>
    let lowered := e.lower old.gbits
    if sameDest then { n with edges := n.edges.insert old.dest lowered }
    else
      let rest := lowered.unlist slot
      { n with
        edges := if rest.linkPorts.isEmpty then n.edges.erase old.dest
          else n.edges.insert old.dest rest }

end Node

namespace Fabric

variable {β : Type}

/-- The slot of a link in its parent's port list. -/
def slotOf (l : Link β) : Nat := (l.srcPort - 1).toNat

/-- The link in a slot of a node. -/
def plugged? (f : Fabric β) (n : Node β) (slot : Nat) : Option (Link β) :=
  n.ports[slot]?.join.bind f.anyLink?

variable [Bandwidth β]

/-- Plugs a link into its slot in place of the former link. -/
def plug (f : Fabric β) (n : Node β) (l : Link β) : Fabric β :=
  let slot := slotOf l
  let (n, links, asideLinks) := match f.plugged? n slot with
    | none => (n, f.links, f.asideLinks)
    | some old =>
      (n.detach slot old (decide (old.dest = l.dest)), f.links.erase old.id,
        f.asideLinks.erase old.id)
  { f with
    nodes := f.nodes.insert l.parent ((n.setSlot slot l.id).attach l.dest slot l.gbits)
    links := links.insert l.id l
    asideLinks }

end Fabric

end FabricPaths
