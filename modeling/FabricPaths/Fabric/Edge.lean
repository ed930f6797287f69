import FabricPaths.Bandwidth
import FabricPaths.Fabric.Link

/-!
# Edges

All links from one node to another make up an edge. An edge lists the ports of
its links as positions in the port list of its source. An edge that was put in
by hand may list positions below zero, which count from the end of the list.
-/

namespace FabricPaths

/-- The links from one node to another. -/
structure Edge (β : Type) where
  /-- The node that the links leave. -/
  source : NodeId
  /-- The node at which they end. -/
  dest : NodeId
  /-- The bandwidth of the links together. -/
  gbits : β
  /-- Positions in the port list of the source. -/
  linkPorts : List Int := []
  /-- The edge the other way, once it was looked for and found. -/
  reverse : Option (NodeId × NodeId) := none
  /-- The partitions whose traffic it carries. -/
  marks : Marks := ∅
deriving Inhabited

namespace Edge

variable {β : Type}

/-- The edge's two nodes. -/
def key (e : Edge β) : NodeId × NodeId := (e.source, e.dest)

/-- The number of links. -/
def width (e : Edge β) : Nat := e.linkPorts.length

variable [Bandwidth β]

/-- An edge without links. -/
def fresh (source dest : NodeId) : Edge β :=
  { source, dest, gbits := Bandwidth.none }

/-- Adds a link at a position, which is listed once only. -/
def attach (e : Edge β) (slot : Nat) (gbits : β) : Edge β :=
  { e with
    gbits := Bandwidth.plus e.gbits gbits
    linkPorts := if (slot : Int) ∈ e.linkPorts then e.linkPorts else e.linkPorts ++ [(slot : Int)] }

/-- Takes a link's bandwidth away. -/
def lower (e : Edge β) (gbits : β) : Edge β :=
  { e with gbits := Bandwidth.minus e.gbits gbits }

/-- Takes a position off the list. -/
def unlist (e : Edge β) (slot : Nat) : Edge β :=
  { e with linkPorts := e.linkPorts.erase (slot : Int) }

end Edge

end FabricPaths
