import FabricPaths.NodeId
import FabricPaths.Fabric.Marks

/-!
# Links

A link is one cable in one direction: it leaves a port of its parent node and
ends at a port of another node. The way back is a link of its own.
-/

namespace FabricPaths

/-- Links are numbered in the order of their creation. -/
abbrev LinkId := Nat

/-- One cable in one direction. -/
structure Link (β : Type) where
  /-- The link's number. -/
  id : LinkId
  /-- The port that it leaves through, counted from one. -/
  srcPort : Int
  /-- The port at which it ends. -/
  destPort : Int
  /-- The node that it leaves. -/
  parent : NodeId
  /-- The node at which it ends. -/
  dest : NodeId
  /-- The width, such as `4x`. -/
  width : String
  /-- The speed grade's code. -/
  speed : String
  /-- The bandwidth. -/
  gbits : β
  /-- The description of both nodes. -/
  description : String
  /-- The link that comes back through the same cable, if it is known. -/
  otherLink : Option LinkId := none
  /-- The partitions whose traffic it carries. -/
  marks : Marks := ∅
deriving Inhabited

namespace Link

/-- The edge that the link belongs to: its two nodes. -/
def edgeKey {β : Type} (l : Link β) : NodeId × NodeId := (l.parent, l.dest)

/-- Whether the second link comes back through the cable of the first. -/
def IsReturn {β : Type} (l o : Link β) : Prop :=
  o.dest = l.parent ∧ o.destPort = l.srcPort

instance {β : Type} (l o : Link β) : Decidable (l.IsReturn o) :=
  inferInstanceAs (Decidable (_ ∧ _))

end Link

end FabricPaths
