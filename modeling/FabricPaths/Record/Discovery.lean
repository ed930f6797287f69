import FabricPaths.NodeId
import FabricPaths.NodeType

/-!
# Discovery records

What a discovery dump tells of one port: both ends of its cable, or no more
than that the port exists.
-/

namespace FabricPaths

/-- A connected port, with both ends of its cable. -/
structure LinkRecord where
  /-- What the near node is. -/
  srcType : NodeType
  /-- The near node's local identifier. -/
  srcLid : Int
  /-- The near port. -/
  srcPort : Int
  /-- The near node's GUID. -/
  srcGuid : String
  /-- The link's width. -/
  width : String
  /-- The link's speed. -/
  speed : String
  /-- What the far node is. -/
  destType : NodeType
  /-- The far node's local identifier. -/
  destLid : Int
  /-- The far port. -/
  destPort : Int
  /-- The far node's GUID. -/
  destGuid : String
  /-- The description of both nodes. -/
  description : String := ""
  /-- The near node's part of the description. -/
  srcDesc : String := ""
  /-- The far node's part of the description. -/
  destDesc : String := ""
deriving DecidableEq, Inhabited

namespace LinkRecord

/-- The near node. -/
def srcId (r : LinkRecord) : NodeId := .ofGuid r.srcGuid

/-- The far node. -/
def destId (r : LinkRecord) : NodeId := .ofGuid r.destGuid

end LinkRecord

/-- A port of which no cable is known. -/
structure PortRecord where
  /-- What the node is. -/
  type : NodeType
  /-- The node's local identifier. -/
  lid : Int
  /-- The port. -/
  port : Int
  /-- The node's GUID. -/
  guid : String
deriving DecidableEq, Inhabited

namespace PortRecord

/-- The node that the port belongs to. -/
def id (r : PortRecord) : NodeId := .ofGuid r.guid

end PortRecord

/-- What a discovery line records. -/
inductive DiscoveryRecord
  | link (record : LinkRecord)
  | port (record : PortRecord)
deriving DecidableEq, Inhabited

end FabricPaths
