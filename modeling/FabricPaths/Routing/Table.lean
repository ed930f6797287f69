import FabricPaths.OrderedMap
import FabricPaths.Record.Route

/-!
# Forwarding tables

The table of a switch sends the traffic for each destination out of one port.
-/

namespace FabricPaths

/-- Where the traffic for one destination goes. -/
structure RouteEntry where
  /-- The destination. -/
  dest : NodeId
  /-- The port through which traffic leaves. -/
  port : Int
  /-- The destination's local identifier. -/
  destLid : Int := 0
  /-- What the destination is. -/
  kind : DestinationKind := .channelAdapter
deriving DecidableEq, Inhabited

/-- The forwarding table of a switch. -/
structure RoutingTable where
  /-- The switch. -/
  switch : NodeId
  /-- The entries by destination. -/
  entries : OrderedMap NodeId RouteEntry := ∅
deriving Inhabited

/-- The forwarding tables of a subnet by switch. -/
abbrev RoutingTables := OrderedMap NodeId RoutingTable

namespace RoutingTable

/-- The port for a destination, if the table has an entry for it. -/
def egressPort? (t : RoutingTable) (dest : NodeId) : Option Int :=
  (t.entries.get? dest).map (·.port)

/-- The table with an entry put in. -/
def setEntry (t : RoutingTable) (e : RouteEntry) : RoutingTable :=
  { t with entries := t.entries.insert e.dest e }

end RoutingTable

end FabricPaths
