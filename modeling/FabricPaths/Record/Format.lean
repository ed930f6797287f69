import FabricPaths.Record.Discovery.Reader
import FabricPaths.Record.Route

/-!
# Line formats

The formats in which dump lines are read, under the names that reports give
them.
-/

namespace FabricPaths

/-- Anything a dump line records. -/
inductive Record
  | link (record : LinkRecord)
  | port (record : PortRecord)
  | header (record : RouteHeader)
  | entry (record : RouteRecord)
deriving DecidableEq, Inhabited

namespace Record

/-- A record of a discovery dump. -/
def ofDiscovery : DiscoveryRecord → Record
  | .link r => .link r
  | .port r => .port r

end Record

/-- The formats of dump lines. -/
inductive LineFormat
  | discovery
  | routeHeader
  | routeEntry
deriving DecidableEq, Inhabited

namespace LineFormat

/-- The format's name. -/
def name : LineFormat → String
  | discovery => "discovery"
  | routeHeader => "route_header"
  | routeEntry => "route_entry"

/-- The format of a name. -/
def ofName? (s : String) : Option LineFormat :=
  [discovery, routeHeader, routeEntry].find? fun f => f.name == s

/-- The reader of a format as reports name it. -/
def readerName (f : LineFormat) : String := s!"regex ({f.name})"

/-- The reader as reports name it, for a name that may belong to no format. -/
def readerNameOf (s : String) : String :=
  match ofName? s with
  | some f => f.readerName
  | none => "none"

/-- Reads a line. -/
def parse (f : LineFormat) (raw : String) : Except Failure (Option Record) :=
  match f with
  | discovery => do return (← Discovery.parseLine raw).map .ofDiscovery
  | routeHeader => .ok ((Route.parseHeader raw).map .header)
  | routeEntry => do return (← Route.parseEntry raw).map .entry

end LineFormat

end FabricPaths
