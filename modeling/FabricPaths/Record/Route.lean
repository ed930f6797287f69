import FabricPaths.NodeId
import FabricPaths.Text.Scan

/-!
# Route lines

A route dump opens with a header line that names its switch. Each further line
of interest sends the traffic for one destination out of one port.
-/

namespace FabricPaths

open Text

/-- What a destination is. -/
inductive DestinationKind
  | channelAdapter
  | switch
deriving DecidableEq, Inhabited

namespace DestinationKind

/-- The kind as dumps and reports spell it. -/
def name : DestinationKind → String
  | channelAdapter => "Channel Adapter"
  | switch => "Switch"

/-- Reads a kind. -/
def scan (cs : List Char) : Option (DestinationKind × List Char) :=
  match Scan.word channelAdapter.name.toList cs with
  | some r => some (channelAdapter, r)
  | none => (Scan.word switch.name.toList cs).map fun r => (switch, r)

end DestinationKind

/-- The switch that a route dump is about. -/
structure RouteHeader where
  /-- The switch's GUID. -/
  guid : String
deriving DecidableEq, Inhabited

namespace RouteHeader

/-- The switch. -/
def switchId (h : RouteHeader) : NodeId := .ofGuid h.guid

end RouteHeader

/-- The way to one destination. -/
structure RouteRecord where
  /-- The destination's local identifier. -/
  destLid : Int
  /-- The port through which traffic leaves. -/
  port : Int
  /-- What the destination is. -/
  kind : DestinationKind
  /-- The destination's GUID. -/
  destGuid : String
deriving DecidableEq, Inhabited

namespace RouteRecord

/-- The destination. -/
def destId (r : RouteRecord) : NodeId := .ofGuid r.destGuid

end RouteRecord

namespace Route

/-- The word that opens a header line. -/
def headerWord : List Char := "Unicast lids".toList

/-- Reads a GUID that is introduced as such and followed by a colon somewhere
on the line. -/
def scanHeaderGuid (cs : List Char) : Option (List Char) := do
  let r ← Scan.word ['g', 'u', 'i', 'd'] cs
  let r ← Scan.blanks r
  let r ← Scan.word ['0', 'x'] r
  let (guid, r) ← Scan.exactly isLowerHex 16 r
  if (Scan.lineRest r).contains ':' then some guid else none

/-- The last GUID introduced on the line. -/
def lastHeaderGuid : List Char → Option (List Char)
  | [] => none
  | c :: cs =>
    match (if c == '\n' then none else lastHeaderGuid cs) with
    | some guid => some guid
    | none => scanHeaderGuid (c :: cs)

/-- Reads a header line. -/
def parseHeader (raw : String) : Option RouteHeader := do
  let r ← Scan.word headerWord raw.toList
  let guid ← lastHeaderGuid r
  return ⟨String.ofList guid⟩

/-- The fields of an entry line, as spelt. -/
structure EntryFields where
  /-- The digits of the destination's local identifier. -/
  lid : List Char
  /-- The digits of the port. -/
  port : List Char
  /-- What the destination is. -/
  kind : DestinationKind
  /-- The sixteen digits of the destination's GUID. -/
  guid : List Char
deriving DecidableEq

/-- Takes an entry line apart. -/
def scanEntry (cs : List Char) : Option EntryFields := do
  let r ← Scan.word ['0', 'x'] cs
  let (lid, r) ← Scan.run isLowerHex r
  let r ← Scan.blanks r
  let (port, r) ← Scan.run isDigit r
  let r ← Scan.blanks r
  let r ← Scan.word [':'] r
  let r ← Scan.blanks r
  let r ← Scan.word ['('] r
  let (kind, r) ← DestinationKind.scan r
  let r ← Scan.blanks r
  let r ← Scan.word "portguid 0x".toList r
  let (guid, r) ← Scan.exactly isLowerHex 16 r
  let _ ← Scan.word [':'] r
  return ⟨lid, port, kind, guid⟩

/-- Reads an entry line. -/
def parseEntry (raw : String) : Except Failure (Option RouteRecord) :=
  match scanEntry raw.toList with
  | none => .ok none
  | some f => do
    let port ← readNumeral f.port
    return some
      { destLid := (hexDigitsValue f.lid : Nat), port, kind := f.kind
        destGuid := String.ofList f.guid }

end Route

end FabricPaths
