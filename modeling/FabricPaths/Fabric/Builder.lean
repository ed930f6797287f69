import FabricPaths.Action
import FabricPaths.Fabric.Plug
import FabricPaths.Report.File
import FabricPaths.Text.DecimalDigit

/-!
# Building a fabric

A builder takes discovery records one after another. A node is created where it
is first mentioned and never changed by later mentions. A link that is reported
again replaces the former one. A record that is refused is reported and passed
over.
-/

namespace FabricPaths

/-- The number of new slots that cannot be counted. -/
def countableSlots : Nat := Nat.pow 2 63

/-- The memory of a machine. -/
class Memory where
  /-- The number of new slots for which there is no room. -/
  slots : Nat
  /-- There is room for one. -/
  one_lt : 1 < slots
  /-- There is no room for more than can be counted. -/
  le_countable : slots ≤ countableSlots

/-- A machine of usual size. -/
instance Memory.usual : Memory where
  slots := Nat.pow 2 32
  one_lt := by decide
  le_countable := by decide

/-- A fabric in the making. -/
structure Builder (β : Type) where
  /-- What was built so far. -/
  fabric : Fabric β
  /-- The number of the next link. -/
  nextLink : LinkId := 0
  /-- Hosts that had to be given a name. -/
  namelessHosts : Nat := 0
  /-- The reports on the files read so far. -/
  files : List FileReport := []
  /-- Links without a way back, as last counted. -/
  unresolved : Nat := 0
deriving Inhabited

namespace Builder

variable {β : Type}

/-- A builder that has read nothing. -/
def start (subnet : String) : Builder β := { fabric := { subnet } }

/-- Whether a node gets a name of its own making. -/
def isNameless (type : NodeType) (description : String) : Bool :=
  type == .host && (Hostname.ofDescription description).isEmpty

/-- The node for a GUID, created if it is not known. The first description
counts. -/
def ensureNode (type : NodeType) (lid : Int) (guid description : String) :
    Action (Builder β) (Node β) := do
  let id := NodeId.ofGuid guid
  let b ← Action.get
  match b.fabric.nodes.get? id with
  | some n => return n
  | none =>
    let nameless := isNameless type description
    let hostname := if nameless then Hostname.anonymous b.namelessHosts
      else Hostname.ofDescription description
    if nameless then
      Action.say .debug Log.ingest
        s!"[{id.text}] no hostname in {Text.quoted description}, using {hostname}"
    let n : Node β := { id, lid, type, description, hostname }
    Action.modify fun b =>
      { b with
        fabric := { b.fabric with nodes := b.fabric.nodes.insert id n }
        namelessHosts := b.namelessHosts + (if nameless then 1 else 0) }
    return n

/-- Refuses a port that asks for too many slots. -/
def checkRoom [Memory] (missing : Nat) : Except Failure Unit :=
  if countableSlots ≤ missing then .error .tooManySlots
  else if Memory.slots ≤ missing then .error .outOfMemory
  else .ok ()

/-- Why a port that is not counted from one is refused, unless its number is too long to be
written. -/
def refusal (port : Int) (node : NodeId) : Failure :=
  if Text.IsWritable port then .portNotPositive port node else .numberTooLong

/-- The number of the next link, which is used up. -/
def takeLinkId : Action (Builder β) LinkId := fun b =>
  ⟨.ok b.nextLink, { b with nextLink := b.nextLink + 1 }, []⟩

variable [Memory] [Bandwidth β]

/-- The link that a record reports. -/
def linkOf (r : LinkRecord) (id : LinkId) (gbits : β) : Link β :=
  { id, srcPort := r.srcPort, destPort := r.destPort, parent := r.srcId, dest := r.destId
    width := r.width, speed := r.speed, gbits, description := r.description }

/-- Adds the link of a record. -/
def addLink (r : LinkRecord) : Action (Builder β) (Link β) := do
  if r.srcPort < 1 then Action.fail (refusal r.srcPort r.srcId)
  let _ ← ensureNode r.srcType r.srcLid r.srcGuid r.srcDesc
  let _ ← ensureNode r.destType r.destLid r.destGuid r.destDesc
  let gbits ← Action.ofExcept (Bandwidth.ofLink r.speed r.width)
  let link := linkOf r (← takeLinkId) gbits
  let b ← Action.get
  let src ← Action.ofExcept (b.fabric.node link.parent)
  let slot := Fabric.slotOf link
  Action.ofExcept (checkRoom (src.missingSlots slot))
  if let some old := b.fabric.plugged? src slot then
    Action.say .debug Log.ingest
      s!"[{src.id.text}] port {r.srcPort} reported again, replacing link {old.id}"
  Action.modify fun b => { b with fabric := b.fabric.plug src link }
  return link

/-- Takes a record in. A port without a cable adds nothing. -/
def ingest (r : DiscoveryRecord) : Action (Builder β) (Option (Link β)) :=
  match r with
  | .link r => do return some (← addLink r)
  | .port r => do
    let port ← Action.ofExcept (Text.writeNumeral r.port)
    Action.say .debug Log.ingest s!"[{r.id.text}] port {port} has no peer"
    return none

/-- The reader of discovery lines as reports name it. -/
def reader : String := LineFormat.discovery.readerName

/-- Reports a line that became no record. -/
def passOver (report : FileReport) (l : SourceLine) (skipped : LineReport)
    (message : Option String) : Action (Builder β) FileReport := do
  if let some text := message then
    Action.say .error Log.ingest text
  Action.say .warning Log.ingest
    s!"[{l.source}:{l.lineno}] line not recognized: {Text.trimRightString l.raw}"
  return report.skip skipped

/-- Takes in the record of a line, which is passed over if the record is
refused. -/
def takeIn (report : FileReport) (l : SourceLine) (r : DiscoveryRecord) :
    Action (Builder β) FileReport := do
  match ← Action.attempt (ingest r) with
  | .ok _ => return report.countRecord
  | .error e =>
    if e.spoilsLine then
      Action.say .warning Log.ingest s!"[{l.source}:{l.lineno}] {e.message}"
      return report.skip (l.report .noMatch reader e.message)
    else Action.fail e

/-- Takes in one line. -/
def ingestLine (report : FileReport) (l : SourceLine) : Action (Builder β) FileReport :=
  let report := report.countLine
  if Discovery.isIgnorable l.raw then
    pure (report.skip (l.report .ignored reader "DR, comment or blank line"))
  else
    match l.classify reader (Discovery.parseLine l.raw) with
    | .skipped skipped message => passOver report l skipped message
    | .record r => takeIn report l r

/-- Takes in lines one after another. -/
def ingestEach (report : FileReport) : List SourceLine → Action (Builder β) FileReport
  | [] => pure report
  | l :: rest => do ingestEach (← ingestLine report l) rest

/-- Takes in the lines of a source and files the report on it. -/
def ingestLines (source : String) (lines : List String) : Action (Builder β) FileReport := do
  let report ← ingestEach { path := source, kind := .discovery } (SourceLine.number source 1 lines)
  Action.modify fun b => { b with files := b.files ++ [report] }
  return report

end Builder

end FabricPaths
