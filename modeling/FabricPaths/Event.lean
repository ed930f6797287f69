import FabricPaths.Path.Trace

/-!
# Events

What a run tells about its progress: where it begins a subnet, each walk
between two hosts, each partition, where it is done with a subnet, and where it
is done altogether. Each event carries lines for a log at three levels of
detail, with markup for colours.
-/

namespace FabricPaths

/-- What an event tells of. -/
inductive EventKind
  | subnetStart
  | partition
  | path
  | subnetDone
  | runDone
  /-- Something that nobody waits for. -/
  | other (name : String)
deriving DecidableEq, Inhabited

namespace EventKind

/-- The kind's name. -/
def name : EventKind → String
  | subnetStart => "subnet_start"
  | partition => "partition"
  | path => "path"
  | subnetDone => "subnet_done"
  | runDone => "run_done"
  | other name => name

/-- The kind of a name. -/
def ofName : String → EventKind
  | "subnet_start" => subnetStart
  | "partition" => partition
  | "path" => path
  | "subnet_done" => subnetDone
  | "run_done" => runDone
  | name => other name

end EventKind

/-- A figure that an event tells. -/
inductive Figure
  /-- A number of things that were counted. So many things that their number would be too long to
  be written are nowhere. -/
  | counted (n : Int)
  /-- Any number that was put there. -/
  | given (n : Int)
deriving Inhabited

namespace Figure

/-- The number. -/
def value : Figure → Int
  | counted n => n
  | given n => n

/-- The number in digits. -/
def text : Figure → Except Failure String
  | counted n => .ok (toString n)
  | given n => Text.writeNumeral n

end Figure

/-- One event. A field that does not concern its kind has its default. -/
structure Event where
  /-- What the event tells of. -/
  kind : EventKind
  /-- The subnet. -/
  subnet : String := ""
  /-- The name of the partition. -/
  partition : String := ""
  /-- The number of the partition. -/
  partitionIndex : Figure := .given (-1)
  /-- The host names of the partition's members. -/
  members : List String := []
  /-- The host name where a walk starts. -/
  source : String := ""
  /-- The host name where a walk should end. -/
  dest : String := ""
  /-- How a walk ended. -/
  status : Option PathStatus := none
  /-- The ports that a walk left through, with their nodes. -/
  hops : List String := []
  /-- Why a walk stopped short. -/
  detail : String := ""
  /-- The lines for a short log. -/
  logBasic : List String := []
  /-- The lines for a longer log. -/
  logVerbose : List String := []
  /-- The lines for a full log. -/
  logDebug : List String := []
  /-- The number of nodes. -/
  nodes : Figure := .given 0
  /-- The number of links. -/
  links : Figure := .given 0
  /-- The number of complete walks. -/
  pathsComplete : Figure := .given 0
  /-- The number of walks that stopped short. -/
  pathsMissing : Figure := .given 0
  /-- The number of subnets. -/
  subnets : Figure := .given 0
  /-- The duration of the run in seconds. -/
  duration : Float := 0
  /-- Whether the run went well. -/
  ok : Bool := true
deriving Inhabited

end FabricPaths
