/-!
# Log entries

What the parts of the program report while they work. Each entry has a level,
the name of the channel it was written to and a text.
-/

namespace FabricPaths.Log

/-- The weight of an entry. -/
inductive Level
  | debug
  | info
  | warning
  | error
  | critical
deriving DecidableEq, Inhabited

namespace Level

/-- All levels, lightest first. -/
def all : List Level := [debug, info, warning, error, critical]

/-- The number by which levels are compared. -/
def number : Level → Nat
  | debug => 10
  | info => 20
  | warning => 30
  | error => 40
  | critical => 50

/-- The level's name in a log line. -/
def name : Level → String
  | debug => "DEBUG"
  | info => "INFO"
  | warning => "WARNING"
  | error => "ERROR"
  | critical => "CRITICAL"

/-- The level of a name. -/
def ofName? (s : String) : Option Level :=
  all.find? fun l => l.name == s

end Level

/-- One message. -/
structure Entry where
  /-- The weight of the message. -/
  level : Level
  /-- The channel that it was written to. -/
  channel : String
  /-- The message. -/
  text : String
deriving DecidableEq, Inhabited

/-- The channel of the whole program. -/
def program : String := "fabtrace"

/-- The channel of building a fabric. -/
def ingest : String := "fabtrace.ingest"

/-- The channel of reading forwarding tables. -/
def routes : String := "fabtrace.routes"

/-- The channel of following paths. -/
def walker : String := "fabtrace.walker"

/-- The channel of finding partitions. -/
def partitions : String := "fabtrace.partitions"

/-- The channel of writing fabrics. -/
def writing : String := "fabtrace.export"

/-- The channel of whole runs. -/
def extract : String := "fabtrace.extract"

end FabricPaths.Log
