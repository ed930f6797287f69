import FabricPaths.Export.Written
import FabricPaths.Extract.Config
import FabricPaths.Extract.Narration
import FabricPaths.Fabric.Resolve
import FabricPaths.Partition.Spread
import FabricPaths.Routing.Loader

/-!
# Extracting one subnet

The dumps of a subnet become its fabric: nodes and links from the discovery
dump, forwarding tables from the route dumps, paths from walks between all
hosts, and marks for the partitions. The fabric is written to the output
directory, if there is one.
-/

namespace FabricPaths.Extract

open Storage (PathText.join PathText.child)

variable [Memory]

/-- Reads a discovery dump into a fabric whose links are paired. -/
def readDiscovery (subnet path : String) : Action World (FileReport × Builder Float) := do
  World.say .info Log.ingest s!"Reading discovery file {path}"
  let lines ← World.readLines path
  let (report, builder) ← World.apart (.start subnet) (Builder.ingestLines path lines)
  let (_, builder) ← World.apart builder Builder.finish
  return (report, builder)

/-- The directory with a subnet's route dumps, if it exists. -/
def routeDirectory? (inputDir subnet : String) : Action World (Option String) := do
  let path := PathText.child inputDir (FileName.routeDirectory subnet)
  let w ← Action.get
  match w.storage.find w.workingDir path with
  | .ok (_, .directory) => return some path
  | .ok _ => return none
  | .error (.storage .noEntry _) => return none
  | .error e => Action.fail e

/-- Reads route dumps one after another. -/
def readRouteFiles (dir : String) (loader : Loader) : List String → Action World Loader
  | [] => pure loader
  | name :: rest => do
    let path := PathText.child dir name
    let lines ← World.readLines path
    let (_, loader) ← World.apart loader (Loader.ingestLines path lines)
    readRouteFiles dir loader rest

/-- Reads the route dumps of a subnet, if it has a directory for them. -/
def readRoutes (inputDir subnet : String) : Action World (Option Loader) := do
  match ← routeDirectory? inputDir subnet with
  | none =>
    World.say .info Log.routes s!"No route directory found for subnet {subnet}"
    return none
  | some dir =>
    let names ← Action.ofExcept (Loader.readingOrder (← World.list dir))
    let loader ← readRouteFiles dir {} names
    World.say .info Log.routes
      s!"Subnet {subnet}: {names.length} route files, {loader.tables.size} switch tables"
    return some loader

/-- Writes the document of a fabric and returns its path. -/
def writeFabric (f : Fabric Float) (outputDir : String) : Action World String := do
  let path := PathText.child outputDir (FileName.fabric f.subnet)
  let _ ← World.create path
  let document ← Action.ofExcept f.document
  World.write path document.text
  World.say .info Log.writing s!"Wrote {path}"
  return path

/-- Who is told of the walks of a survey. -/
def walkObserver (c : Config) (f : Fabric Float) : Option (Attempt → Action World Unit) :=
  c.observer.map fun o a => do
    World.notify (some o) (← Action.ofExcept (Event.walked f a))

/-- The host names of nodes. -/
def hostnames (f : Fabric Float) : List NodeId → Except Failure (List String)
  | [] => .ok []
  | id :: rest => do
    let n ← f.node id
    return n.hostname :: (← hostnames f rest)

/-- Tells of the partitions one after another, counting from `index`. -/
def tellPartitions (c : Config) (f : Fabric Float) (index : Nat) :
    List Partition → Action World Unit
  | [] => pure ()
  | p :: rest => do
    c.showProgress ("\t'" ++ p.name ++ "'")
    let members ← Action.ofExcept (hostnames f p.members)
    c.notify (.partitionFound f.subnet p.name index members)
    tellPartitions c f (index + 1) rest

/-- Adds what the route dumps of a subnet tell. -/
def addRoutes (c : Config) (f : Fabric Float) (report : SubnetReport) :
    Action World (Fabric Float × SubnetReport) := do
  match ← readRoutes c.inputDir f.subnet with
  | none =>
    c.showProgress s!"No route directory found for subnet {f.subnet}"
    return (f, report)
  | some loader =>
    return ({ f with routes := loader.tables },
      { report with
        routeDirFound := true
        tables := (loader.tables.size : Nat)
        files := report.files ++ loader.files })

/-- Adds the paths between the hosts. -/
def addPaths (c : Config) (f : Fabric Float) (report : SubnetReport) :
    Action World (Fabric Float × SubnetReport) := do
  let s ← World.logging (f.survey (walkObserver c f))
  return ({ f with paths := s.paths }, { report with counts := s.counts })

/-- Adds the partitions and what carries their traffic. -/
def addPartitions (c : Config) (f : Fabric Float) (report : SubnetReport) :
    Action World (Fabric Float × SubnetReport) := do
  let (partitions, f) ← World.apart f Fabric.setPartitions
  c.showProgress s!"{partitions.length} partitions found"
  tellPartitions c f 0 partitions
  return (f, { report with partitions := partitions.map (·.name) })

/-- Pairs the edges with the edges the other way. -/
def addReverseEdges (f : Fabric Float) : Action World (Fabric Float) := do
  let missing := f.unpairedEdges
  if missing ≠ 0 then
    World.say .debug Log.extract s!"Subnet {f.subnet}: {missing} edges without reverse"
  return f.pairEdges

/-- Writes the fabric, if there is a directory for it. -/
def export? (c : Config) (f : Fabric Float) (report : SubnetReport) :
    Action World SubnetReport := do
  match c.outputDir.chosen? with
  | none => return report
  | some dir => return { report with outputFile := some (← writeFabric f dir) }

/-- Adds the figures of the finished fabric. -/
def withFigures (f : Fabric Float) (report : SubnetReport) : SubnetReport :=
  { report with
    nodes := (f.nodes.size : Nat)
    hosts := (f.hosts.length : Nat)
    switches := (f.switches.length : Nat)
    links := (f.links.size : Nat) }

/-- Builds the fabric of a subnet from its dumps. -/
def buildSubnet (c : Config) (hwlocDir : Option String) (subnet file : String) :
    Action World (Fabric Float × SubnetReport) := do
  let started ← World.now
  c.showProgress s!"Read subnet: {subnet}"
  c.notify (.subnetStarts subnet file)
  let (fileReport, builder) ← readDiscovery subnet (PathText.join c.inputDir file)
  let f := { builder.fabric with hwlocDir }
  let report : SubnetReport :=
    { subnet, started := some started, files := [fileReport]
      unresolved := (builder.unresolved : Nat) }
  let (f, report) ← addRoutes c f report
  let (f, report) ← addPaths c f report
  let (f, report) ← addPartitions c f report
  return (← addReverseEdges f, report)

/-- Completes the report on a finished fabric and tells of it. -/
def completeReport (c : Config) (f : Fabric Float) (report : SubnetReport) :
    Action World SubnetReport := do
  let completed ← World.now
  let report := { withFigures f report with completed := some completed }
  c.notify (.subnetDone report)
  return report

/-- Writes a finished fabric and completes the report on it. -/
def finishSubnet (c : Config) (f : Fabric Float) (report : SubnetReport) :
    Action World SubnetReport := do
  completeReport c f (← export? c f report)

/-- Extracts one subnet from its discovery dump and its route dumps. -/
def processSubnet (c : Config) (hwlocDir : Option String) (subnet file : String) :
    Action World (Fabric Float × SubnetReport) := do
  let (f, report) ← buildSubnet c hwlocDir subnet file
  return (f, ← finishSubnet c f report)

end FabricPaths.Extract
