import FabricPaths.Extract.Subnet

/-!
# Extracting an input directory

A run takes the subnets of an input directory one after another, in the order
of their identifiers. Nothing of one subnet is kept for the next but the report
on it. A directory that cannot be opened stops the run before anything is read.
-/

namespace FabricPaths.Extract

variable [Memory]

/-- Refuses a directory that cannot be opened. -/
def checkDirectory (role path : String) : Action World Unit := do
  let w ← Action.get
  match w.storage.directory w.workingDir path with
  | .ok _ => return
  | .error (.storage cause _) => Action.fail (.directory role path cause.reason)
  | .error e => Action.fail e

/-- Checks the directories of the settings; returns the directory with hardware
descriptions. -/
def checkDirectories (c : Config) : Action World (Option String) := do
  checkDirectory "input" c.inputDir
  if let some dir := c.outputDir.chosen? then
    checkDirectory "output" dir
  match c.hwlocDir.chosen? with
  | none => return none
  | some dir =>
    let resolved := resolveHwlocDir dir c.outputDir
    checkDirectory "hwloc" resolved
    return some resolved

/-- The order of subnets: by identifier, then by file name. -/
def subnetPrecedes (a b : String × String) : Bool :=
  a.1 < b.1 || (a.1 == b.1 && !(b.2 < a.2))

/-- The subnets among the names in a directory, with their discovery dumps. -/
def subnetsOf (names : List String) : List (String × String) :=
  (names.filterMap fun name => (FileName.discoverySubnet? name).map (·, name)).mergeSort
    subnetPrecedes

/-- The subnets of an input directory, with their discovery dumps. -/
def findSubnets (inputDir : String) : Action World (List (String × String)) := do
  return subnetsOf (← World.list inputDir)

/-- Changes the report on the run. -/
def modifyReport (change : RunReport → RunReport) : Action World Unit :=
  Action.modify fun w => { w with report := w.report.map change }

/-- Extracts subnets one after another. -/
def processEach (c : Config) (hwlocDir : Option String) :
    List (String × String) → Action World Unit
  | [] => pure ()
  | (subnet, file) :: rest => do
    let (_, report) ← processSubnet c hwlocDir subnet file
    modifyReport fun r => { r with subnets := r.subnets ++ [report] }
    processEach c hwlocDir rest

/-- The report on the run so far. -/
def currentReport (c : Config) : Action World RunReport :=
  Action.gets fun w => w.report.getD { inputDir := c.inputDir, outputDir := c.outputDir }

/-- Prepares a run: sets up its log, starts the report on it and checks its directories;
returns the directory with hardware descriptions. -/
def prepare (c : Config) : Action World (Option String) := do
  World.setUpLog c.logSettings
  let started ← World.now
  Action.modify fun w =>
    { w with
      report := some { inputDir := c.inputDir, outputDir := c.outputDir, started := some started } }
  checkDirectories c

/-- Opens a run: prepares it and finds its subnets. The directory with hardware descriptions is
returned too. -/
def opening (c : Config) : Action World (Option String × List (String × String)) := do
  let hwlocDir ← prepare c
  let subnets ← findSubnets c.inputDir
  if subnets.isEmpty then
    World.say .warning Log.extract s!"No ib-subnet-*.txt file in {c.inputDir}"
  return (hwlocDir, subnets)

/-- Closes a run: completes the report on it, tells of it and writes it. -/
def closing (c : Config) : Action World RunReport := do
  let completed ← World.now
  modifyReport fun r => { r with completed := some completed }
  let report ← currentReport c
  c.notify (.runDone report)
  if let some path := c.diagFile.chosen? then
    World.write path (report.toJson true).render
  return report

/-- Extracts all subnets of the input directory. -/
def run (c : Config) : Action World RunReport := do
  let (hwlocDir, subnets) ← opening c
  processEach c hwlocDir subnets
  closing c

end FabricPaths.Extract
