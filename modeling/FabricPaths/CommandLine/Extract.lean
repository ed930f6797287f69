import FabricPaths.CommandLine.Options
import FabricPaths.Extract.Run

/-!
# The extraction program

The program that extracts all subnets of an input directory, from its arguments
to its exit code.
-/

namespace FabricPaths.CommandLine.Extract

open FabricPaths.Extract (Config)

/-- The arguments of the program. -/
def grammar : Grammar Config :=
  { options := [
      ⟨["-h", "--help"], .help⟩,
      ⟨["--hwloc-dir"], .value fun v c => { c with hwlocDir := .ofValue v }⟩,
      ⟨["-v", "--verbose"], .flag fun c => { c with verbose := true }⟩,
      ⟨["--debug"], .flag fun c => { c with debug := true }⟩,
      ⟨["--log"], .value fun v c => { c with logFile := .ofValue v }⟩,
      ⟨["--diag"], .value fun v c => { c with diagFile := .ofValue v }⟩,
      ⟨["--json"], .flag fun c => { c with jsonOutput := true }⟩]
    positionals := [
      ⟨"input_dir", fun v c => { c with inputDir := v.getD "" }⟩,
      ⟨"output_dir", fun v c => { c with outputDir := .ofValue v }⟩] }

/-- How the program is called. -/
def usage : String := "\n".intercalate [
  "usage: fabtrace [-h] [--hwloc-dir HWLOC_DIR] [-v] [--debug] [--log LOG]",
  "                [--diag DIAG] [--json]",
  "                input_dir output_dir"]

/-- What the program does and takes. -/
def helpText : String := "\n".intercalate [
  usage,
  "",
  "Rebuild InfiniBand fabric topology and host-to-host paths from ibnetdiscover and ibroute dumps.",
  "",
  "positional arguments:",
  "  input_dir             Directory holding ib-subnet-*.txt and ibroutes-* dumps",
  "  output_dir            Directory for IB-<subnet>-fabric.json",
  "",
  "options:",
  "  -h, --help            show this help message and exit",
  "  --hwloc-dir HWLOC_DIR",
  "                        hwloc XML directory (passed through)",
  "  -v, --verbose         Print per-subnet detail",
  "  --debug",
  "  --log LOG             Write debug log to file",
  "  --diag DIAG           Write full diagnostic JSON to file",
  "  --json                Output run summary as JSON",
  "",
  "Examples:",
  "  fabtrace dumps/ out/",
  "  fabtrace dumps/ out/ --hwloc-dir hwloc -v",
  "  fabtrace dumps/ out/ --diag /tmp/fabtrace.json --json",
  "",
  "hwloc-dir can be an absolute path or a relative path from out-dir"]

/-- How the program ends. -/
inductive ExitCode
  | success
  | usage
  | directory
  | storage
  | memory
deriving DecidableEq, Inhabited

namespace ExitCode

/-- The number that the program returns. -/
def number : ExitCode → Nat
  | success => 0
  | usage => 1
  | directory => 2
  | storage => 3
  | memory => 4

end ExitCode

/-- Shows what came of a run. -/
def showReport (c : Config) (r : RunReport) : Action World Unit := do
  if c.jsonOutput then World.print (r.toJson false).render
  else
    World.print ""
    World.print r.summary
    if c.verbose then
      Action.forEach r.subnets fun s => World.print s.detail
    World.print ""

/-- Runs an extraction and shows what came of it. Failures of the storage are
reported and end the program; others are passed on. -/
def perform (c : Config) : Action World ExitCode := do
  match ← Action.attempt (FabricPaths.Extract.run c) with
  | .ok r =>
    showReport c r
    return .success
  | .error e =>
    match e with
    | .directory _ _ _ =>
      World.printError e.message
      return .directory
    | .outOfMemory =>
      World.say .critical Log.extract "Out of memory"
      return .memory
    | .storage _ _ =>
      World.say .error Log.extract s!"Fatal I/O error: {e.message}"
      return .storage
    | _ => Action.fail e

/-- The whole program. -/
def program (args : List String) : Action World ExitCode :=
  match grammar.read { inputDir := "" } args with
  | .ok c => perform c
  | .error .help => do
    World.print helpText
    return .success
  | .error (.wrong message) => do
    World.printError usage
    World.printError s!"Wrong parameters: {message}"
    return .usage

end FabricPaths.CommandLine.Extract
