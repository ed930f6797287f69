import FabricPaths.CommandLine.Options
import FabricPaths.Extract.Config

/-!
# Arguments of the viewer

What the viewer program takes from its command line.
-/

namespace FabricPaths.CommandLine.Viewer

open FabricPaths.Extract (Config)

/-- The arguments of the program. -/
def grammar : Grammar Config :=
  { options := [
      ⟨["-h", "--help"], .help⟩,
      ⟨["--output-dir"], .value fun v c => { c with outputDir := .ofValue v }⟩,
      ⟨["--hwloc-dir"], .value fun v c => { c with hwlocDir := .ofValue v }⟩,
      ⟨["--debug"], .flag fun c => { c with debug := true }⟩,
      ⟨["--log"], .value fun v c => { c with logFile := .ofValue v }⟩]
    positionals := [⟨"input_dir", fun v c => { c with inputDir := v.getD "" }⟩] }

/-- How the program is called. -/
def usage : String := "\n".intercalate [
  "usage: fabtrace-tui [-h] [--output-dir OUTPUT_DIR] [--hwloc-dir HWLOC_DIR]",
  "                    [--debug] [--log LOG]",
  "                    input_dir"]

/-- What the program does and takes. -/
def helpText : String := "\n".intercalate [
  usage,
  "",
  "fabtrace TUI",
  "",
  "positional arguments:",
  "  input_dir",
  "",
  "options:",
  "  -h, --help            show this help message and exit",
  "  --output-dir OUTPUT_DIR",
  "                        Also write IB-<subnet>-fabric.json files here",
  "  --hwloc-dir HWLOC_DIR",
  "  --debug",
  "  --log LOG"]

/-- What the command line asks for. -/
inductive Request
  /-- A viewer with settings. -/
  | view (c : Config)
  /-- The program ends at once with a number, having written to its streams. -/
  | leave (code : Nat) (output errors : String)
deriving Inhabited

/-- Reads the command line. -/
def request (args : List String) : Request :=
  match grammar.read { inputDir := "" } args with
  | .ok c => .view c
  | .error .help => .leave 0 (helpText ++ "\n") ""
  | .error (.wrong message) =>
    .leave 2 "" (usage ++ "\n" ++ s!"fabtrace-tui: error: {message}\n")

end FabricPaths.CommandLine.Viewer
