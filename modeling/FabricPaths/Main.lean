import FabricPaths.CommandLine.Extract

/-!
# The extraction program at work

The outer layer of the extraction program. It copies what the arguments name
into a world, lets the program work there, and copies out what the program
wrote. All decisions are the program's; a file that cannot be opened counts as
absent.
-/

namespace FabricPaths.Outer

open Storage (Tree Item Location)
open CommandLine.Extract (grammar program)

/-- What lies at a location, links followed. -/
def itemAt? (l : Location) : IO (Option Item) := do
  try
    let path ← IO.FS.realPath l.text
    if ← path.isDir then return some .directory
    return some (.file (← IO.FS.readBinFile path))
  catch _ => return none

/-- The names in a directory. -/
def namesIn (l : Location) : IO (List String) := do
  let entries ← (← IO.FS.realPath l.text).readDir
  return entries.toList.map (·.fileName)

/-- Copies what lies at a location, with what lies below it down to a depth. -/
def copyFrom (t : Tree) (l : Location) (depth : Nat) : IO Tree := do
  match ← itemAt? l, depth with
  | none, _ => return t
  | some .directory, depth + 1 =>
    (← namesIn l).foldlM (fun t name => copyFrom t (l ++ [name]) depth) (t.put l .directory)
  | some item, _ => return t.put l item

/-- Copies what a path names, with the directories that lead to it. -/
def copyPath (workingDir : Location) (t : Tree) (path : String) (depth : Nat) : IO Tree := do
  let l := Storage.PathText.names (Storage.PathText.absolute workingDir.text path)
  let t ← (List.range l.length).foldlM (fun t n => copyFrom t (l.take n) 0) t
  copyFrom t l depth

/-- Copies what the settings name: the dumps with the route dumps below them,
and the places to write to. -/
def copyNamed (workingDir : Location) (c : Extract.Config) : IO Tree := do
  let t ← copyPath workingDir {} c.inputDir 2
  let t ← c.outputDir.chosen?.toList.foldlM (copyPath workingDir · · 1) t
  let hwlocDir := c.hwlocDir.chosen?.map (Extract.resolveHwlocDir · c.outputDir)
  [hwlocDir, c.logFile.chosen?, c.diagFile.chosen?].foldlM
    (fun t path => path.toList.foldlM (copyPath workingDir · · 0) t) t

/-- Copies out the files that differ from what they were. -/
def copyOut (before after : Tree) : IO Unit :=
  after.items.entries.forM fun (l, item) => do
    match item, before.item? l with
    | .file bytes, some (.file old) => if bytes != old then IO.FS.writeBinFile l.text bytes
    | .file bytes, _ => IO.FS.writeBinFile l.text bytes
    | _, _ => return

/-- The time of day, as a new file bears it. -/
def timeOfDay : IO Moment :=
  IO.FS.withTempFile fun _ path => do
    let time := (← path.metadata).modified
    let micros := time.sec * 1000000 + time.nsec.toNat / 1000
    let start := Moment.ofParts 1970 1 1 0 0 0 0
    return (start.later micros).toOption.getD start

/-- The world in which the program works on behalf of its arguments. -/
def worldFor (args : List String) : IO World := do
  let workingDir := Storage.PathText.names (← IO.currentDir).toString
  let storage ← match grammar.read { inputDir := "" } args with
    | .ok c => copyNamed workingDir c
    | .error _ => pure {}
  return { storage, workingDir, clock := { start := ← timeOfDay } }

/-- Runs the program and returns its exit code. -/
def work (args : List String) : IO UInt32 := do
  let world ← worldFor args
  let r := program args world
  copyOut world.storage r.state.storage
  IO.print r.state.output
  IO.eprint r.state.errors
  match r.outcome with
  | .ok code => return code.number.toUInt32
  | .error e =>
    IO.eprintln e.message
    return 1

end FabricPaths.Outer

/-- Extracts all subnets of the input directory that the arguments name. -/
def main (args : List String) : IO UInt32 := FabricPaths.Outer.work args
