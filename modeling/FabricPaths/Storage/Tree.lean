import FabricPaths.Failure
import FabricPaths.OrderedMap
import FabricPaths.Storage.PathText
import FabricPaths.Text.Lines
import FabricPaths.Text.Utf8

/-!
# Storage trees

A storage is a tree of directories with files and symbolic links. A path is
followed name by name from a directory; links on the way are followed too, up
to a limit.
-/

namespace FabricPaths.Storage

/-- Where something lies: the names from the root. -/
abbrev Location := List String

/-- The absolute path of a location. -/
def Location.text (l : Location) : String := "/" ++ "/".intercalate l

/-- What lies at a location. -/
inductive Item
  | file (bytes : ByteArray)
  | directory
  /-- A symbolic link to a path. -/
  | link (target : String)
deriving Inhabited

/-- A storage. The root is a directory without being listed. -/
structure Tree where
  /-- Everything but the root. -/
  items : OrderedMap Location Item := ∅
deriving Inhabited

/-- A step of a path. -/
inductive Step
  /-- To something in the directory. -/
  | name (s : String)
  /-- To the directory itself. -/
  | here
  /-- To the directory above. -/
  | up
deriving DecidableEq, Inhabited

/-- A path to be followed. -/
structure Route where
  /-- Whether it starts at the root. -/
  rooted : Bool
  /-- The steps. -/
  steps : List Step
  /-- Whether a slash follows the last step. -/
  slashAtEnd : Bool
deriving DecidableEq, Inhabited

namespace Route

/-- Reads one step. -/
def stepOf (s : String) : Step :=
  if s == "." then .here else if s == ".." then .up else .name s

/-- Reads a path. -/
def ofText (p : String) : Route :=
  { rooted := p.startsWith "/"
    steps := ((PathText.pieces p).filter (· != "")).map stepOf
    slashAtEnd := p.endsWith "/" }

end Route

/-- Where a path leads. -/
inductive Place
  /-- To something that is there. -/
  | found (location : Location) (item : Item)
  /-- To something that could be in a directory but is not. -/
  | vacant (dir : Location) (name : String)
deriving Inhabited

namespace Tree

/-- What lies at a location. -/
def item? (t : Tree) (l : Location) : Option Item :=
  if l.isEmpty then some .directory else t.items.get? l

/-- The longest name, in bytes. -/
def nameLimit : Nat := 255

/-- Paths have fewer bytes than this. -/
def pathLimit : Nat := 4096

/-- The most links that are followed for one path. -/
def linkLimit : Nat := 40

/-- Follows steps from a directory up to the first symbolic link, at which `onLink`
goes on: it is given the link's target, the directory of the link, and the steps
behind it. The last step may lead to nothing; with `writing`, a slash after it is
refused before anything is looked up. -/
def walkUpTo (t : Tree) (writing : Bool)
    (onLink : String → Location → List Step → Except StorageCause Place) (slashAtEnd : Bool)
    (dir : Location) : List Step → Except StorageCause Place
  | [] => .ok (.found dir .directory)
  | .here :: rest => t.walkUpTo writing onLink slashAtEnd dir rest
  | .up :: rest => t.walkUpTo writing onLink slashAtEnd dir.dropLast rest
  | .name s :: rest =>
    if rest.isEmpty && slashAtEnd && writing then .error .isDirectory
    else if nameLimit < s.utf8ByteSize then .error .nameTooLong
    else
      match t.item? (dir ++ [s]) with
      | none => if rest.isEmpty then .ok (.vacant dir s) else .error .noEntry
      | some .directory => t.walkUpTo writing onLink slashAtEnd (dir ++ [s]) rest
      | some (.file bytes) =>
        if rest.isEmpty && !slashAtEnd then .ok (.found (dir ++ [s]) (.file bytes))
        else .error .notDirectory
      | some (.link target) => onLink target dir rest

/-- Follows steps from a directory, with as many links on the way as are left. -/
def walk (t : Tree) (writing : Bool) : (linksLeft : Nat) → (slashAtEnd : Bool) →
    (dir : Location) → List Step → Except StorageCause Place
  | 0, slashAtEnd => t.walkUpTo writing (fun _ _ _ => .error .tooManyLinks) slashAtEnd
  | linksLeft + 1, slashAtEnd =>
    t.walkUpTo writing
      (fun target dir rest =>
        let route := Route.ofText target
        t.walk writing linksLeft
          (if rest.isEmpty then route.slashAtEnd || slashAtEnd else slashAtEnd)
          (if route.rooted then [] else dir) (route.steps ++ rest))
      slashAtEnd

/-- Whether a text ends paths before their end. -/
def holdsNull (p : String) : Bool := p.toList.contains '\x00'

/-- Where a path leads from a working directory. -/
def locate (t : Tree) (workingDir : Location) (writing : Bool) (p : String) :
    Except Failure Place :=
  if holdsNull p then .error .nullInPath
  else if p.isEmpty then .error (.storage .noEntry p)
  else if pathLimit ≤ p.utf8ByteSize then .error (.storage .nameTooLong p)
  else
    let route := Route.ofText p
    match t.walk writing linkLimit route.slashAtEnd (if route.rooted then [] else workingDir)
        route.steps with
    | .ok place => .ok place
    | .error cause => .error (.storage cause p)

/-- What a path leads to. -/
def find (t : Tree) (workingDir : Location) (p : String) : Except Failure (Location × Item) := do
  match ← t.locate workingDir false p with
  | .found l item => return (l, item)
  | .vacant _ _ => .error (.storage .noEntry p)

/-- The directory that a path leads to. -/
def directory (t : Tree) (workingDir : Location) (p : String) : Except Failure Location := do
  match ← t.find workingDir p with
  | (l, .directory) => return l
  | _ => .error (.storage .notDirectory p)

/-- The name of an entry of a directory, if the location is one. -/
def entryOf (dir l : Location) : Option String :=
  match l.getLast? with
  | some s => if l.dropLast = dir then some s else none
  | none => none

/-- The names in a directory. -/
def list (t : Tree) (workingDir : Location) (p : String) : Except Failure (List String) := do
  let dir ← t.directory workingDir p
  return t.items.keys.filterMap (entryOf dir)

/-- The bytes of a file. -/
def read (t : Tree) (workingDir : Location) (p : String) : Except Failure ByteArray := do
  match ← t.find workingDir p with
  | (_, .file bytes) => return bytes
  | _ => .error (.storage .isDirectory p)

/-- The lines of a text file. -/
def readLines (t : Tree) (workingDir : Location) (p : String) : Except Failure (List String) := do
  return Text.fileLines (Text.Utf8.decode (← t.read workingDir p).toList)

end Tree

end FabricPaths.Storage
