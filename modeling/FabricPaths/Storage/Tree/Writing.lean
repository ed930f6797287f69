import FabricPaths.Storage.Tree

/-!
# Writing to storage trees

A file is written where its path leads; a path to something that is not there
leads to a new file in its directory. A file that is open keeps its location,
whatever happens to the path by which it was opened.
-/

namespace FabricPaths.Storage.Tree

/-- Puts something at a location. -/
def put (t : Tree) (l : Location) (item : Item) : Tree :=
  { t with items := t.items.insert l item }

/-- Where a file that is opened for writing lies. -/
def placeToWrite (t : Tree) (workingDir : Location) (p : String) : Except Failure Location := do
  match ← t.locate workingDir true p with
  | .found l (.file _) => return l
  | .found _ _ => .error (.storage .isDirectory p)
  | .vacant dir name => return dir ++ [name]

/-- Opens a file for writing: it is empty then. -/
def create (t : Tree) (workingDir : Location) (p : String) : Except Failure (Tree × Location) := do
  let l ← t.placeToWrite workingDir p
  return (t.put l (.file .empty), l)

/-- Writes a whole file. -/
def write (t : Tree) (workingDir : Location) (p : String) (bytes : ByteArray) :
    Except Failure Tree := do
  let l ← t.placeToWrite workingDir p
  return t.put l (.file bytes)

/-- Bytes with others put over them from an offset on; what lies between is
filled with zeros. -/
def overlay (bytes : ByteArray) (offset : Nat) (added : ByteArray) : ByteArray :=
  let before := bytes.extract 0 offset
  let gap : ByteArray := ⟨Array.replicate (offset - bytes.size) 0⟩
  before ++ gap ++ added ++ bytes.extract (offset + added.size) bytes.size

/-- Writes into a file that is open. -/
def writeAt (t : Tree) (l : Location) (offset : Nat) (added : ByteArray) : Tree :=
  match t.item? l with
  | some (.file bytes) => t.put l (.file (overlay bytes offset added))
  | _ => t

/-- Puts something under names from a directory and makes the directories that
lead to it. -/
def place (t : Tree) (dir : Location) (names : List String) (item : Item) : Tree :=
  match names with
  | [] => t
  | [name] => t.put (dir ++ [name]) item
  | name :: rest =>
    match t.find dir name with
    | .ok (l, .directory) => t.place l rest item
    | _ => (t.put (dir ++ [name]) .directory).place (dir ++ [name]) rest item

end FabricPaths.Storage.Tree
