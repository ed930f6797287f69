/-!
# Path texts

Paths as they are written: names with slashes between them. A path that begins
with a slash starts at the root of the storage. These operations work on the
text alone and look at no storage.
-/

namespace FabricPaths.Storage.PathText

/-- Whether a path starts at the root. -/
def isAbsolute (p : String) : Bool := p.startsWith "/"

/-- A path taken from a directory; an absolute path stays as it is. -/
def join (dir p : String) : String :=
  if isAbsolute p then p
  else if dir.isEmpty || dir.endsWith "/" then dir ++ p
  else dir ++ "/" ++ p

/-- The slashes at the start of a path: none, two if there are exactly two, or
else one. -/
def leadingSlashes (p : String) : String :=
  match p.toList with
  | '/' :: '/' :: '/' :: _ => "/"
  | '/' :: '/' :: _ => "//"
  | '/' :: _ => "/"
  | _ => ""

/-- Divides a text at each occurrence of a character. -/
def divideAt (sep : Char) : List Char → List (List Char)
  | [] => [[]]
  | c :: cs =>
    if c == sep then [] :: divideAt sep cs
    else
      match divideAt sep cs with
      | [] => [[c]]
      | piece :: rest => (c :: piece) :: rest

/-- The texts between the slashes of a path. -/
def pieces (p : String) : List String := (divideAt '/' p.toList).map String.ofList

/-- The names of a path. -/
def names (p : String) : List String :=
  (pieces p).filter fun s => s != "" && s != "."

/-- A path put together from its slashes and names. -/
def assemble (slashes : String) (ns : List String) : String :=
  let p := slashes ++ "/".intercalate ns
  if p.isEmpty then "." else p

/-- The path of something in a directory, without empty names and names for the
directory itself. -/
def child (dir p : String) : String :=
  assemble (leadingSlashes dir) (names dir ++ names p)

/-- Adds a name to a path whose names were already reduced (newest first): a
step up takes the last name away. -/
def reduceStep (rooted : Bool) (done : List String) (name : String) : List String :=
  if name != ".." then name :: done
  else
    match done with
    | [] => if rooted then [] else [name]
    | last :: rest => if last == ".." then name :: done else rest

/-- The absolute path, taken from a working directory, without steps up. -/
def absolute (workingDir p : String) : String :=
  let full := join workingDir p
  let slashes := leadingSlashes full
  assemble slashes ((names full).foldl (reduceStep (slashes != "")) []).reverse

end FabricPaths.Storage.PathText
