import FabricPaths.Storage.Tree

/-!
# Inventories

The list of all files below a directory.
-/

namespace FabricPaths.Storage.Tree

/-- The path of a location below a directory. -/
def below (dir l : Location) : Option String :=
  if dir.isPrefixOf l && dir.length < l.length then
    some ("/".intercalate (l.drop dir.length))
  else none

/-- Whether an inventory lists what lies at a location: everything but
directories and links to directories. -/
def isListed (t : Tree) (l : Location) (item : Item) : Bool :=
  match item with
  | .directory => false
  | .file _ => true
  | .link _ =>
    match t.find [] (Location.text l) with
    | .ok (_, .directory) => false
    | _ => true

/-- The paths of all files below a directory, in ascending order. -/
def inventory (t : Tree) (dir : Location) : List String :=
  (t.items.entries.filterMap fun (l, item) =>
    if t.isListed l item then below dir l else none).mergeSort fun a b => decide (a ≤ b)

end FabricPaths.Storage.Tree
