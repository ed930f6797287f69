import FabricPaths.Viewer.Label

/-!
# The tree of a viewer

Items in the order in which they were added. Each item lies under an earlier
one or at the top, and the children of an item stand in the order of their
addition.
-/

namespace FabricPaths.Viewer

/-- A position among the items. -/
abbrev ItemId := Nat

/-- An item of the tree. -/
structure Item where
  /-- The item above; none at the top. -/
  parent : Option ItemId
  /-- What it shows. -/
  label : Label
  /-- Whether it is shown open; none if it never has children. -/
  isOpen : Option Bool
deriving DecidableEq, Inhabited

/-- All items of a tree. -/
structure Tree where
  /-- The items in the order of their addition. -/
  items : List Item := []
deriving DecidableEq, Inhabited

namespace Tree

/-- The position of the next item. -/
def next (t : Tree) : ItemId := t.items.length

/-- Adds an item. -/
def add (t : Tree) (item : Item) : Tree := { items := t.items ++ [item] }

/-- Changes what an item shows. -/
def setLabel (t : Tree) (i : ItemId) (label : Label) : Tree :=
  { items := t.items.modify i fun item => { item with label } }

/-- The items right under an item, or at the top. -/
def children (t : Tree) (parent : Option ItemId) : List (ItemId × Item) :=
  t.items.zipIdx.filterMap fun (item, i) => if item.parent = parent then some (i, item) else none

/-- An item with all that lies under it. -/
inductive Branch
  | mk (item : Item) (children : List Branch)

/-- The branches under an item, down to a depth. -/
def branchesTo (t : Tree) : (depth : Nat) → Option ItemId → List Branch
  | 0, _ => []
  | depth + 1, parent =>
    (t.children parent).map fun (i, item) => .mk item (t.branchesTo depth (some i))

/-- The whole tree. -/
def branches (t : Tree) : List Branch := t.branchesTo t.items.length none

end Tree

end FabricPaths.Viewer
