import FabricPaths.Hostname
import FabricPaths.Viewer.Tree
import Mathlib.Data.List.Basic

/-!
# Outlines of trees

The items of a tree refer to each other by their positions. An outline has each item with all that
is shown under it, and no positions. A tree that was drawn by adding spots, each under an earlier
one, and leaves is told by the list of what was added: what stands under a spot is what was added
there, in this order.
-/

namespace FabricPaths.Viewer

/-- An item with all that is shown under it. -/
inductive Outline
  | mk (label : Label) (isOpen : Option Bool) (beneath : List Outline)

namespace Outline

/-- What the item shows. -/
def label : Outline → Label
  | mk label _ _ => label

/-- Whether it is shown open. -/
def isOpen : Outline → Option Bool
  | mk _ isOpen _ => isOpen

/-- What stands right under it. -/
def beneath : Outline → List Outline
  | mk _ _ beneath => beneath

end Outline

namespace Tree

mutual

/-- The outline of a branch. -/
def Branch.outline : Branch → Outline
  | .mk item children => .mk item.label item.isOpen (outlines children)

/-- The outlines of several branches. -/
def outlines : List Branch → List Outline
  | [] => []
  | b :: rest => b.outline :: outlines rest

end

/-- Each branch has its outline. -/
theorem outlines_eq_map (bs : List Branch) : outlines bs = bs.map Branch.outline := by
  induction bs with
  | nil => rfl
  | cons b rest ih => rw [outlines, List.map_cons, ih]

/-- The outline of a tree. -/
def outline (t : Tree) : List Outline := t.branches.map Branch.outline

/-! ## How deep a tree is -/

variable {t : Tree}

/-- Each item lies under an earlier one, or at the top. -/
def ParentsFirst (t : Tree) : Prop :=
  ∀ (j : Nat) (item : Item) (i : Nat), t.items[j]? = some item → item.parent = some i → i < j

/-- The position from which on children can be found. -/
def lowest : Option ItemId → Nat
  | none => 0
  | some i => i + 1

/-- The children of an item are the items that lie under it. -/
theorem mem_children {parent : Option ItemId} {i : Nat} {item : Item} :
    (i, item) ∈ t.children parent ↔ t.items[i]? = some item ∧ item.parent = parent := by
  unfold children
  rw [List.mem_filterMap]
  constructor
  · rintro ⟨⟨item', j⟩, hmem, hfound⟩
    obtain ⟨hparent, heq⟩ := Option.ite_none_right_eq_some.mp hfound
    cases heq
    exact ⟨List.mem_zipIdx_iff_getElem?.mp hmem, hparent⟩
  · rintro ⟨hmem, hparent⟩
    exact ⟨(item, i), List.mem_zipIdx_iff_getElem?.mpr hmem, if_pos hparent⟩

/-- Children come later than what they lie under. -/
theorem ParentsFirst.lowest_le (h : t.ParentsFirst) {parent : Option ItemId} {i : Nat}
    {item : Item} (hmem : (i, item) ∈ t.children parent) : lowest parent ≤ i := by
  obtain ⟨hitem, hparent⟩ := mem_children.mp hmem
  cases parent with
  | none => exact Nat.zero_le i
  | some j => exact h i item j hitem hparent

/-- Beyond the last item nothing lies under anything, and further depth shows no more. -/
theorem ParentsFirst.branchesTo_congr (h : t.ParentsFirst) {n : Nat} {parent : Option ItemId}
    (hn : t.items.length ≤ lowest parent + n) {d d' : Nat} (hd : n ≤ d) (hd' : n ≤ d') :
    t.branchesTo d parent = t.branchesTo d' parent := by
  induction n generalizing parent d d' with
  | zero =>
    have hnone : t.children parent = [] := by
      refine List.eq_nil_iff_forall_not_mem.mpr fun ⟨i, item⟩ hmem => ?_
      have hlow := h.lowest_le hmem
      have hlast := (List.getElem?_eq_some_iff.mp (mem_children.mp hmem).1).1
      omega
    have hempty : ∀ d, t.branchesTo d parent = [] := by
      intro d
      cases d with
      | zero => rfl
      | succ d => rw [branchesTo, hnone, List.map_nil]
    rw [hempty, hempty]
  | succ n ih =>
    obtain ⟨d, rfl⟩ := Nat.exists_eq_add_of_le' hd
    obtain ⟨d', rfl⟩ := Nat.exists_eq_add_of_le' hd'
    change t.branchesTo (d + n + 1) parent = t.branchesTo (d' + n + 1) parent
    rw [branchesTo, branchesTo]
    refine List.map_congr_left fun ⟨i, item⟩ hmem => ?_
    have hlow := h.lowest_le hmem
    have hnext : t.items.length ≤ lowest (some i) + n := by
      dsimp only [lowest]
      omega
    dsimp only
    have hsame : t.branchesTo (d + n) (some i) = t.branchesTo (d' + n) (some i) :=
      ih hnext (by omega) (by omega)
    rw [hsame]

/-- A whole tree is shown at any depth that its number of items allows. -/
theorem ParentsFirst.branches_eq (h : t.ParentsFirst) {d : Nat} (hd : t.items.length ≤ d) :
    t.branches = t.branchesTo d none :=
  h.branchesTo_congr (Nat.le_of_eq (Nat.zero_add _).symm) (Nat.le_refl _) hd

end Tree

/-! ## Trees that were drawn -/

/-- Something in the tree that is found again. -/
inductive Spot
  /-- A subnet. -/
  | subnet (subnet : String)
  /-- A partition of a subnet. -/
  | partition (subnet name : String)
  /-- A host of a subnet. -/
  | host (subnet host : String)
deriving DecidableEq

namespace Spot

/-- The spot under which it stands. A host stands under the partition of its stem. -/
def above : Spot → Option Spot
  | subnet _ => none
  | partition a _ => some (subnet a)
  | host a h => some (partition a (Hostname.stem h))

/-- Whether it is shown open. -/
def isOpen : Spot → Bool
  | subnet _ => true
  | _ => false

end Spot

/-- Something that was added to the tree. -/
inductive Entry
  /-- A spot. -/
  | spot (p : Spot)
  /-- A walk from a host, with what is shown of it. -/
  | walk (subnet host : String) (label : Label)
deriving DecidableEq

namespace Entry

/-- The spot under which it stands. -/
def above : Entry → Option Spot
  | spot p => p.above
  | walk a h _ => some (.host a h)

/-- What it shows, if spots show these labels. -/
def label (labels : Spot → Label) : Entry → Label
  | spot p => labels p
  | walk _ _ label => label

/-- Whether it is shown open. -/
def isOpen : Entry → Option Bool
  | spot p => some p.isOpen
  | walk _ _ _ => none

/-- A walk is no spot. -/
theorem walk_ne_spot {subnet host : String} {label : Label} {p : Spot} :
    walk subnet host label ≠ spot p :=
  nofun

end Entry

/-- What was added, each thing under what had been added before, and each spot once. -/
inductive Grown : List Entry → Prop
  /-- Nothing was added. -/
  | nil : Grown []
  /-- A new spot was added. -/
  | spot {xs : List Entry} {p : Spot} (before : Grown xs) (new : .spot p ∉ xs)
    (above : ∀ q ∈ p.above, .spot q ∈ xs) : Grown (xs ++ [.spot p])
  /-- A walk was added. -/
  | walk {xs : List Entry} {a h : String} {label : Label} (before : Grown xs)
    (above : .spot (.host a h) ∈ xs) : Grown (xs ++ [.walk a h label])

variable {xs : List Entry} {x : Entry} {p q : Spot} {labels : Spot → Label} {i : Nat}

/-- The position of a spot. -/
def position? (xs : List Entry) (p : Spot) : Option ItemId := xs.idxOf? (.spot p)

/-- A spot that was added has a position. -/
theorem exists_position (h : .spot p ∈ xs) : ∃ i, position? xs p = some i :=
  Option.isSome_iff_exists.mp (List.isSome_idxOf?.mpr h)

/-- A spot that was not added has none. -/
theorem position?_eq_none (h : .spot p ∉ xs) : position? xs p = none :=
  List.idxOf?_eq_none_iff.mpr h

/-- At the position of a spot is the spot. -/
theorem getElem?_of_position (h : position? xs p = some i) : xs[i]? = some (.spot p) := by
  obtain ⟨hi, heq, -⟩ := List.idxOf?_eq_some_iff.mp h
  rw [List.getElem?_eq_getElem hi, heq]

/-- Spots stay at their positions when more is added. -/
theorem position?_append (h : .spot p ∈ xs) (ys : List Entry) :
    position? (xs ++ ys) p = position? xs p := by
  obtain ⟨i, hi⟩ := exists_position h
  unfold position? List.idxOf? at hi ⊢
  rw [List.findIdx?_append, hi]
  rfl

/-- A new spot has the last position. -/
theorem position?_concat_self (h : .spot p ∉ xs) :
    position? (xs ++ [.spot p]) p = some xs.length := by
  have hnone := position?_eq_none h
  unfold position? List.idxOf? at hnone ⊢
  rw [List.findIdx?_append, hnone]
  simp

/-- Other things that are added have no influence on the position of a spot. -/
theorem position?_concat_of_ne (h : x ≠ .spot p) : position? (xs ++ [x]) p = position? xs p := by
  have hnone : position? [x] p = none :=
    position?_eq_none fun hmem => h (List.mem_singleton.mp hmem).symm
  unfold position? List.idxOf? at hnone ⊢
  rw [List.findIdx?_append, hnone]
  simp

namespace Grown

/-- What stands under a spot was added later than it. -/
theorem above_before (h : Grown xs) (hx : xs[i]? = some x) (hq : q ∈ x.above) :
    ∃ j < i, position? xs q = some j := by
  have hstep : ∀ {ys : List Entry} {y : Entry}, (∀ q ∈ y.above, Entry.spot q ∈ ys) →
      (ys[i]? = some x → ∃ j < i, position? ys q = some j) → (ys ++ [y])[i]? = some x →
      ∃ j < i, position? (ys ++ [y]) q = some j := by
    intro ys y habove hbefore hat
    rcases Nat.lt_or_ge i ys.length with hi | hi
    · rw [List.getElem?_append_left hi] at hat
      obtain ⟨j, hj, hposition⟩ := hbefore hat
      refine ⟨j, hj, ?_⟩
      rw [position?_append (List.mem_of_getElem? (getElem?_of_position hposition)), hposition]
    · rw [List.getElem?_append_right hi] at hat
      have hlast : x = y :=
        (List.mem_singleton.mp (List.mem_of_getElem? hat))
      have hin : Entry.spot q ∈ ys := habove q (hlast ▸ hq)
      obtain ⟨j, hposition⟩ := exists_position hin
      have hj := (List.getElem?_eq_some_iff.mp (getElem?_of_position hposition)).1
      exact ⟨j, Nat.lt_of_lt_of_le hj hi, by rw [position?_append hin, hposition]⟩
  induction h with
  | nil => cases hx
  | spot _ _ above ih => exact hstep above ih hx
  | walk _ above ih =>
    refine hstep (fun q hq => ?_) ih hx
    cases hq
    exact above

/-- What is above something that was added was added too. -/
theorem above_mem (h : Grown xs) (hx : x ∈ xs) (hq : q ∈ x.above) : .spot q ∈ xs := by
  obtain ⟨i, hi⟩ := List.mem_iff_getElem?.mp hx
  obtain ⟨j, -, hposition⟩ := h.above_before hi hq
  exact List.mem_of_getElem? (getElem?_of_position hposition)

/-- A spot is at its position only. -/
theorem position?_of_getElem? (h : Grown xs) (hp : xs[i]? = some (.spot p)) :
    position? xs p = some i := by
  have hstep : ∀ {ys : List Entry} {y : Entry}, (y = .spot p → .spot p ∉ ys) →
      (ys[i]? = some (.spot p) → position? ys p = some i) → (ys ++ [y])[i]? = some (.spot p) →
      position? (ys ++ [y]) p = some i := by
    intro ys y hnew hbefore hat
    rcases Nat.lt_or_ge i ys.length with hi | hi
    · rw [List.getElem?_append_left hi] at hat
      rw [position?_append (List.mem_of_getElem? hat), hbefore hat]
    · have hlength := (List.getElem?_eq_some_iff.mp hat).1
      rw [List.length_append, List.length_singleton] at hlength
      obtain rfl : i = ys.length := by omega
      rw [List.getElem?_concat_length] at hat
      cases hat
      exact position?_concat_self (hnew rfl)
  induction h with
  | nil => cases hp
  | spot _ new _ ih =>
    refine hstep (fun heq => ?_) ih hp
    cases heq
    exact new
  | walk _ _ ih => exact hstep nofun ih hp

end Grown

/-- The item of something that was added. -/
def Entry.item (xs : List Entry) (labels : Spot → Label) (x : Entry) : Item :=
  ⟨x.above.bind (position? xs), x.label labels, x.isOpen⟩

/-- The tree that was drawn. -/
def drawn (xs : List Entry) (labels : Spot → Label) : Tree := ⟨xs.map (Entry.item xs labels)⟩

/-- The outlines of what stands under a spot, or at the top, down to a depth. -/
def outlinesTo (xs : List Entry) (labels : Spot → Label) : (depth : Nat) → Option Spot →
    List Outline
  | 0, _ => []
  | depth + 1, above =>
    (xs.filter fun x => x.above = above).map fun x =>
      .mk (x.label labels) x.isOpen
        (match x with
          | .spot p => outlinesTo xs labels depth (some p)
          | .walk _ _ _ => [])

/-- Nothing stands under a walk. -/
theorem branchesTo_walk {a host : String} {label : Label}
    (hwalk : xs[i]? = some (.walk a host label)) (labels : Spot → Label) (depth : Nat) :
    (drawn xs labels).branchesTo depth (some i) = [] := by
  cases depth with
  | zero => rfl
  | succ depth =>
    have hnone : (drawn xs labels).children (some i) = [] := by
      refine List.eq_nil_iff_forall_not_mem.mpr fun ⟨j, item⟩ hmem => ?_
      obtain ⟨hitem, hparent⟩ := Tree.mem_children.mp hmem
      unfold drawn at hitem
      rw [List.getElem?_map] at hitem
      obtain ⟨x, hx, rfl⟩ := Option.map_eq_some_iff.mp hitem
      obtain ⟨q, -, hposition⟩ := Option.bind_eq_some_iff.mp hparent
      cases hwalk.symm.trans (getElem?_of_position hposition)
    rw [Tree.branchesTo, hnone, List.map_nil]

namespace Grown

/-- Parents come first in the tree that was drawn. -/
theorem parentsFirst (h : Grown xs) (labels : Spot → Label) : (drawn xs labels).ParentsFirst := by
  intro j item i hitem hparent
  unfold drawn at hitem
  rw [List.getElem?_map] at hitem
  obtain ⟨x, hx, rfl⟩ := Option.map_eq_some_iff.mp hitem
  obtain ⟨q, hq, hposition⟩ := Option.bind_eq_some_iff.mp hparent
  obtain ⟨i', hi', hposition'⟩ := h.above_before hx hq
  cases hposition.symm.trans hposition'
  exact hi'

/-- Things have the same parent exactly if they stand under the same spot. -/
theorem parent_eq_iff (h : Grown xs) (hx : x ∈ xs) {above : Option Spot}
    (habove : ∀ q ∈ above, .spot q ∈ xs) :
    x.above.bind (position? xs) = above.bind (position? xs) ↔ x.above = above := by
  refine ⟨fun heq => ?_, congrArg (Option.bind · (position? xs))⟩
  cases hp : x.above with
  | none =>
    cases above with
    | none => rfl
    | some q =>
      obtain ⟨i, hi⟩ := exists_position (habove q rfl)
      rw [hp, Option.bind_none, Option.bind_some, hi] at heq
      cases heq
  | some p =>
    obtain ⟨i, hi⟩ := exists_position (h.above_mem hx hp)
    rw [hp, Option.bind_some, hi] at heq
    obtain ⟨q, rfl, hq⟩ := Option.bind_eq_some_iff.mp heq.symm
    have hsame := (getElem?_of_position hi).symm.trans (getElem?_of_position hq)
    cases hsame
    rfl

/-- The children of a spot are what was added under it. -/
theorem children_drawn (h : Grown xs) (labels : Spot → Label) {above : Option Spot}
    (habove : ∀ q ∈ above, .spot q ∈ xs) :
    (drawn xs labels).children (above.bind (position? xs)) =
      (xs.zipIdx.filter fun e => e.1.above = above).map fun e => (e.2, e.1.item xs labels) := by
  unfold Tree.children drawn
  rw [List.zipIdx_map, List.filterMap_map, ← List.filterMap_eq_filter, List.map_filterMap]
  refine List.filterMap_congr fun e he => ?_
  have hiff := h.parent_eq_iff (List.fst_mem_of_mem_zipIdx he) habove
  by_cases hstands : e.1.above = above
  · have hguard : Option.guard (fun e : Entry × Nat => decide (e.1.above = above)) e = some e :=
      Option.guard_eq_some_iff.mpr ⟨rfl, decide_eq_true hstands⟩
    rw [hguard]
    exact if_pos (hiff.mpr hstands)
  · have hguard : Option.guard (fun e : Entry × Nat => decide (e.1.above = above)) e = none := by
      rw [Option.guard_eq_none_iff]
      exact decide_eq_false hstands
    rw [hguard]
    exact if_neg (mt hiff.mp hstands)

/-- Under a spot of the tree stands what was added there. -/
theorem outlines_branchesTo (h : Grown xs) (labels : Spot → Label) {depth : Nat}
    {above : Option Spot} (habove : ∀ q ∈ above, .spot q ∈ xs) :
    ((drawn xs labels).branchesTo depth (above.bind (position? xs))).map Tree.Branch.outline =
      outlinesTo xs labels depth above := by
  induction depth generalizing above with
  | zero => rfl
  | succ depth ih =>
    have hzip : xs.filter (fun x => x.above = above) =
        (xs.zipIdx.filter fun e => e.1.above = above).map Prod.fst := by
      have hxs := List.filter_map (f := Prod.fst) (p := fun x : Entry => x.above = above)
        (l := xs.zipIdx)
      rwa [List.zipIdx_map_fst] at hxs
    rw [Tree.branchesTo, outlinesTo, h.children_drawn labels habove, hzip, List.map_map,
      List.map_map, List.map_map]
    refine List.map_congr_left fun ⟨x, i⟩ he => ?_
    have hx : xs[i]? = some x := List.mem_zipIdx_iff_getElem?.mp (List.mem_filter.mp he).1
    simp only [Function.comp_apply, Tree.Branch.outline, Tree.outlines_eq_map]
    cases x with
    | walk a host label => rw [branchesTo_walk hx]; rfl
    | spot p =>
      have hmem : ∀ q ∈ some p, .spot q ∈ xs := by
        rintro q ⟨⟩
        exact List.mem_of_getElem? hx
      have hbelow := ih hmem
      rw [Option.bind_some, h.position?_of_getElem? hx] at hbelow
      rw [hbelow]
      rfl

/-- The outline of the tree that was drawn, to any depth that is not too small. -/
theorem outline_drawn (h : Grown xs) (labels : Spot → Label) {depth : Nat}
    (hdepth : xs.length ≤ depth) : (drawn xs labels).outline = outlinesTo xs labels depth none := by
  have hlength : (drawn xs labels).items.length ≤ depth := by
    rw [drawn, List.length_map]
    exact hdepth
  unfold Tree.outline
  rw [(h.parentsFirst labels).branches_eq hlength]
  have htop : ∀ q ∈ (none : Option Spot), .spot q ∈ xs := nofun
  exact h.outlines_branchesTo labels htop

end Grown

end FabricPaths.Viewer
