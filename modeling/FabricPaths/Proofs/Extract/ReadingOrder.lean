import FabricPaths.Proofs.Extract.Inputs
import FabricPaths.Proofs.Extract.Listing
import FabricPaths.Proofs.Sorting

/-!
# The order in which dumps are taken

The subnets of an input directory, and the route dumps of a subnet, are taken in an order that
depends on their names alone, in whatever order the names are listed. Route dumps are read by
ascending index, and by name where the index is the same; a name without an index counts as
index zero.
-/

namespace FabricPaths

open Text Storage

namespace FileName

/-- The number in the name of a route dump; without digits it is zero. -/
def index (name : String) : Nat := digitsValue ((routeDigits? name).getD [])

/-- The number in the name is not too long to be read. -/
def Indexable (name : String) : Prop := ((routeDigits? name).getD []).length ≤ digitLimit

/-- The dump of the one name is read before that of the other. -/
def ReadBefore (a b : String) : Prop := index a < index b ∨ index a = index b ∧ a < b

/-- A text has no more characters than bytes. -/
theorem length_le_utf8ByteSize (cs : List Char) : cs.length ≤ (String.ofList cs).utf8ByteSize := by
  induction cs with
  | nil => exact Nat.zero_le _
  | cons c cs ih =>
    have hc := c.utf8Size_pos
    rw [String.ofList_cons, String.utf8ByteSize_append, String.utf8ByteSize_singleton,
      List.length_cons]
    omega

/-- The digits of the number are among the characters of the name. -/
theorem length_routeDigits? {name : String} {digits : List Char}
    (h : routeDigits? name = some digits) : digits.length ≤ name.toList.length := by
  unfold routeDigits? at h
  simp only [bind, Option.bind_eq_some_iff, Option.ite_none_right_eq_some, Option.some.injEq,
    Scan.word_eq_some_iff, Prod.exists, Scan.exactly_eq_some_iff] at h
  obtain ⟨_, hname, _, _, ⟨rfl, -⟩, r, rfl, _, -, -, rfl⟩ := h
  have hrun : (r.takeWhile Char.isDigit).length ≤ r.length :=
    (List.takeWhile_sublist Char.isDigit).length_le
  rw [hname]
  simp only [List.length_append]
  omega

/-- A name that is not too long for a storage has no number that is too long to be read. -/
theorem indexable_of_size {name : String} (h : name.utf8ByteSize ≤ Tree.nameLimit) :
    Indexable name := by
  have hchars := length_le_utf8ByteSize name.toList
  rw [String.ofList_toList] at hchars
  have hlimits : Tree.nameLimit ≤ digitLimit := by decide
  unfold Indexable
  cases hdigits : routeDigits? name with
  | none => exact Nat.zero_le _
  | some digits =>
    have hlength := length_routeDigits? hdigits
    rw [Option.getD_some]
    omega

/-- The index of a name is read exactly if it is not too long; other names have none. -/
theorem routeIndex?_eq_ok_iff {name : String} {found : Option Nat} :
    routeIndex? name = .ok found ↔
      Indexable name ∧ found = if isRouteDump name then some (index name) else none := by
  unfold routeIndex? Indexable index isRouteDump
  cases routeDigits? name with
  | none =>
    simp only [Except.ok.injEq, Option.getD_none, List.length_nil, Nat.zero_le, true_and,
      Option.isSome_none, Bool.false_eq_true, if_false]
    exact eq_comm
  | some digits =>
    simp only [Option.getD_some, Option.isSome_some, if_true]
    by_cases hshort : digits.length ≤ digitLimit
    · rw [readNumeral_eq_ok_iff.mpr ⟨hshort, rfl⟩, and_iff_right hshort]
      exact ⟨fun h => (Except.ok.inj h).symm, fun h => congrArg Except.ok h.symm⟩
    · rw [readNumeral_eq_error_iff.mpr ⟨Nat.not_le.mp hshort, rfl⟩]
      exact iff_of_false nofun fun h => hshort h.1

end FileName

namespace Loader

open FileName

variable {names names' : List String}

/-- Route dumps are compared by index and name. -/
theorem comparesPairs_precedes : ComparesPairs precedes := by
  intro a b
  simp only [precedes, Bool.or_eq_true, Bool.and_eq_true, decide_eq_true_eq, beq_iff_eq,
    Bool.not_eq_true', decide_eq_false_iff_not, String.not_lt]

/-- The names of the route dumps with their indices. -/
def numbered (names : List String) : List (Nat × String) :=
  (names.filter isRouteDump).map fun name => (index name, name)

/-- The names of the route dumps by ascending index, and by name where the index is the same. -/
def inOrder (names : List String) : List String :=
  ((numbered names).mergeSort precedes).map (·.2)

/-- Names are indexed exactly if none of their numbers is too long. -/
theorem indexed_eq_ok_iff {found : List (Nat × String)} : indexed names = .ok found ↔
    (∀ name ∈ names, Indexable name) ∧ found = numbered names := by
  induction names generalizing found with
  | nil =>
    rw [indexed, Except.ok.injEq, and_iff_right (List.forall_mem_nil _)]
    exact eq_comm
  | cons name rest ih =>
    rw [indexed]
    by_cases hname : Indexable name
    · rw [routeIndex?_eq_ok_iff.mpr ⟨hname, rfl⟩, List.forall_mem_cons, and_iff_right hname]
      cases hlater : indexed rest with
      | error e =>
        refine iff_of_false (fun h => by cases h) fun h => ?_
        rw [ih.mpr ⟨h.1, rfl⟩] at hlater
        cases hlater
      | ok later =>
        obtain ⟨hrest, rfl⟩ := ih.mp hlater
        rw [and_iff_right hrest]
        unfold numbered
        cases hdump : isRouteDump name with
        | true =>
          rw [List.filter_cons_of_pos hdump]
          exact ⟨fun h => (Except.ok.inj h).symm, fun h => congrArg Except.ok h.symm⟩
        | false =>
          rw [List.filter_cons_of_neg (Bool.eq_false_iff.mp hdump)]
          exact ⟨fun h => (Except.ok.inj h).symm, fun h => congrArg Except.ok h.symm⟩
    · cases hindex : routeIndex? name with
      | ok found => exact absurd (routeIndex?_eq_ok_iff.mp hindex).1 hname
      | error e =>
        exact iff_of_false (fun h => by cases h) fun h => hname (h.1 name List.mem_cons_self)

/-- The order of reading is found exactly if no number in a name is too long. -/
theorem readingOrder_eq_ok_iff {order : List String} : readingOrder names = .ok order ↔
    (∀ name ∈ names, Indexable name) ∧ order = inOrder names := by
  unfold readingOrder
  cases hfound : indexed names with
  | error e =>
    refine iff_of_false nofun fun h => ?_
    rw [indexed_eq_ok_iff.mpr ⟨h.1, rfl⟩] at hfound
    cases hfound
  | ok found =>
    obtain ⟨hnames, rfl⟩ := indexed_eq_ok_iff.mp hfound
    rw [and_iff_right hnames]
    exact ⟨fun h => (Except.ok.inj h).symm, fun h => congrArg Except.ok h.symm⟩

/-- The names that are read are those of the route dumps. -/
theorem inOrder_perm (names : List String) :
    (inOrder names).Perm (names.filter isRouteDump) := by
  have hsorted := (List.mergeSort_perm (numbered names) precedes).map Prod.snd
  have hnames : (numbered names).map Prod.snd = names.filter isRouteDump := by
    rw [numbered, List.map_map]
    exact List.map_id' _
  rwa [hnames] at hsorted

/-- The names are read in the same order, however they are listed. -/
theorem inOrder_congr (h : names.Perm names') : inOrder names = inOrder names' := by
  have hnumbered : (numbered names).Perm (numbered names') := (h.filter _).map _
  unfold inOrder
  rw [comparesPairs_precedes.mergeSort_eq_of_perm hnumbered]

/-- Distinct names are read by ascending index, and by name where the index is the same. -/
theorem pairwise_inOrder (h : names.Nodup) : (inOrder names).Pairwise ReadBefore := by
  have hnodup : (inOrder names).Pairwise (· ≠ ·) :=
    (inOrder_perm names).nodup_iff.mpr (h.filter _)
  have hsorted := comparesPairs_precedes.pairwise (numbered names)
  have hnumber : ∀ e ∈ (numbered names).mergeSort precedes, e.1 = index e.2 := by
    intro e he
    obtain ⟨name, -, rfl⟩ := List.mem_map.mp ((List.mergeSort_perm _ _).mem_iff.mp he)
    rfl
  rw [inOrder, List.pairwise_map] at hnodup ⊢
  refine (hsorted.and hnodup).imp_of_mem ?_
  rintro a b ha hb ⟨hlt | ⟨heq, hle⟩, hne⟩
  · exact .inl (by rwa [← hnumber a ha, ← hnumber b hb])
  · exact .inr ⟨by rw [← hnumber a ha, ← hnumber b hb, heq], Std.lt_of_le_of_ne hle hne⟩

end Loader

namespace Extract

/-- Subnets are compared by identifier and name. -/
theorem comparesPairs_subnetPrecedes : ComparesPairs subnetPrecedes := by
  intro a b
  simp only [subnetPrecedes, Bool.or_eq_true, Bool.and_eq_true, decide_eq_true_eq, beq_iff_eq,
    Bool.not_eq_true', decide_eq_false_iff_not, String.not_lt]

/-- The same subnets are found, in the same order, however the names are listed. -/
theorem subnetsOf_congr {names names' : List String} (h : names.Perm names') :
    subnetsOf names = subnetsOf names' :=
  comparesPairs_subnetPrecedes.mergeSort_eq_of_perm (h.filterMap _)

end Extract

end FabricPaths
