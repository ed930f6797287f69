/-!
# Partition marks

The set of partitions whose traffic an element carries, kept in ascending
order.
-/

namespace FabricPaths

/-- A finite set of partition numbers. -/
structure Marks where
  /-- The numbers, ascending. -/
  members : List Int
  /-- Each number is less than those behind it. -/
  ascending : members.Pairwise (· < ·)

namespace Marks

/-- No mark. -/
def empty : Marks := ⟨[], .nil⟩

instance : EmptyCollection Marks := ⟨empty⟩

instance : Inhabited Marks := ⟨empty⟩

/-- One mark. -/
def singleton (p : Int) : Marks := ⟨[p], by simp⟩

/-- Puts a number in its place among ascending numbers, unless it is there. -/
def place (p : Int) : List Int → List Int
  | [] => [p]
  | q :: qs => if p < q then p :: q :: qs else if p = q then q :: qs else q :: place p qs

/-- The members after a number was put in its place. -/
theorem mem_place {p x : Int} {qs : List Int} : x ∈ place p qs ↔ x = p ∨ x ∈ qs := by
  induction qs with
  | nil => simp [place]
  | cons q qs ih => grind [place]

/-- Placing keeps the numbers ascending. -/
theorem ascending_place {p : Int} {qs : List Int} (h : qs.Pairwise (· < ·)) :
    (place p qs).Pairwise (· < ·) := by
  induction qs with
  | nil => simp [place]
  | cons q qs ih =>
    rw [List.pairwise_cons] at h
    unfold place
    split
    · rename_i hpq
      rw [List.pairwise_cons, List.pairwise_cons]
      refine ⟨fun x hx => ?_, h⟩
      rcases List.mem_cons.1 hx with rfl | hx
      · exact hpq
      · exact Int.lt_trans hpq (h.1 x hx)
    · split
      · exact List.pairwise_cons.2 h
      · rename_i hpq hne
        refine List.pairwise_cons.2 ⟨fun x hx => ?_, ih h.2⟩
        rcases mem_place.1 hx with rfl | hx
        · omega
        · exact h.1 x hx

/-- Adds a mark. -/
def add (m : Marks) (p : Int) : Marks := ⟨place p m.members, ascending_place m.ascending⟩

instance : Membership Int Marks := ⟨fun m p => p ∈ m.members⟩

/-- An added mark is there, and so are the marks from before. -/
@[simp] theorem mem_add {m : Marks} {p x : Int} : x ∈ m.add p ↔ x = p ∨ x ∈ m :=
  mem_place

/-- No mark is a member of the empty set. -/
@[simp] theorem not_mem_empty (x : Int) : ¬ x ∈ (∅ : Marks) := List.not_mem_nil

end Marks

end FabricPaths
