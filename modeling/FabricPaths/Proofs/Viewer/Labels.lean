import FabricPaths.Proofs.Event
import FabricPaths.Viewer.Label

/-!
# Which labels can be written

A label shows figures of an event. It cannot be written if one of them is too long.
-/

namespace FabricPaths.Viewer.Label

variable {e : Event}

/-- The piece about walks that stopped short can be written exactly if their number can. -/
theorem missing_cases (e : Event) :
    e.pathsMissing.TooLong ∧ missing e = .error .numberTooLong ∨
      ¬ e.pathsMissing.TooLong ∧ ∃ pieces, missing e = .ok pieces := by
  unfold missing
  by_cases hlong : e.pathsMissing.TooLong
  · rw [if_neg (Figure.value_ne_zero_of_tooLong hlong), Figure.text_of_tooLong hlong]
    exact .inl ⟨hlong, rfl⟩
  · refine .inr ⟨hlong, ?_⟩
    split
    · exact ⟨_, rfl⟩
    · obtain ⟨text, htext⟩ := Figure.exists_text hlong
      rw [htext]
      exact ⟨_, rfl⟩

/-- The label of a subnet that is done with can be written exactly if its figures can. -/
theorem subnetDone_cases (e : Event) :
    (∃ f ∈ e.subnetFigures, f.TooLong) ∧ subnetDone e = .error .numberTooLong ∨
      (∀ f ∈ e.subnetFigures, ¬ f.TooLong) ∧ ∃ l, subnetDone e = .ok l := by
  unfold subnetDone Event.subnetFigures
  simp only [List.mem_cons, List.not_mem_nil, or_false, exists_eq_or_imp, exists_eq_left,
    forall_eq_or_imp, forall_eq]
  by_cases hnodes : e.nodes.TooLong
  · rw [Figure.text_of_tooLong hnodes]
    exact .inl ⟨.inl hnodes, rfl⟩
  obtain ⟨nodes, hnodesText⟩ := Figure.exists_text hnodes
  by_cases hlinks : e.links.TooLong
  · rw [hnodesText, Figure.text_of_tooLong hlinks]
    exact .inl ⟨.inr (.inl hlinks), rfl⟩
  obtain ⟨links, hlinksText⟩ := Figure.exists_text hlinks
  by_cases hpaths : e.pathsComplete.TooLong
  · rw [hnodesText, hlinksText, Figure.text_of_tooLong hpaths]
    exact .inl ⟨.inr (.inr (.inl hpaths)), rfl⟩
  obtain ⟨paths, hpathsText⟩ := Figure.exists_text hpaths
  rw [hnodesText, hlinksText, hpathsText]
  rcases missing_cases e with ⟨hlong, hmissing⟩ | ⟨hshort, pieces, hmissing⟩
  · rw [hmissing]
    exact .inl ⟨.inr (.inr (.inr hlong)), rfl⟩
  · rw [hmissing]
    exact .inr ⟨⟨hnodes, hlinks, hpaths, hshort⟩, _, rfl⟩

/-- The label of a partition can be written exactly if its number can. -/
theorem partitionFound_cases (e : Event) :
    e.partitionIndex.TooLong ∧ partitionFound e = .error .numberTooLong ∨
      ¬ e.partitionIndex.TooLong ∧ ∃ l, partitionFound e = .ok l := by
  unfold partitionFound
  by_cases hlong : e.partitionIndex.TooLong
  · rw [Figure.text_of_tooLong hlong]
    exact .inl ⟨hlong, rfl⟩
  · obtain ⟨text, htext⟩ := Figure.exists_text hlong
    rw [htext]
    exact .inr ⟨hlong, _, rfl⟩

/-- A partition with a number and so many members. -/
def numbered (index : Int) (name : String) (members : Nat) : Label :=
  .ofPieces [
    (s!"[{index}] ", "#555555"),
    ("'" ++ name ++ "'", "bold"),
    (s!"  {members} hosts", figureStyle)]

end FabricPaths.Viewer.Label
