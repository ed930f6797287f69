import FabricPaths.Path.AllPairs
import FabricPaths.Proofs.OrderedMap

/-!
# Counting walks

One more walk is counted either among the complete walks or among those that stopped short.
Counting several walks counts for each way to end the walks that ended so.
-/

namespace FabricPaths.StatusCounts

/-- The counts that are not those of complete walks, added up. -/
def stray (es : List (PathStatus × Int)) : Int :=
  ((es.filter fun e => decide (e.1 ≠ .complete)).map (·.2)).foldr (· + ·) 0

/-- An entry adds its count, unless it is that of complete walks. -/
theorem stray_cons (status : PathStatus) (n : Int) (es : List (PathStatus × Int)) :
    stray ((status, n) :: es) = (if status = .complete then 0 else n) + stray es := by
  unfold stray
  rw [List.filter_cons]
  by_cases h : status = .complete
  · rw [if_neg (by simpa using h), if_pos h, Int.zero_add]
  · rw [if_pos (by simpa using h), if_neg h]
    rfl

/-- One more walk is counted as stray, unless it is complete. -/
theorem stray_place (status : PathStatus) (es : List (PathStatus × Int)) :
    stray (OrderedMap.place status ((OrderedMap.lookup status es).getD 0 + 1) es) =
      stray es + if status = .complete then 0 else 1 := by
  induction es with
  | nil =>
    rw [OrderedMap.lookup, OrderedMap.place, stray_cons]
    exact Int.add_comm _ _
  | cons e es ih =>
    obtain ⟨status', n⟩ := e
    by_cases h : status' = status
    · rw [OrderedMap.lookup, OrderedMap.place, if_pos h, if_pos h, stray_cons, stray_cons, h,
        Option.getD_some]
      split <;> omega
    · rw [OrderedMap.lookup, OrderedMap.place, if_neg h, if_neg h, stray_cons, stray_cons, ih,
        Int.add_assoc]

/-- One more walk is counted as complete if it is. -/
theorem complete_count (c : StatusCounts) (status : PathStatus) :
    (c.count status).complete = c.complete + if status = .complete then 1 else 0 := by
  unfold complete count OrderedMap.getD
  rw [OrderedMap.get?_insert]
  by_cases h : status = .complete
  · rw [if_pos h.symm, if_pos h, Option.getD_some, h]
  · rw [if_neg fun heq => h heq.symm, if_neg h, Int.add_zero]

/-- One more walk is counted as short if it is not complete. -/
theorem missing_count (c : StatusCounts) (status : PathStatus) :
    (c.count status).missing = c.missing + if status = .complete then 0 else 1 :=
  stray_place status c.entries

/-- One more walk is counted among all walks. -/
theorem total_count (c : StatusCounts) (status : PathStatus) :
    (c.count status).total = c.total + 1 := by
  have hplace : ∀ es : List (PathStatus × Int),
      ((OrderedMap.place status ((OrderedMap.lookup status es).getD 0 + 1) es).map
        Prod.snd).foldr (· + ·) 0 = (es.map Prod.snd).foldr (· + ·) 0 + 1 := by
    intro es
    induction es with
    | nil => rfl
    | cons e es ih =>
      obtain ⟨status', n⟩ := e
      by_cases h : status' = status
      · rw [OrderedMap.lookup, OrderedMap.place, if_pos h, if_pos h, Option.getD_some]
        simp only [List.map_cons, List.foldr_cons]
        omega
      · rw [OrderedMap.lookup, OrderedMap.place, if_neg h, if_neg h]
        simp only [List.map_cons, List.foldr_cons, ih]
        omega
  exact hplace c.entries

/-- A walk is complete or stopped short. -/
theorem total_eq (c : StatusCounts) : c.total = c.complete + c.missing := by
  have hsum : ∀ es : List (PathStatus × Int), (es.map Prod.fst).Nodup →
      (es.map Prod.snd).foldr (· + ·) 0 = (OrderedMap.lookup .complete es).getD 0 + stray es := by
    intro es hnodup
    induction es with
    | nil => rfl
    | cons e es ih =>
      obtain ⟨status, n⟩ := e
      obtain ⟨hnew, hrest⟩ := List.nodup_cons.mp hnodup
      rw [List.map_cons, List.foldr_cons, ih hrest, stray_cons, OrderedMap.lookup]
      by_cases h : status = .complete
      · have hnone : OrderedMap.lookup .complete es = none := by
          rw [Option.eq_none_iff_forall_ne_some]
          intro v hv
          exact hnew (List.mem_map.mpr ⟨_, (OrderedMap.mem_iff_lookup hrest).mpr hv, h.symm⟩)
        rw [if_pos h, if_pos h, hnone, Option.getD_some, Option.getD_none]
      · rw [if_neg h, if_neg h]
        omega
  exact hsum c.entries c.nodup_keys

/-! ## Several walks -/

/-- Counts walks that ended in some ways. -/
def countAll (c : StatusCounts) (statuses : List PathStatus) : StatusCounts :=
  statuses.foldl count c

variable (c : StatusCounts) (statuses : List PathStatus)

/-- Each way to end has the number of walks that ended so added to its count, and no count if
no walk ever ended so. -/
theorem get?_countAll (status : PathStatus) : (c.countAll statuses).get? status =
    if statuses.count status = 0 then c.get? status
    else some (c.getD status 0 + statuses.count status) := by
  induction statuses generalizing c with
  | nil => rfl
  | cons first rest ih =>
    refine (ih (c.count first)).trans ?_
    have hfirst : (c.count first).get? status =
        if status = first then some (c.getD status 0 + 1) else c.get? status := by
      rw [count, OrderedMap.get?_insert]
      by_cases h : status = first
      · rw [if_pos h, if_pos h, h]
      · rw [if_neg h, if_neg h]
    rw [OrderedMap.getD, hfirst, List.count_cons]
    by_cases h : status = first
    · rw [if_pos h, if_pos (beq_iff_eq.mpr h.symm), if_neg (Nat.succ_ne_zero _)]
      by_cases hrest : rest.count status = 0
      · rw [if_pos hrest, hrest]
        rfl
      · rw [if_neg hrest, Option.getD_some]
        congr 1
        omega
    · rw [if_neg h, if_neg (fun heq => h (beq_iff_eq.mp heq).symm), Nat.add_zero]
      rfl

/-- All walks are counted. -/
theorem total_countAll : (c.countAll statuses).total = c.total + statuses.length := by
  induction statuses generalizing c with
  | nil => exact (Int.add_zero _).symm
  | cons first rest ih =>
    refine (ih (c.count first)).trans ?_
    rw [total_count, List.length_cons]
    omega

/-- Each way to end has the number of walks that ended so added to its number. -/
theorem getD_countAll (status : PathStatus) :
    (c.countAll statuses).getD status 0 = c.getD status 0 + statuses.count status := by
  rw [OrderedMap.getD, get?_countAll]
  by_cases h : statuses.count status = 0
  · rw [if_pos h, h]
    exact (Int.add_zero _).symm
  · rw [if_neg h, Option.getD_some]

end FabricPaths.StatusCounts
