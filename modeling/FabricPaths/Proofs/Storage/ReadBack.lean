import FabricPaths.Proofs.Storage.Overlay

/-!
# What was written can be read

A path by which a file can be written leads to it once it is written. What is read by the
path is then what was written last.
-/

namespace FabricPaths.Storage

/-- The place is that of a file that the storage has, or of something that it does not have. -/
def Place.Holds (t : Tree) : Place → Prop
  | .found l (.file bytes) => t.item? l = some (.file bytes)
  | .found _ _ => True
  | .vacant dir name => t.item? (dir ++ [name]) = none

namespace Tree

variable {t : Tree}

/-- Steps lead to what is there up to the first link, if the links do. -/
theorem walkUpTo_holds {writing slashAtEnd : Bool}
    {onLink : String → Location → List Step → Except StorageCause Place}
    (hlink : ∀ target dir rest place, onLink target dir rest = .ok place → place.Holds t)
    {dir : Location} {steps : List Step} {place : Place}
    (h : t.walkUpTo writing onLink slashAtEnd dir steps = .ok place) : place.Holds t := by
  induction steps generalizing dir with
  | nil =>
    cases h
    trivial
  | cons step rest ih =>
    cases step with
    | here => exact ih h
    | up => exact ih h
    | name s =>
      unfold walkUpTo at h
      by_cases hrefused : (rest.isEmpty && slashAtEnd && writing) = true
      · rw [if_pos hrefused] at h
        cases h
      rw [if_neg hrefused] at h
      by_cases hlong : nameLimit < s.utf8ByteSize
      · rw [if_pos hlong] at h
        cases h
      rw [if_neg hlong] at h
      cases hitem : t.item? (dir ++ [s]) with
      | none =>
        rw [hitem] at h
        dsimp only at h
        split at h
        · cases h
          exact hitem
        · cases h
      | some item =>
        rw [hitem] at h
        cases item with
        | directory => exact ih h
        | link target => exact hlink _ _ _ _ h
        | file bytes =>
          dsimp only at h
          split at h
          · cases h
            exact hitem
          · cases h

/-- Steps lead to what is there. -/
theorem walk_holds {writing : Bool} {linksLeft : Nat} {slashAtEnd : Bool} {dir : Location}
    {steps : List Step} {place : Place}
    (h : t.walk writing linksLeft slashAtEnd dir steps = .ok place) : place.Holds t := by
  induction linksLeft generalizing slashAtEnd dir steps place with
  | zero =>
    refine walkUpTo_holds ?_ h
    intro _ _ _ _ hlink
    cases hlink
  | succ n ih => exact walkUpTo_holds (fun _ _ _ _ hlink => ih hlink) h

/-- Steps that lead somewhere in writing lead there in reading, if the links do. -/
theorem walkUpTo_reading {slashAtEnd : Bool}
    {onLink onLink' : String → Location → List Step → Except StorageCause Place}
    (hlink : ∀ target dir rest place, onLink target dir rest = .ok place →
      onLink' target dir rest = .ok place)
    {dir : Location} {steps : List Step} {place : Place}
    (h : t.walkUpTo true onLink slashAtEnd dir steps = .ok place) :
    t.walkUpTo false onLink' slashAtEnd dir steps = .ok place := by
  induction steps generalizing dir with
  | nil => exact h
  | cons step rest ih =>
    cases step with
    | here => exact ih h
    | up => exact ih h
    | name s =>
      unfold walkUpTo at h ⊢
      by_cases hrefused : (rest.isEmpty && slashAtEnd && true) = true
      · rw [if_pos hrefused] at h
        cases h
      rw [if_neg hrefused] at h
      rw [Bool.and_false, if_neg Bool.false_ne_true]
      by_cases hlong : nameLimit < s.utf8ByteSize
      · rw [if_pos hlong] at h
        cases h
      rw [if_neg hlong] at h ⊢
      cases hitem : t.item? (dir ++ [s]) with
      | none =>
        rw [hitem] at h
        exact h
      | some item =>
        rw [hitem] at h
        cases item with
        | directory => exact ih h
        | link target => exact hlink _ _ _ _ h
        | file bytes => exact h

/-- Steps that lead somewhere in writing lead there in reading. -/
theorem walk_reading {linksLeft : Nat} {slashAtEnd : Bool} {dir : Location} {steps : List Step}
    {place : Place} (h : t.walk true linksLeft slashAtEnd dir steps = .ok place) :
    t.walk false linksLeft slashAtEnd dir steps = .ok place := by
  induction linksLeft generalizing slashAtEnd dir steps place with
  | zero =>
    refine walkUpTo_reading ?_ h
    intro _ _ _ _ hlink
    cases hlink
  | succ n ih => exact walkUpTo_reading (fun _ _ _ _ hlink => ih hlink) h

/-- A path leads somewhere exactly if its steps do. -/
theorem locate_eq_ok_iff {workingDir : Location} {writing : Bool} {p : String} {place : Place} :
    t.locate workingDir writing p = .ok place ↔
      holdsNull p = false ∧ p.isEmpty = false ∧ p.utf8ByteSize < pathLimit ∧
        t.walk writing linkLimit (Route.ofText p).slashAtEnd
          (if (Route.ofText p).rooted then [] else workingDir) (Route.ofText p).steps =
            .ok place := by
  unfold locate
  cases holdsNull p with
  | true => simp
  | false =>
    cases p.isEmpty with
    | true => simp
    | false =>
      by_cases hlong : pathLimit ≤ p.utf8ByteSize
      · simp [hlong, Nat.not_lt_of_le hlong]
      · rw [if_neg Bool.false_ne_true, if_neg Bool.false_ne_true, if_neg hlong]
        dsimp only
        cases t.walk writing linkLimit (Route.ofText p).slashAtEnd
            (if (Route.ofText p).rooted then [] else workingDir) (Route.ofText p).steps with
        | ok place' => simp [Nat.lt_of_not_le hlong]
        | error e => simp

/-- A path leads to what is there. -/
theorem locate_holds {workingDir : Location} {writing : Bool} {p : String} {place : Place}
    (h : t.locate workingDir writing p = .ok place) : place.Holds t :=
  walk_holds (locate_eq_ok_iff.mp h).2.2.2

/-- A path that leads somewhere in writing leads there in reading. -/
theorem locate_reading {workingDir : Location} {p : String} {place : Place}
    (h : t.locate workingDir true p = .ok place) : t.locate workingDir false p = .ok place := by
  obtain ⟨hnull, hempty, hlength, hwalk⟩ := locate_eq_ok_iff.mp h
  exact locate_eq_ok_iff.mpr ⟨hnull, hempty, hlength, walk_reading hwalk⟩

/-- A file can be written at a place that its path leads to. -/
theorem placeToWrite_eq_ok_iff {workingDir : Location} {p : String} {l : Location} :
    t.placeToWrite workingDir p = .ok l ↔
      (∃ bytes, t.locate workingDir true p = .ok (.found l (.file bytes))) ∨
        ∃ dir name, t.locate workingDir true p = .ok (.vacant dir name) ∧ l = dir ++ [name] := by
  unfold placeToWrite
  rcases t.locate workingDir true p with e | place
  · simp [bind, Except.bind]
  · cases place with
    | vacant dir name => simp [bind, Except.bind, pure, Except.pure, eq_comm]
    | found l' item => cases item <;> simp [bind, Except.bind, pure, Except.pure]

/-- Where a file can be written, there is a file or nothing. -/
theorem item?_of_placeToWrite {workingDir : Location} {p : String} {l : Location}
    (h : t.placeToWrite workingDir p = .ok l) :
    t.item? l = none ∨ ∃ bytes, t.item? l = some (.file bytes) := by
  rcases placeToWrite_eq_ok_iff.mp h with ⟨bytes, hfound⟩ | ⟨dir, name, hvacant, rfl⟩
  · exact .inr ⟨bytes, locate_holds hfound⟩
  · exact .inl (locate_holds hvacant)

/-- A file is never written in the place of the root. -/
theorem ne_nil_of_placeToWrite {workingDir : Location} {p : String} {l : Location}
    (h : t.placeToWrite workingDir p = .ok l) : l ≠ [] := by
  rintro rfl
  rcases item?_of_placeToWrite h with hnone | ⟨bytes, hfile⟩
  · cases hnone
  · cases hfile

/-- Once a file is written, its path leads to it. -/
theorem locate_put {workingDir : Location} {p : String} {l : Location}
    (h : t.placeToWrite workingDir p = .ok l) (bytes : ByteArray) :
    (t.put l (.file bytes)).locate workingDir true p = .ok (.found l (.file bytes)) := by
  have hitem : (t.put l (.file bytes)).item? l = some (.file bytes) := by
    rw [item?_put t (ne_nil_of_placeToWrite h), if_pos rfl]
  have hoverlaid : Overlaid ⟨fun x => x = l, True⟩ t (t.put l (.file bytes)) :=
    Overlaid.of_put rfl trivial (item?_of_placeToWrite h) bytes
  have hleads := hoverlaid.leads_locate workingDir true p
  have hholds : ∀ place, (t.put l (.file bytes)).locate workingDir true p = .ok place →
      place.Holds (t.put l (.file bytes)) := fun place h => locate_holds h
  generalize (t.put l (.file bytes)).locate workingDir true p = x at hleads hholds ⊢
  have hbytes : ∀ bytes', (Place.found l (.file bytes')).Holds (t.put l (.file bytes)) →
      bytes' = bytes := by
    intro bytes' hholds'
    cases hitem.symm.trans hholds'
    rfl
  rcases placeToWrite_eq_ok_iff.mp h with ⟨old, hfound⟩ | ⟨dir, name, hvacant, rfl⟩
  · rw [hfound] at hleads
    cases hleads with
    | same => rw [hbytes old (hholds _ rfl)]
    | onto differs => rw [hbytes _ (hholds _ rfl)]
  · rw [hvacant] at hleads
    cases hleads with
    | same => cases hitem.symm.trans (hholds _ rfl)
    | filled differs loose => rw [hbytes _ (hholds _ rfl)]
    | barredAtEnd loose reading => cases reading

/-- Once a file is written, it is written again at the same place. -/
theorem placeToWrite_put {workingDir : Location} {p : String} {l : Location}
    (h : t.placeToWrite workingDir p = .ok l) (bytes : ByteArray) :
    (t.put l (.file bytes)).placeToWrite workingDir p = .ok l :=
  placeToWrite_eq_ok_iff.mpr (.inl ⟨bytes, locate_put h bytes⟩)

/-- Of two files put at a place, the later one counts. -/
theorem put_put (t : Tree) (l : Location) (old item : Item) :
    (t.put l old).put l item = t.put l item := by
  unfold put
  rw [OrderedMap.insert_insert]

/-- What was written is what is read. -/
theorem read_put {workingDir : Location} {p : String} {l : Location}
    (h : t.placeToWrite workingDir p = .ok l) (bytes : ByteArray) :
    (t.put l (.file bytes)).read workingDir p = .ok bytes := by
  unfold read find
  rw [locate_reading (locate_put h bytes)]
  rfl

end Tree

end FabricPaths.Storage
