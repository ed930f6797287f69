import FabricPaths.Proofs.OrderedMap
import FabricPaths.Storage.Tree.Writing

/-!
# Storages that differ in some files

Two storages agree but for files at some places, and the first may have nothing at such a
place. A path leads to the same in both, unless it leads to one of these files, or is barred
by it: where the second storage has a file on the way, the first may have nothing.
-/

namespace FabricPaths.Storage

/-- In what two storages may differ. -/
structure Slack where
  /-- The places at which they may have different files. -/
  places : Location → Prop
  /-- Whether the first may have nothing at such a place. -/
  loose : Prop

/-- A storage with the same items but for some files. -/
structure Overlaid (m : Slack) (t t' : Tree) : Prop where
  /-- Where the items differ, there are files. -/
  item : ∀ l, t.item? l = t'.item? l ∨ m.places l ∧ (∃ bytes, t'.item? l = some (.file bytes)) ∧
    ((∃ bytes, t.item? l = some (.file bytes)) ∨ m.loose ∧ t.item? l = none)
  /-- The other places are listed in the same order. -/
  keys : ∀ p : Location → Bool, (m.loose → ∀ l, m.places l → p l = false) →
    t.items.keys.filter p = t'.items.keys.filter p

namespace Tree

/-- What is put at a place lies there, and all else stays. -/
theorem item?_put (t : Tree) {l : Location} (hl : l ≠ []) (item : Item) (x : Location) :
    (t.put l item).item? x = if x = l then some item else t.item? x := by
  cases x with
  | nil => exact (if_neg hl.symm).symm
  | cons name rest => exact OrderedMap.get?_insert t.items l (name :: rest) item

/-- Nothing is put in the place of the root. -/
theorem item?_put_root (t : Tree) (item : Item) (x : Location) :
    (t.put [] item).item? x = t.item? x := by
  unfold item? put
  cases x with
  | nil => rfl
  | cons name rest =>
    rw [OrderedMap.get?_insert, if_neg (List.cons_ne_nil _ _)]

/-- A place is listed once something is put there. -/
theorem keys_put (t : Tree) (l : Location) (item : Item) : (t.put l item).items.keys =
    if l ∈ t.items.keys then t.items.keys else t.items.keys ++ [l] := by
  unfold put
  by_cases hl : l ∈ t.items.keys
  · obtain ⟨old, hold⟩ := OrderedMap.mem_keys_iff.mp hl
    rw [if_pos hl]
    exact OrderedMap.keys_insert_of_get? hold item
  · have hnone : t.items.get? l = none :=
      Option.eq_none_iff_forall_ne_some.mpr fun old hold => hl (OrderedMap.mem_keys_of_get? hold)
    rw [if_neg hl]
    exact OrderedMap.keys_insert_of_new hnone item

/-- The place of the file that a path leads to. -/
def fileAt? (t : Tree) (workingDir : Location) (p : String) : Option Location :=
  match t.find workingDir p with
  | .ok (l, .file _) => some l
  | _ => none

/-- Whether a file is on the way of a path. -/
def isBarred (t : Tree) (workingDir : Location) (p : String) : Bool :=
  match t.find workingDir p with
  | .error (.storage .notDirectory _) => true
  | _ => false

end Tree

namespace Overlaid

variable {m : Slack} {t t' t'' : Tree}

/-- A storage differs from itself in nothing. -/
theorem refl (m : Slack) (t : Tree) : Overlaid m t t := ⟨fun _ => .inl rfl, fun _ _ => rfl⟩

/-- Differences add up. -/
theorem trans (h : Overlaid m t t') (h' : Overlaid m t' t'') : Overlaid m t t'' where
  item := by
    intro l
    rcases h.item l with heq | ⟨hl, ⟨bytes, hbytes⟩, hlower⟩
    · rw [heq]
      exact h'.item l
    · right
      rcases h'.item l with heq' | ⟨-, hupper, -⟩
      · exact ⟨hl, ⟨bytes, heq'.symm.trans hbytes⟩, hlower⟩
      · exact ⟨hl, hupper, hlower⟩
  keys := fun p hp => (h.keys p hp).trans (h'.keys p hp)

/-- Files in place of files can be seen from either side. -/
theorem symm (h : Overlaid ⟨m.places, False⟩ t t') : Overlaid ⟨m.places, False⟩ t' t where
  item := by
    intro l
    rcases h.item l with heq | ⟨hl, hupper, hlower⟩
    · exact .inl heq.symm
    · exact .inr ⟨hl, hlower.resolve_right fun h => h.1, .inl hupper⟩
  keys := fun p hp => (h.keys p hp).symm

/-- Storages that may differ in more differ in no more. -/
theorem weaken {m' : Slack} (h : Overlaid m t t') (hplaces : ∀ l, m.places l → m'.places l)
    (hloose : m.loose → m'.loose) : Overlaid m' t t' where
  item := by
    intro l
    rcases h.item l with heq | ⟨hl, hupper, hlower⟩
    · exact .inl heq
    · exact .inr ⟨hplaces l hl, hupper, hlower.imp id fun h => ⟨hloose h.1, h.2⟩⟩
  keys := fun p hp => h.keys p fun hl l hplace => hp (hloose hl) l (hplaces l hplace)

/-- Files in place of files make no difference that was not allowed for. -/
theorem of_files (h : Overlaid ⟨m.places, False⟩ t t') : Overlaid m t t' :=
  h.weaken (fun _ hl => hl) False.elim

/-- A file that is put in both storages makes no difference. -/
theorem put (h : Overlaid m t t') (l : Location) (bytes : ByteArray) :
    Overlaid m (t.put l (.file bytes)) (t'.put l (.file bytes)) where
  item := by
    intro x
    by_cases hl : l = []
    · subst hl
      rw [Tree.item?_put_root, Tree.item?_put_root]
      exact h.item x
    · rw [Tree.item?_put _ hl, Tree.item?_put _ hl]
      by_cases hx : x = l
      · rw [if_pos hx, if_pos hx]
        exact .inl rfl
      · rw [if_neg hx, if_neg hx]
        exact h.item x
  keys := by
    intro p hp
    have hkeys := h.keys p hp
    have hmem : p l = true → (l ∈ t.items.keys ↔ l ∈ t'.items.keys) := by
      intro hpl
      have hiff : l ∈ t.items.keys.filter p ↔ l ∈ t'.items.keys.filter p := by rw [hkeys]
      rwa [List.mem_filter, List.mem_filter, and_iff_left hpl, and_iff_left hpl] at hiff
    rw [Tree.keys_put, Tree.keys_put]
    cases hpl : p l with
    | true =>
      by_cases hl : l ∈ t.items.keys
      · rw [if_pos hl, if_pos ((hmem hpl).mp hl), hkeys]
      · rw [if_neg hl, if_neg fun hl' => hl ((hmem hpl).mpr hl'), List.filter_append,
          List.filter_append, hkeys]
    | false =>
      have hdrop : ∀ keys : List Location,
          (if l ∈ keys then keys else keys ++ [l]).filter p = keys.filter p := by
        intro keys
        split
        · rfl
        · rw [List.filter_append, List.filter_cons_of_neg (by rw [hpl]; decide), List.filter_nil,
            List.append_nil]
      rw [hdrop, hdrop, hkeys]

/-- A file that is put in the place of a file, or of nothing, is all the difference. -/
theorem of_put {l : Location} (hl : m.places l) (hloose : m.loose)
    (hold : t.item? l = none ∨ ∃ bytes, t.item? l = some (.file bytes)) (bytes : ByteArray) :
    Overlaid m t (t.put l (.file bytes)) where
  item := by
    intro x
    by_cases hroot : l = []
    · subst hroot
      exact .inl (Tree.item?_put_root t _ x).symm
    · rw [Tree.item?_put t hroot]
      by_cases hx : x = l
      · rw [if_pos hx, hx]
        exact .inr ⟨hl, ⟨bytes, rfl⟩, hold.symm.imp id fun h => ⟨hloose, h⟩⟩
      · rw [if_neg hx]
        exact .inl rfl
  keys := by
    intro p hp
    rw [Tree.keys_put]
    split
    · rfl
    · rw [List.filter_append, List.filter_cons_of_neg, List.filter_nil, List.append_nil]
      rw [hp hloose l hl]
      exact Bool.false_ne_true

/-- What is written into an open file changes that file at most. -/
theorem of_writeAt {places : Location → Prop} {l : Location} (hl : places l) (offset : Nat)
    (added : ByteArray) : Overlaid ⟨places, False⟩ t (t.writeAt l offset added) := by
  unfold Tree.writeAt
  cases hitem : t.item? l with
  | none => exact refl _ t
  | some old =>
    cases old with
    | directory => exact refl _ t
    | link target => exact refl _ t
    | file bytes =>
      have hroot : l ≠ [] := by
        rintro rfl
        cases hitem
      have hmem : l ∈ t.items.keys := by
        unfold Tree.item? at hitem
        rw [if_neg (by rwa [List.isEmpty_iff])] at hitem
        exact OrderedMap.mem_keys_of_get? hitem
      constructor
      · intro x
        rw [Tree.item?_put t hroot]
        by_cases hx : x = l
        · rw [if_pos hx, hx]
          exact .inr ⟨hl, ⟨_, rfl⟩, .inl ⟨bytes, hitem⟩⟩
        · rw [if_neg hx]
          exact .inl rfl
      · intro p _
        rw [Tree.keys_put, if_pos hmem]

end Overlaid

/-! ## Where paths lead -/

/-- Where a path leads in the first storage and where in the second, in which it may be
barred by a file. -/
inductive Leads {ε : Type} (m : Slack) (writing : Bool) (barred : ε) :
    Except ε Place → Except ε Place → Prop
  /-- It leads to the same. -/
  | same {x : Except ε Place} : Leads m writing barred x x
  /-- It leads to files of their own. -/
  | onto {l : Location} {bytes bytes' : ByteArray} (differs : m.places l) :
    Leads m writing barred (.ok (.found l (.file bytes))) (.ok (.found l (.file bytes')))
  /-- It leads to a file that the first does not have. -/
  | filled {dir : Location} {name : String} {bytes : ByteArray} (differs : m.places (dir ++ [name]))
    (loose : m.loose) : Leads m writing barred (.ok (.vacant dir name))
      (.ok (.found (dir ++ [name]) (.file bytes)))
  /-- It leads to nothing and is barred. -/
  | barred {e : ε} (loose : m.loose) : Leads m writing barred (.error e) (.error barred)
  /-- It leads to something that could be there and is barred. -/
  | barredAtEnd {dir : Location} {name : String} (loose : m.loose) (reading : writing = false) :
    Leads m writing barred (.ok (.vacant dir name)) (.error barred)

namespace Overlaid

variable {m : Slack} {t t' : Tree}

/-- Steps lead to the same up to the first link if the links do. -/
theorem leads_walkUpTo (h : Overlaid m t t') {writing slashAtEnd : Bool}
    {onLink onLink' : String → Location → List Step → Except StorageCause Place}
    (hlink : ∀ target dir rest,
      Leads m writing .notDirectory (onLink target dir rest) (onLink' target dir rest))
    (dir : Location) (steps : List Step) :
    Leads m writing .notDirectory (t.walkUpTo writing onLink slashAtEnd dir steps)
      (t'.walkUpTo writing onLink' slashAtEnd dir steps) := by
  induction steps generalizing dir with
  | nil => exact .same
  | cons step rest ih =>
    cases step with
    | here => exact ih dir
    | up => exact ih dir.dropLast
    | name s =>
      unfold Tree.walkUpTo
      by_cases hrefused : (rest.isEmpty && slashAtEnd && writing) = true
      · rw [if_pos hrefused, if_pos hrefused]
        exact .same
      rw [if_neg hrefused, if_neg hrefused]
      by_cases hlong : Tree.nameLimit < s.utf8ByteSize
      · rw [if_pos hlong, if_pos hlong]
        exact .same
      rw [if_neg hlong, if_neg hlong]
      rcases h.item (dir ++ [s]) with heq | ⟨hl, ⟨bytes', hupper⟩, hlower⟩
      · rw [heq]
        cases t'.item? (dir ++ [s]) with
        | none => exact .same
        | some item =>
          cases item with
          | directory => exact ih _
          | file bytes => exact .same
          | link target => exact hlink target dir rest
      · rw [hupper]
        rcases hlower with ⟨bytes, hlower⟩ | ⟨hloose, hlower⟩
        · rw [hlower]
          dsimp only
          split
          · exact .onto hl
          · exact .same
        · rw [hlower]
          dsimp only
          cases hend : rest.isEmpty with
          | false => exact .barred hloose
          | true =>
            rw [hend, Bool.true_and, Bool.and_eq_true] at hrefused
            cases hslash : slashAtEnd with
            | false => exact .filled hl hloose
            | true =>
              refine .barredAtEnd hloose ?_
              exact Bool.eq_false_iff.mpr fun hwriting => hrefused ⟨hslash, hwriting⟩

/-- Steps lead to the same. -/
theorem leads_walk (h : Overlaid m t t') (writing : Bool) (linksLeft : Nat) (slashAtEnd : Bool)
    (dir : Location) (steps : List Step) :
    Leads m writing .notDirectory (t.walk writing linksLeft slashAtEnd dir steps)
      (t'.walk writing linksLeft slashAtEnd dir steps) := by
  induction linksLeft generalizing slashAtEnd dir steps with
  | zero => exact h.leads_walkUpTo (fun _ _ _ => .same) dir steps
  | succ n ih => exact h.leads_walkUpTo (fun _ _ _ => ih _ _ _) dir steps

/-- Paths lead to the same. -/
theorem leads_locate (h : Overlaid m t t') (workingDir : Location) (writing : Bool) (p : String) :
    Leads m writing (.storage .notDirectory p) (t.locate workingDir writing p)
      (t'.locate workingDir writing p) := by
  unfold Tree.locate
  by_cases hnull : Tree.holdsNull p = true
  · rw [if_pos hnull, if_pos hnull]
    exact .same
  rw [if_neg hnull, if_neg hnull]
  by_cases hempty : p.isEmpty = true
  · rw [if_pos hempty, if_pos hempty]
    exact .same
  rw [if_neg hempty, if_neg hempty]
  by_cases hlong : Tree.pathLimit ≤ p.utf8ByteSize
  · rw [if_pos hlong, if_pos hlong]
    exact .same
  rw [if_neg hlong, if_neg hlong]
  have hwalk := h.leads_walk writing Tree.linkLimit (Route.ofText p).slashAtEnd
    (if (Route.ofText p).rooted then [] else workingDir) (Route.ofText p).steps
  dsimp only
  generalize t.walk writing _ _ _ _ = x at hwalk ⊢
  generalize t'.walk writing _ _ _ _ = x' at hwalk ⊢
  cases hwalk with
  | same => exact .same
  | onto differs => exact .onto differs
  | filled differs loose => exact .filled differs loose
  | barred loose => exact .barred loose
  | barredAtEnd loose reading => exact .barredAtEnd loose reading

/-- What a path leads to is the same, unless a file is in its place or on its way. -/
inductive Finds (m : Slack) (p : String) :
    Except Failure (Location × Item) → Except Failure (Location × Item) → Prop
  /-- It is the same. -/
  | same {x : Except Failure (Location × Item)} : Finds m p x x
  /-- It is a file of its own. -/
  | onto {l : Location} {bytes bytes' : ByteArray} (differs : m.places l) :
    Finds m p (.ok (l, .file bytes)) (.ok (l, .file bytes'))
  /-- It is a file that the first does not have. -/
  | filled {l : Location} {bytes : ByteArray} (differs : m.places l) (loose : m.loose) :
    Finds m p (.error (.storage .noEntry p)) (.ok (l, .file bytes))
  /-- It is nothing, and the path is barred. -/
  | barred {e : Failure} (loose : m.loose) :
    Finds m p (.error e) (.error (.storage .notDirectory p))

/-- Paths find the same. -/
theorem finds (h : Overlaid m t t') (workingDir : Location) (p : String) :
    Finds m p (t.find workingDir p) (t'.find workingDir p) := by
  unfold Tree.find
  have hleads := h.leads_locate workingDir false p
  generalize t.locate workingDir false p = x at hleads ⊢
  generalize t'.locate workingDir false p = x' at hleads ⊢
  cases hleads with
  | same => exact .same
  | onto differs => exact .onto differs
  | filled differs loose => exact .filled differs loose
  | barred loose => exact .barred loose
  | barredAtEnd loose reading => exact .barred loose

/-- With files in place of files, the same paths are barred. -/
theorem isBarred_eq (h : Overlaid ⟨m.places, False⟩ t t') (workingDir : Location) (p : String) :
    t.isBarred workingDir p = t'.isBarred workingDir p := by
  unfold Tree.isBarred
  have hfinds := h.finds workingDir p
  generalize t.find workingDir p = x at hfinds ⊢
  generalize t'.find workingDir p = x' at hfinds ⊢
  cases hfinds with
  | same => rfl
  | onto differs => rfl
  | filled differs loose => exact loose.elim
  | barred loose => exact loose.elim

/-- A file that is opened for writing lies at the same place, unless it cannot be opened. -/
theorem placeToWrite (h : Overlaid m t t') (workingDir : Location) (p : String) :
    t.placeToWrite workingDir p = t'.placeToWrite workingDir p ∨
      m.loose ∧ (∃ e, t.placeToWrite workingDir p = .error e) ∧
        ∃ e, t'.placeToWrite workingDir p = .error e := by
  unfold Tree.placeToWrite
  have hleads := h.leads_locate workingDir true p
  generalize t.locate workingDir true p = x at hleads ⊢
  generalize t'.locate workingDir true p = x' at hleads ⊢
  cases hleads with
  | same => exact .inl rfl
  | onto differs => exact .inl rfl
  | filled differs loose => exact .inl rfl
  | barred loose => exact .inr ⟨loose, ⟨_, rfl⟩, ⟨_, rfl⟩⟩
  | barredAtEnd loose reading => cases reading

/-- With files in place of files, a file is written at the same place. -/
theorem placeToWrite_eq {places : Location → Prop} (h : Overlaid ⟨places, False⟩ t t')
    (workingDir : Location) (p : String) :
    t.placeToWrite workingDir p = t'.placeToWrite workingDir p :=
  (h.placeToWrite workingDir p).resolve_right fun h => h.1

/-- Other items than those files are the same. -/
theorem item?_eq (h : Overlaid m t t') {l : Location} (hl : ¬ m.places l) :
    t.item? l = t'.item? l :=
  (h.item l).resolve_right fun h => hl h.1

end Overlaid

end FabricPaths.Storage
