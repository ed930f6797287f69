import Mathlib.Data.List.Nodup
import Mathlib.Data.List.Perm.Basic
import FabricPaths.Proofs.OrderedMap
import FabricPaths.Storage.Tree.Writing

/-!
# Storages in another order

A storage lists its items in some order, which shows in the names that are listed for a directory
and nowhere else: paths lead to the same, whatever the order. Each order of the names in a
directory is that of the same items in some order.
-/

namespace FabricPaths.Storage.Tree

/-- The storages have the same items, perhaps in another order. -/
def Rearranged (t t' : Tree) : Prop := t.items.entries.Perm t'.items.entries

variable {t t' : Tree}

/-- Storages have the same items exactly if the same lies at each place. -/
theorem rearranged_iff : t.Rearranged t' ↔ ∀ l, t.items.get? l = t'.items.get? l := by
  have hnodup : ∀ t : Tree, t.items.entries.Nodup := fun t => .of_map _ t.items.nodup_keys
  unfold Rearranged
  rw [List.perm_ext_iff_of_nodup (hnodup t) (hnodup t')]
  constructor
  · intro h l
    refine Option.ext fun item => ?_
    rw [← OrderedMap.mem_entries_iff, ← OrderedMap.mem_entries_iff]
    exact h (l, item)
  · rintro h ⟨l, item⟩
    rw [OrderedMap.mem_entries_iff, OrderedMap.mem_entries_iff, h l]

namespace Rearranged

/-- The same lies at each place. -/
theorem item?_eq (h : t.Rearranged t') (l : Location) : t.item? l = t'.item? l := by
  unfold item?
  rw [rearranged_iff.mp h l]

/-- What is put in both storages makes no difference. -/
theorem put (h : t.Rearranged t') (l : Location) (item : Item) :
    (t.put l item).Rearranged (t'.put l item) := by
  refine rearranged_iff.mpr fun x => ?_
  unfold Tree.put
  rw [OrderedMap.get?_insert, OrderedMap.get?_insert, rearranged_iff.mp h x]

/-- What is written into an open file makes no difference. -/
theorem writeAt (h : t.Rearranged t') (l : Location) (offset : Nat) (added : ByteArray) :
    (t.writeAt l offset added).Rearranged (t'.writeAt l offset added) := by
  unfold Tree.writeAt
  rw [h.item?_eq l]
  cases t'.item? l with
  | none => exact h
  | some item =>
    cases item with
    | file bytes => exact h.put l _
    | directory => exact h
    | link target => exact h

/-! ## Where paths lead -/

/-- Steps lead to the same up to the first link if the links do. -/
theorem walkUpTo_eq (h : t.Rearranged t') {writing slashAtEnd : Bool}
    {onLink onLink' : String → Location → List Step → Except StorageCause Place}
    (hlink : ∀ target dir rest, onLink target dir rest = onLink' target dir rest)
    (dir : Location) (steps : List Step) :
    t.walkUpTo writing onLink slashAtEnd dir steps =
      t'.walkUpTo writing onLink' slashAtEnd dir steps := by
  induction steps generalizing dir with
  | nil => rfl
  | cons step rest ih =>
    cases step with
    | here => exact ih dir
    | up => exact ih dir.dropLast
    | name s =>
      unfold walkUpTo
      rw [h.item?_eq]
      simp only [ih, hlink]

/-- Steps lead to the same. -/
theorem walk_eq (h : t.Rearranged t') (writing : Bool) (linksLeft : Nat) (slashAtEnd : Bool)
    (dir : Location) (steps : List Step) :
    t.walk writing linksLeft slashAtEnd dir steps =
      t'.walk writing linksLeft slashAtEnd dir steps := by
  induction linksLeft generalizing slashAtEnd dir steps with
  | zero => exact h.walkUpTo_eq (fun _ _ _ => rfl) dir steps
  | succ n ih => exact h.walkUpTo_eq (fun _ _ _ => ih _ _ _) dir steps

/-- Paths lead to the same. -/
theorem find_eq (h : t.Rearranged t') (workingDir : Location) (p : String) :
    t.find workingDir p = t'.find workingDir p := by
  unfold find locate
  simp only [h.walk_eq]

/-- Files have the same lines. -/
theorem readLines_eq (h : t.Rearranged t') (workingDir : Location) (p : String) :
    t.readLines workingDir p = t'.readLines workingDir p := by
  unfold Tree.readLines Tree.read
  rw [h.find_eq]

end Rearranged

/-! ## Listings -/

/-- A place has a name in a directory exactly if it lies there by this name. -/
theorem entryOf_eq_some_iff {dir l : Location} {s : String} :
    entryOf dir l = some s ↔ l = dir ++ [s] := by
  unfold entryOf
  constructor
  · intro h
    split at h
    · rename_i last hlast
      obtain ⟨hdir, hs⟩ := Option.ite_none_right_eq_some.mp h
      obtain ⟨before, rfl⟩ := List.getLast?_eq_some_iff.mp hlast
      rw [List.dropLast_concat] at hdir
      rw [hdir, Option.some.inj hs]
    · cases h
  · rintro rfl
    rw [List.getLast?_concat, List.dropLast_concat]
    exact if_pos rfl

/-- The names in a directory. -/
def names (t : Tree) (dir : Location) : List String := t.items.keys.filterMap (entryOf dir)

/-- The names in a directory are distinct. -/
theorem nodup_names (t : Tree) (dir : Location) : (t.names dir).Nodup := by
  refine List.Nodup.filterMap ?_ t.items.nodup_keys
  intro l l' s hl hl'
  rw [entryOf_eq_some_iff.mp hl, entryOf_eq_some_iff.mp hl']

/-- A directory is listed with its names. -/
theorem list_eq (t : Tree) (workingDir : Location) (p : String) :
    t.list workingDir p = (t.directory workingDir p).map t.names := by
  unfold list
  cases t.directory workingDir p with
  | ok dir => rfl
  | error e => rfl

/-- What can be listed are directories. -/
theorem exists_list_iff {workingDir : Location} {p : String} :
    (∃ listed, t.list workingDir p = .ok listed) ↔
      ∃ l, t.find workingDir p = .ok (l, .directory) := by
  unfold list directory
  cases t.find workingDir p with
  | error e => exact iff_of_false nofun nofun
  | ok found =>
    obtain ⟨l, item⟩ := found
    cases item with
    | directory => exact iff_of_true ⟨_, rfl⟩ ⟨l, rfl⟩
    | file bytes => exact iff_of_false nofun nofun
    | link target => exact iff_of_false nofun nofun

/-- What is told of a list can be put in each order by another order of the list. -/
theorem exists_perm_filterMap {α γ : Type} {f : α → Option γ} {xs : List α} {ys zs : List γ}
    (h : ys.Perm zs) (hxs : xs.filterMap f = ys) : ∃ xs', xs.Perm xs' ∧ xs'.filterMap f = zs := by
  induction h generalizing xs with
  | nil => exact ⟨xs, .refl xs, hxs⟩
  | cons y _ ih =>
    obtain ⟨before, x, behind, rfl, hbefore, hx, hbehind⟩ := List.filterMap_eq_cons_iff.mp hxs
    obtain ⟨behind', hperm, rfl⟩ := ih hbehind
    refine ⟨before ++ x :: behind', (hperm.cons x).append_left before, ?_⟩
    rw [List.filterMap_append, List.filterMap_eq_nil_iff.mpr hbefore,
      List.filterMap_cons_some hx, List.nil_append]
  | swap y y' ys =>
    obtain ⟨before, x, rest, rfl, hbefore, hx, hrest⟩ := List.filterMap_eq_cons_iff.mp hxs
    obtain ⟨between, x', behind, rfl, hbetween, hx', hbehind⟩ :=
      List.filterMap_eq_cons_iff.mp hrest
    refine ⟨before ++ (between ++ x' :: x :: behind), ?_, ?_⟩
    · have hmiddle : (x :: (between ++ x' :: behind)).Perm (between ++ x :: x' :: behind) :=
        List.perm_middle.symm
      exact (hmiddle.trans ((List.Perm.swap x' x behind).append_left between)).append_left before
    · rw [List.filterMap_append, List.filterMap_eq_nil_iff.mpr hbefore, List.filterMap_append,
        List.filterMap_eq_nil_iff.mpr hbetween, List.filterMap_cons_some hx',
        List.filterMap_cons_some hx, hbehind]
      rfl
  | trans _ _ ih ih' =>
    obtain ⟨xs', hperm, hxs'⟩ := ih hxs
    obtain ⟨xs'', hperm', hxs''⟩ := ih' hxs'
    exact ⟨xs'', hperm.trans hperm', hxs''⟩

/-- The same names are in a directory, perhaps in another order. -/
theorem Rearranged.names_perm (h : t.Rearranged t') (dir : Location) :
    (t.names dir).Perm (t'.names dir) :=
  (h.map Prod.fst).filterMap _

/-- The same directories are there. -/
theorem Rearranged.directory_eq (h : t.Rearranged t') (workingDir : Location) (p : String) :
    t.directory workingDir p = t'.directory workingDir p := by
  unfold directory
  rw [h.find_eq]

/-- The same directories can be listed, perhaps in another order. -/
theorem Rearranged.exists_list (h : t.Rearranged t') {workingDir : Location} {p : String}
    {listed : List String} (hlist : t.list workingDir p = .ok listed) :
    ∃ listed', t'.list workingDir p = .ok listed' ∧ listed.Perm listed' := by
  rw [list_eq] at hlist
  rw [list_eq, ← h.directory_eq]
  cases hdir : t.directory workingDir p with
  | error e =>
    rw [hdir] at hlist
    cases hlist
  | ok dir =>
    rw [hdir] at hlist
    cases hlist
    exact ⟨t'.names dir, rfl, h.names_perm dir⟩

/-- The names in a directory are in each order those in another order of the storage. -/
theorem exists_rearranged (t : Tree) {dir : Location} {other : List String}
    (h : (t.names dir).Perm other) : ∃ t', t.Rearranged t' ∧ t'.names dir = other := by
  have hnames : t.items.entries.filterMap (fun e => entryOf dir e.1) = t.names dir := by
    rw [names, OrderedMap.keys, List.filterMap_map]
    rfl
  obtain ⟨entries, hperm, hentries⟩ := exists_perm_filterMap h hnames
  have hnodup : (entries.map Prod.fst).Nodup :=
    (hperm.map Prod.fst).nodup_iff.mp t.items.nodup_keys
  refine ⟨⟨⟨entries, hnodup⟩⟩, hperm, ?_⟩
  rw [← hentries, names, OrderedMap.keys, List.filterMap_map]
  rfl

/-- The names of a directory are distinct, and storages with the same items list them in all
orders. -/
theorem listed_in_all_orders {workingDir : Location} {p : String} {listed : List String}
    (h : t.list workingDir p = .ok listed) : listed.Nodup ∧
      ∀ other, listed.Perm other ↔ ∃ t', t.Rearranged t' ∧ t'.list workingDir p = .ok other := by
  have hnames : ∃ dir, t.directory workingDir p = .ok dir ∧ listed = t.names dir := by
    rw [list_eq] at h
    cases hdir : t.directory workingDir p with
    | error e =>
      rw [hdir] at h
      cases h
    | ok dir =>
      rw [hdir] at h
      exact ⟨dir, rfl, (Except.ok.inj h).symm⟩
  obtain ⟨dir, hdir, rfl⟩ := hnames
  refine ⟨t.nodup_names dir, fun other => ⟨fun hperm => ?_, ?_⟩⟩
  · obtain ⟨t', ht', rfl⟩ := t.exists_rearranged hperm
    refine ⟨t', ht', ?_⟩
    rw [list_eq, ← ht'.directory_eq, hdir]
    rfl
  · rintro ⟨t', ht', hlist⟩
    obtain ⟨listed', hlist', hperm⟩ := ht'.exists_list h
    cases hlist'.symm.trans hlist
    exact hperm

end FabricPaths.Storage.Tree
