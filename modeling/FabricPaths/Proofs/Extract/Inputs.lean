import FabricPaths.Extract.Subnet
import FabricPaths.Proofs.World.Beside

/-!
# What is read for a subnet

For a subnet its discovery dump is read, and each file in its directory that has the name of a
route dump. Files at other places have no influence on what is read, unless one of them bars
the path to that directory.
-/

namespace FabricPaths

open Storage
open FabricPaths.Action (Parallel)

/-- Whether a file of this name is read as a route dump. -/
def FileName.isRouteDump (name : String) : Bool := (FileName.routeDigits? name).isSome

namespace Loader

/-- A file that has not the name of a route dump has no index. -/
theorem routeIndex?_of_other {name : String} (h : FileName.isRouteDump name = false) :
    FileName.routeIndex? name = .ok none := by
  unfold FileName.isRouteDump at h
  unfold FileName.routeIndex?
  rw [Option.isSome_eq_false_iff, Option.isNone_iff_eq_none] at h
  rw [h]

/-- Only the names of route dumps are indexed. -/
theorem indexed_filter (names : List String) :
    indexed (names.filter FileName.isRouteDump) = indexed names := by
  induction names with
  | nil => rfl
  | cons name rest ih =>
    cases hname : FileName.isRouteDump name with
    | true =>
      rw [List.filter_cons_of_pos hname, indexed, indexed, ih]
    | false =>
      rw [List.filter_cons_of_neg (by rw [hname]; exact Bool.false_ne_true), indexed, ih,
        routeIndex?_of_other hname]
      cases indexed rest with
      | ok later => rfl
      | error e => rfl

/-- What is indexed is the name of a route dump in the list. -/
theorem mem_indexed {names : List String} {found : List (Nat × String)}
    (h : indexed names = .ok found) {i : Nat} {name : String} (hmem : (i, name) ∈ found) :
    name ∈ names ∧ FileName.isRouteDump name = true := by
  induction names generalizing found with
  | nil =>
    cases h
    cases hmem
  | cons first rest ih =>
    unfold indexed at h
    rcases hindex : FileName.routeIndex? first with e | index
    · rw [hindex] at h
      cases h
    · rcases hlater : indexed rest with e | later
      · rw [hindex, hlater] at h
        cases h
      · rw [hindex, hlater] at h
        cases index with
        | none =>
          cases h
          obtain ⟨hin, hname⟩ := ih hlater hmem
          exact ⟨List.mem_cons_of_mem _ hin, hname⟩
        | some j =>
          cases h
          rcases List.mem_cons.mp hmem with heq | hmem
          · cases heq
            refine ⟨List.mem_cons_self, ?_⟩
            by_contra hother
            rw [routeIndex?_of_other (Bool.eq_false_iff.mpr hother)] at hindex
            cases hindex
          · obtain ⟨hin, hname⟩ := ih hlater hmem
            exact ⟨List.mem_cons_of_mem _ hin, hname⟩

/-- The order of reading depends on the names of route dumps alone. -/
theorem readingOrder_congr {names names' : List String}
    (h : names.filter FileName.isRouteDump = names'.filter FileName.isRouteDump) :
    readingOrder names = readingOrder names' := by
  unfold readingOrder
  rw [← indexed_filter names, ← indexed_filter names', h]

/-- What is read has the name of a route dump in the list. -/
theorem mem_readingOrder {names order : List String} (h : readingOrder names = .ok order)
    {name : String} (hname : name ∈ order) :
    name ∈ names ∧ FileName.isRouteDump name = true := by
  unfold readingOrder at h
  rcases hfound : indexed names with e | found
  · rw [hfound] at h
    cases h
  · rw [hfound] at h
    cases h
    obtain ⟨⟨i, name'⟩, hmem, rfl⟩ := List.mem_map.mp hname
    exact mem_indexed hfound ((List.mergeSort_perm _ _).mem_iff.mp hmem)

end Loader

namespace Extract

/-- The path of the directory with a subnet's route dumps. -/
def routePath (inputDir subnet : String) : String :=
  PathText.child inputDir (FileName.routeDirectory subnet)

/-- The names of the route dumps of a subnet. -/
def routeDumps (inputDir subnet : String) (t : Tree) (workingDir : Location) : List String :=
  match t.list workingDir (routePath inputDir subnet) with
  | .ok names => names.filter FileName.isRouteDump
  | .error _ => []

/-- Whether a file at a place is read for a subnet: as its discovery dump, as a route dump in
its directory, or by the name of one. -/
def isInput (inputDir subnet file : String) (t : Tree) (workingDir l : Location) : Bool :=
  let path := routePath inputDir subnet
  t.fileAt? workingDir (PathText.join inputDir file) == some l ||
    (match t.directory workingDir path with
      | .ok dir => (Tree.entryOf dir l).any FileName.isRouteDump
      | .error _ => false) ||
    (routeDumps inputDir subnet t workingDir).any fun name =>
      t.fileAt? workingDir (PathText.child path name) == some l

/-- None of the files at some places is read for a subnet. -/
structure Unread (inputDir subnet file : String) (t : Tree) (workingDir : Location)
    (places : Location → Prop) : Prop where
  /-- None is the discovery dump. -/
  discovery : ∀ l bytes,
    t.find workingDir (PathText.join inputDir file) = .ok (l, .file bytes) → ¬ places l
  /-- None has the name of a route dump in the subnet's directory. -/
  listed : ∀ dir, t.directory workingDir (routePath inputDir subnet) = .ok dir →
    ∀ l, places l → ∀ name, Tree.entryOf dir l = some name → FileName.isRouteDump name = false
  /-- None is read by the name of a route dump. -/
  routes : ∀ names, t.list workingDir (routePath inputDir subnet) = .ok names → ∀ name ∈ names,
    FileName.isRouteDump name = true → ∀ l bytes,
      t.find workingDir (PathText.child (routePath inputDir subnet) name) = .ok (l, .file bytes) →
        ¬ places l

/-- No file is read at places that are not those of inputs. -/
theorem unread_of_isInput {inputDir subnet file : String} {t : Tree} {workingDir : Location}
    {places : Location → Prop}
    (h : ∀ l, places l → isInput inputDir subnet file t workingDir l = false) :
    Unread inputDir subnet file t workingDir places := by
  have hparts : ∀ l, places l →
      (t.fileAt? workingDir (PathText.join inputDir file) == some l) = false ∧
      (match t.directory workingDir (routePath inputDir subnet) with
        | .ok dir => (Tree.entryOf dir l).any FileName.isRouteDump
        | .error _ => false) = false ∧
      ((routeDumps inputDir subnet t workingDir).any fun name =>
        t.fileAt? workingDir (PathText.child (routePath inputDir subnet) name) == some l) =
          false := by
    intro l hl
    have hl' := h l hl
    unfold isInput at hl'
    dsimp only at hl'
    rw [Bool.or_eq_false_iff, Bool.or_eq_false_iff, and_assoc] at hl'
    exact hl'
  have hfile : ∀ {p : String} {l : Location} {bytes : ByteArray},
      t.find workingDir p = .ok (l, .file bytes) → t.fileAt? workingDir p = some l := by
    intro p l bytes hfound
    unfold Tree.fileAt?
    rw [hfound]
  constructor
  · intro l bytes hfound hl
    have hno := (hparts l hl).1
    rw [hfile hfound, beq_self_eq_true] at hno
    cases hno
  · intro dir hdir l hl name hname
    have hno := (hparts l hl).2.1
    rw [hdir] at hno
    dsimp only at hno
    rwa [hname, Option.any_some] at hno
  · intro names hnames name hname hdump l bytes hfound hl
    have hno := (hparts l hl).2.2
    unfold routeDumps at hno
    rw [hnames, List.any_eq_false] at hno
    refine hno name (List.mem_filter.mpr ⟨hname, hdump⟩) ?_
    rw [hfile hfound]
    exact beq_self_eq_true _

/-! ## Reading side by side -/

/-- What is made of what the path of a directory with route dumps leads to. -/
def routeDirectoryOf (path : String) :
    Except Failure (Location × Item) → Except Failure (Option String)
  | .ok (_, .directory) => .ok (some path)
  | .ok _ => .ok none
  | .error (.storage .noEntry _) => .ok none
  | .error e => .error e

/-- A path leads to a directory with route dumps exactly if it leads to a directory. -/
theorem routeDirectoryOf_eq_some_iff {path dir : String}
    {found : Except Failure (Location × Item)} :
    routeDirectoryOf path found = .ok (some dir) ↔
      dir = path ∧ ∃ l, found = .ok (l, .directory) := by
  unfold routeDirectoryOf
  split
  · rename_i l
    constructor
    · intro h
      cases h
      exact ⟨rfl, l, rfl⟩
    · rintro ⟨rfl, -⟩
      rfl
  · rename_i hother
    refine iff_of_false nofun ?_
    rintro ⟨-, l, h⟩
    exact hother l (Except.ok.inj h)
  · exact iff_of_false nofun fun ⟨_, _, h⟩ => by cases h
  · exact iff_of_false nofun fun ⟨_, _, h⟩ => by cases h

/-- The directory with route dumps depends on what its path leads to. -/
theorem routeDirectory?_eq (inputDir subnet : String) : routeDirectory? inputDir subnet =
    Action.get >>= fun w => Action.ofExcept (routeDirectoryOf (routePath inputDir subnet)
      (w.storage.find w.workingDir (routePath inputDir subnet))) := by
  funext w
  unfold routeDirectory? routePath
  rw [Action.get_bind, Action.get_bind]
  generalize w.storage.find w.workingDir _ = x
  rcases x with e | ⟨l, item⟩
  · cases e with
    | storage cause p => cases cause <;> rfl
    | _ => rfl
  · cases item <;> rfl

/-- The directory of route dumps is looked for, and nothing else is done. -/
theorem routeDirectory?_run (inputDir subnet : String) (w : World) :
    routeDirectory? inputDir subnet w = ⟨routeDirectoryOf (routePath inputDir subnet)
      (w.storage.find w.workingDir (routePath inputDir subnet)), w, []⟩ := by
  rw [routeDirectory?_eq]
  rfl

variable {m : Slack} {t t' : Tree} {dir : Location}

/-- The directory with route dumps is there on both sides, unless it is barred on one. -/
theorem parallel_routeDirectory? {inputDir subnet : String}
    (hopen : m.loose → t'.isBarred dir (routePath inputDir subnet) = true →
      t.isBarred dir (routePath inputDir subnet) = true) :
    Parallel (World.Abreast m t t' dir) m.loose
      (fun a b => a = b ∧ ∀ p, b = some p → p = routePath inputDir subnet)
      (routeDirectory? inputDir subnet) (routeDirectory? inputDir subnet) := by
  rw [routeDirectory?_eq]
  refine Parallel.get_bind fun v w h => ?_
  have hfinds := h.storage.finds w.workingDir (routePath inputDir subnet)
  have hbarred : m.loose → w.storage.isBarred w.workingDir (routePath inputDir subnet) = true →
      v.storage.isBarred w.workingDir (routePath inputDir subnet) = true := by
    rw [h.isBarred_left, h.isBarred_right]
    exact hopen
  unfold Tree.isBarred at hbarred
  rw [h.workingDir]
  generalize v.storage.find w.workingDir (routePath inputDir subnet) = x at hfinds hbarred ⊢
  generalize w.storage.find w.workingDir (routePath inputDir subnet) = y at hfinds hbarred ⊢
  cases hfinds with
  | same =>
    cases hx : routeDirectoryOf (routePath inputDir subnet) x with
    | ok found =>
      refine .ok ⟨rfl, ?_⟩ h
      rintro p rfl
      exact (routeDirectoryOf_eq_some_iff.mp hx).1
    | error e => exact .error h
  | onto differs => exact .ok ⟨rfl, nofun⟩ h
  | filled differs loose => exact .ok ⟨rfl, nofun⟩ h
  | barred loose =>
    have hleft := hbarred loose rfl
    split at hleft
    · rename_i heq
      cases heq
      exact .failed loose
    · cases hleft

/-- The same route dumps are listed on both sides. -/
theorem parallel_list {inputDir subnet file : String}
    (hunread : Unread inputDir subnet file t' dir m.places) :
    Parallel (World.Abreast m t t' dir) m.loose
      (fun names names' => names.filter FileName.isRouteDump = names'.filter FileName.isRouteDump ∧
        t'.list dir (routePath inputDir subnet) = .ok names')
      (World.list (routePath inputDir subnet)) (World.list (routePath inputDir subnet)) := by
  refine Parallel.get_bind fun v w h => ?_
  have hfinds := h.storage.finds w.workingDir (routePath inputDir subnet)
  have hbefore := h.right.finds w.workingDir (routePath inputDir subnet)
  have hdumps := hunread.listed
  rw [h.atDir] at hfinds hbefore
  unfold Tree.list
  unfold Tree.directory at hdumps ⊢
  rw [h.workingDir, h.atDir]
  generalize v.storage.find dir (routePath inputDir subnet) = x at hfinds ⊢
  generalize w.storage.find dir (routePath inputDir subnet) = y at hfinds hbefore ⊢
  generalize t'.find dir (routePath inputDir subnet) = z at hbefore hdumps ⊢
  cases hfinds with
  | same =>
    rcases x with e | ⟨l, item⟩
    · exact .error h
    · cases item with
      | file bytes => exact .error h
      | link target => exact .error h
      | directory =>
        cases hbefore with
        | same =>
          have hkeys : t'.items.keys = w.storage.items.keys := by
            have := h.right.keys (fun _ => true) nofun
            rwa [List.filter_true, List.filter_true] at this
          refine .ok ⟨?_, by rw [hkeys]; rfl⟩ h
          have hfilter : ∀ keys : List Location,
              (keys.filterMap (Tree.entryOf l)).filter FileName.isRouteDump =
                (keys.filter fun k => (Tree.entryOf l k).any FileName.isRouteDump).filterMap
                  (Tree.entryOf l) := by
            intro keys
            induction keys with
            | nil => rfl
            | cons k rest ih =>
              cases hk : Tree.entryOf l k with
              | none =>
                rw [List.filterMap_cons_none hk, List.filter_cons_of_neg, ih]
                rw [hk]
                exact Bool.false_ne_true
              | some name =>
                rw [List.filterMap_cons_some hk]
                cases hname : FileName.isRouteDump name with
                | true =>
                  rw [List.filter_cons_of_pos hname, ih, List.filter_cons_of_pos,
                    List.filterMap_cons_some hk]
                  rw [hk, Option.any_some, hname]
                | false =>
                  rw [List.filter_cons_of_neg, ih, List.filter_cons_of_neg]
                  · rw [hk, Option.any_some, hname]
                    exact Bool.false_ne_true
                  · rw [hname]
                    exact Bool.false_ne_true
          rw [hfilter, hfilter]
          congr 1
          refine h.storage.keys _ fun _ k hk => ?_
          cases hentry : Tree.entryOf l k with
          | none => rfl
          | some name => exact hdumps l rfl k hk name hentry
  | onto differs => exact .error h
  | filled differs loose => exact .failed loose
  | barred loose => exact .failed loose

end Extract

end FabricPaths
