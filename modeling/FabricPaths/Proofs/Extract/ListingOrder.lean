import FabricPaths.Proofs.Extract.ReadingOrder
import FabricPaths.Proofs.Extract.RouteFiles
import FabricPaths.Proofs.Extract.Stages
import FabricPaths.Proofs.World.Rearranged

/-!
# The order of a listing

A directory is listed in some order, which has no influence on what is found and read: the subnets
are the same, and so is what is gathered from the route dumps of each, since these are read by
index and name.
-/

namespace FabricPaths

open Storage
open FabricPaths.Action (Parallel)

namespace FileName

variable {name a b : String} {names order order' : List String}

/-- The name is that of a route dump: an identifier and digits, of which there may be none,
stand between its fixed parts, and nothing or one line feed follows. -/
def IsRoute (name : String) : Prop :=
  ∃ s digits, IsSubnet s ∧ (∀ c ∈ digits, c.isDigit = true) ∧
    (name = route s digits ∨ name = route s digits ++ "\n")

/-- The names of route dumps are those that the pattern admits. -/
theorem isRouteDump_iff : isRouteDump name = true ↔ IsRoute name := by
  unfold isRouteDump IsRoute
  rw [Option.isSome_iff_exists]
  simp only [routeDigits?_eq_some_iff]
  constructor
  · rintro ⟨digits, hdigits, s, hs, hname⟩
    exact ⟨s, digits, hs, hdigits, hname⟩
  · rintro ⟨s, digits, hs, hdigits, hname⟩
    exact ⟨digits, hdigits, s, hs, hname⟩

/-- No dump is read before itself. -/
theorem ReadBefore.irrefl : ¬ ReadBefore a a := by
  rintro (hlt | ⟨-, hlt⟩)
  · exact Nat.lt_irrefl _ hlt
  · exact String.lt_irrefl a hlt

/-- Of two dumps only one is read before the other. -/
theorem ReadBefore.asymm (h : ReadBefore a b) : ¬ ReadBefore b a := by
  rintro (hlt | ⟨heq, hlt⟩)
  · rcases h with hlt' | ⟨heq', -⟩
    · exact Nat.lt_asymm hlt hlt'
    · exact Nat.ne_of_lt hlt heq'.symm
  · rcases h with hlt' | ⟨-, hlt'⟩
    · exact Nat.ne_of_lt hlt' heq.symm
    · exact String.lt_asymm hlt hlt'

/-- The order in which the route dumps among some names are read. -/
structure IsReadingOrder (names order : List String) : Prop where
  /-- Just the route dumps are read. -/
  mem_iff : ∀ name, name ∈ order ↔ name ∈ names ∧ IsRoute name
  /-- They are read by ascending index, and by name where the index is the same, each once. -/
  ascending : order.Pairwise ReadBefore

/-- There is one such order. -/
theorem IsReadingOrder.unique (h : IsReadingOrder names order)
    (h' : IsReadingOrder names order') : order = order' := by
  have hnodup : ∀ {order : List String}, order.Pairwise ReadBefore → order.Nodup :=
    fun h => h.imp fun hab => by
      rintro rfl
      exact hab.irrefl
  have hperm : order.Perm order' :=
    (List.perm_ext_iff_of_nodup (hnodup h.ascending) (hnodup h'.ascending)).mpr fun name =>
      (h.mem_iff name).trans (h'.mem_iff name).symm
  exact hperm.eq_of_pairwise (fun _ _ _ _ hab hba => absurd hba hab.asymm) h.ascending
    h'.ascending

/-- Distinct names are read in the order that is made of them. -/
theorem isReadingOrder_inOrder (h : names.Nodup) : IsReadingOrder names (Loader.inOrder names) where
  mem_iff := by
    intro name
    rw [(Loader.inOrder_perm names).mem_iff, List.mem_filter, isRouteDump_iff]
  ascending := Loader.pairwise_inOrder h

end FileName

namespace Extract

open FileName Loader

variable {v w : World} {inputDir subnet path : String} {listed order : List String}
  {loader : Loader}

/-- No name in a directory is too long for a storage. -/
def NamesFit (v : World) (path : String) : Prop :=
  ∀ listed, v.storage.list v.workingDir path = .ok listed →
    ∀ name ∈ listed, name.utf8ByteSize ≤ Tree.nameLimit

/-- The same lines are read of the same files. -/
theorem rearranged_readRouteFiles (path : String) (loader : Loader) (names : List String) :
    Parallel World.Rearranged False Eq (readRouteFiles path loader names)
      (readRouteFiles path loader names) := by
  induction names generalizing loader with
  | nil => exact .pure rfl
  | cons name rest ih =>
    unfold readRouteFiles
    refine (World.rearranged_readLines _).bind fun lines lines' hlines => ?_
    cases hlines
    refine (World.rearranged_apart _ _).bind fun taken taken' htaken => ?_
    cases htaken
    exact ih _

/-- Reads route dumps in an order that was found, and tells of it. -/
def readInOrder (subnet dir : String) (order : List String) : Action World (Option Loader) := do
  let loader ← readRouteFiles dir {} order
  World.say .info Log.routes
    s!"Subnet {subnet}: {order.length} route files, {loader.tables.size} switch tables"
  return some loader

/-- Tells that there are no route dumps. -/
def readNothing (subnet : String) : Action World (Option Loader) := do
  World.say .info Log.routes s!"No route directory found for subnet {subnet}"
  return none

/-- The same is told. -/
theorem rearranged_readNothing (subnet : String) :
    Parallel World.Rearranged False Eq (readNothing subnet) (readNothing subnet) :=
  (World.rearranged_say _ _ _).bind fun _ _ _ => .pure rfl

/-- The same is gathered in the same order. -/
theorem rearranged_readInOrder (subnet dir : String) (order : List String) :
    Parallel World.Rearranged False Eq (readInOrder subnet dir order)
      (readInOrder subnet dir order) := by
  refine (rearranged_readRouteFiles _ _ _).bind fun loader loader' hloader => ?_
  cases hloader
  exact (World.rearranged_say _ _ _).bind fun _ _ _ => .pure rfl

/-- What is gathered in order is what was read. -/
theorem readInOrder_outcome_eq_ok_iff {found : Option Loader} :
    (readInOrder subnet path order v).outcome = .ok found ↔ ∃ loader, found = some loader ∧
      (readRouteFiles path {} order v).outcome = .ok loader := by
  unfold readInOrder
  rw [Action.bind_outcome_eq_ok_iff]
  constructor
  · rintro ⟨loader, hloader, hfound⟩
    cases hfound
    exact ⟨loader, rfl, hloader⟩
  · rintro ⟨loader, rfl, hloader⟩
    exact ⟨loader, hloader, rfl⟩

/-- A directory of route dumps that is listed is read in the order of its names. -/
theorem readRoutes_of_list
    (h : v.storage.list v.workingDir (routePath inputDir subnet) = .ok listed) :
    readRoutes inputDir subnet v = (Action.ofExcept (readingOrder listed) >>=
      readInOrder subnet (routePath inputDir subnet)) v := by
  have hdir := routeDirectory?_run inputDir subnet v
  rw [routeDirectoryOf_eq_some_iff.mpr ⟨rfl, Tree.exists_list_iff.mp ⟨listed, h⟩⟩] at hdir
  have hlist : World.list (routePath inputDir subnet) v = ⟨.ok listed, v, []⟩ := by
    rw [← h]
    rfl
  unfold readRoutes
  rw [Action.bind_of_ok hdir]
  dsimp only
  rw [Action.bind_of_ok hlist]
  rfl

/-- The directory of route dumps is the same. -/
theorem rearranged_routeDirectory? (inputDir subnet : String) :
    Parallel World.Rearranged False Eq (routeDirectory? inputDir subnet)
      (routeDirectory? inputDir subnet) := by
  rw [routeDirectory?_eq]
  refine .get_bind fun v w h => ?_
  obtain ⟨t, ht, rfl⟩ := h
  dsimp only
  rw [ht.find_eq]
  exact Parallel.ofExcept _ _ _ ⟨t, ht, rfl⟩

/-- The subnets of an input directory are the same, however it is listed. -/
theorem findSubnets_congr (h : v.Rearranged w) (inputDir : String) :
    (findSubnets inputDir v).outcome = (findSubnets inputDir w).outcome := by
  have hfound : Parallel World.Rearranged False Eq (findSubnets inputDir)
      (findSubnets inputDir) :=
    (World.rearranged_list inputDir).bind fun _ _ hperm => .pure (subnetsOf_congr hperm)
  exact (hfound v w h).outcome_eq

/-- Where no directory can be listed, no route dumps are read. -/
theorem readRoutes_of_not_listed (h : ¬ ∃ listed,
    v.storage.list v.workingDir (routePath inputDir subnet) = .ok listed) :
    readRoutes inputDir subnet v =
      (routeDirectory? inputDir subnet >>= fun _ => readNothing subnet) v := by
  have hnone : ∀ dir, routeDirectoryOf (routePath inputDir subnet)
      (v.storage.find v.workingDir (routePath inputDir subnet)) ≠ .ok (some dir) :=
    fun dir hdir => h (Tree.exists_list_iff.mpr (routeDirectoryOf_eq_some_iff.mp hdir).2)
  have hrun := routeDirectory?_run inputDir subnet v
  unfold readRoutes
  generalize routeDirectoryOf _ _ = found at hnone hrun
  cases found with
  | error e => rw [Action.bind_of_error hrun, Action.bind_of_error hrun]
  | ok dir =>
    rw [Action.bind_of_ok hrun, Action.bind_of_ok hrun]
    cases dir with
    | none => rfl
    | some dir => exact absurd rfl (hnone dir)

/-- Route dumps of which one has a number that is too long are not read. -/
theorem readRoutes_of_not_indexable
    (hlist : v.storage.list v.workingDir (routePath inputDir subnet) = .ok listed)
    (h : ¬ ∀ name ∈ listed, Indexable name) :
    ∃ e, readRoutes inputDir subnet v = ⟨.error e, v, []⟩ := by
  rw [readRoutes_of_list hlist]
  cases horder : readingOrder listed with
  | error e => exact ⟨e, rfl⟩
  | ok order => exact absurd (readingOrder_eq_ok_iff.mp horder).1 h

/-- The same is gathered from route dumps, however their directory is listed. -/
theorem agree_readRoutes (h : v.Rearranged w) (hindexable : ∀ listed,
    v.storage.list v.workingDir (routePath inputDir subnet) = .ok listed →
      ∀ name ∈ listed, Indexable name) :
    (readRoutes inputDir subnet v).Agree World.Rearranged False Eq
      (readRoutes inputDir subnet w) := by
  obtain ⟨t, ht, rfl⟩ := h
  by_cases hlisted : ∃ listed,
      v.storage.list v.workingDir (routePath inputDir subnet) = .ok listed
  · obtain ⟨listed, hlist⟩ := hlisted
    obtain ⟨listed', hlist', hperm⟩ := ht.exists_list hlist
    have horder := readingOrder_eq_ok_iff.mpr ⟨hindexable listed hlist, rfl⟩
    have horder' : readingOrder listed' = .ok (inOrder listed) :=
      readingOrder_eq_ok_iff.mpr ⟨fun name hname =>
        hindexable listed hlist name (hperm.mem_iff.mpr hname), inOrder_congr hperm⟩
    rw [readRoutes_of_list hlist,
      readRoutes_of_list (v := { v with storage := t }) hlist', horder, horder']
    exact rearranged_readInOrder _ _ _ _ _ ⟨t, ht, rfl⟩
  · have hlisted' : ¬ ∃ listed, t.list v.workingDir (routePath inputDir subnet) = .ok listed := by
      rw [Tree.exists_list_iff, ← ht.find_eq, ← Tree.exists_list_iff]
      exact hlisted
    rw [readRoutes_of_not_listed hlisted,
      readRoutes_of_not_listed (v := { v with storage := t }) hlisted']
    exact ((rearranged_routeDirectory? inputDir subnet).bind fun _ _ _ =>
      rearranged_readNothing subnet) _ _ ⟨t, ht, rfl⟩

/-! ## What is gathered -/

/-- Dumps of a directory were read by their names in some order, and what they tell was
gathered. -/
structure ReadsInOrder (v : World) (path : String) (order : List String) (dumps : List Dump)
    (loader : Loader) : Prop where
  /-- By each name one dump was read. -/
  sources : dumps.map (·.source) = order.map (PathText.child path)
  /-- The lines of the dumps were there, unless the log was written to them. -/
  lines : ∀ d ∈ dumps, ¬ v.LogsInto d.source →
    v.storage.readLines v.workingDir d.source = .ok d.lines
  /-- The reports on the dumps are filed. -/
  files : loader.files.map (·.path) = order.map (PathText.child path)
  /-- What the dumps name and hold was gathered. -/
  gathers : Gathers loader (dumps.flatMap Dump.named) (dumps.flatMap Dump.added)
  /-- An entry is that of the first dump with an entry for its switch and destination. -/
  first : ∀ s table, loader.tables.get? s = some table → ∀ dest,
    table.entries.get? dest = dumps.findSome? fun d => Dump.first? d.added s dest

/-- What was gathered was read in order. -/
theorem readsInOrder_of_readRoutes
    (hlist : v.storage.list v.workingDir (routePath inputDir subnet) = .ok listed)
    (hok : (readRoutes inputDir subnet v).outcome = .ok (some loader)) :
    ∃ dumps, ReadsInOrder v (routePath inputDir subnet) (inOrder listed) dumps loader := by
  rw [readRoutes_of_list hlist] at hok
  obtain ⟨order, horder, hok⟩ := Action.bind_outcome_eq_ok_iff.mp hok
  obtain ⟨-, rfl⟩ := readingOrder_eq_ok_iff.mp horder
  obtain ⟨_, hsame, hread⟩ := readInOrder_outcome_eq_ok_iff.mp hok
  cases hsame
  obtain ⟨dumps, hsources, htaken⟩ := takesIn_readRouteFiles v.loggedSince_self hread
  have hgathers := htaken.gathers [] [] .empty
  rw [List.nil_append, List.nil_append] at hgathers
  refine ⟨dumps, hsources, htaken.lines, htaken.files.trans hsources, hgathers, ?_⟩
  intro s table htable dest
  rw [hgathers.first s table htable, Dump.first?_flatMap]

/-- Route dumps are read of directories that can be listed. -/
theorem exists_list_of_readRoutes
    (hok : (readRoutes inputDir subnet v).outcome = .ok (some loader)) :
    ∃ listed, v.storage.list v.workingDir (routePath inputDir subnet) = .ok listed := by
  by_contra hnone
  rw [readRoutes_of_not_listed hnone] at hok
  obtain ⟨-, -, hok⟩ := Action.bind_outcome_eq_ok_iff.mp hok
  cases hok

/-- The reading succeeds if all route dumps can be taken in. -/
theorem readRoutes_succeeds
    (hlist : v.storage.list v.workingDir (routePath inputDir subnet) = .ok listed)
    (hindexable : ∀ name ∈ listed, Indexable name)
    (htake : ∀ name ∈ listed, IsRoute name →
      CanTakeIn v (PathText.child (routePath inputDir subnet) name)) :
    ∃ loader, (readRoutes inputDir subnet v).outcome = .ok (some loader) := by
  have hfiles : ∀ name ∈ inOrder listed,
      CanTakeIn v (PathText.child (routePath inputDir subnet) name) := by
    intro name hname
    obtain ⟨hmem, hroute⟩ := List.mem_filter.mp ((inOrder_perm listed).mem_iff.mp hname)
    exact htake name hmem (isRouteDump_iff.mp hroute)
  obtain ⟨loader, hread⟩ := readRouteFiles_succeeds {} v.loggedSince_self hfiles
  rw [readRoutes_of_list hlist, readingOrder_eq_ok_iff.mpr ⟨hindexable, rfl⟩]
  exact ⟨loader, readInOrder_outcome_eq_ok_iff.mpr ⟨loader, rfl, hread⟩⟩

/-- The order in which directories are listed has no influence. The names in a directory are
distinct, and the same items in another order can be listed in each order. The subnets that are
found are the same, and so are the tables, reports and late entries that are gathered from the
route dumps of a subnet, and all else but the order of the items. The dumps are read by ascending
index, and by name where the index is the same, so that an entry is that of the first dump in
this order. They are gathered whenever each of them can be taken in. -/
theorem listing_order_irrelevant (h : v.Rearranged w) (inputDir subnet : String) :
    (∀ p listed, v.storage.list v.workingDir p = .ok listed → listed.Nodup ∧ ∀ other,
        listed.Perm other ↔ ∃ u, v.Rearranged u ∧ u.storage.list u.workingDir p = .ok other) ∧
      (findSubnets inputDir v).outcome = (findSubnets inputDir w).outcome ∧
      (readRoutes inputDir subnet v).outcome.toOption =
        (readRoutes inputDir subnet w).outcome.toOption ∧
      (readRoutes inputDir subnet v).state.Rearranged (readRoutes inputDir subnet w).state ∧
      (NamesFit v (routePath inputDir subnet) →
        (readRoutes inputDir subnet v).outcome = (readRoutes inputDir subnet w).outcome) ∧
      (∀ loader, (readRoutes inputDir subnet v).outcome = .ok (some loader) →
        ∃ listed order dumps,
          v.storage.list v.workingDir (routePath inputDir subnet) = .ok listed ∧
            IsReadingOrder listed order ∧
            ReadsInOrder v (routePath inputDir subnet) order dumps loader) ∧
      ∀ listed, v.storage.list v.workingDir (routePath inputDir subnet) = .ok listed →
        NamesFit v (routePath inputDir subnet) →
        (∀ name ∈ listed, IsRoute name →
          CanTakeIn v (PathText.child (routePath inputDir subnet) name)) →
        ∃ loader, (readRoutes inputDir subnet v).outcome = .ok (some loader) := by
  have hfit : NamesFit v (routePath inputDir subnet) → ∀ listed,
      v.storage.list v.workingDir (routePath inputDir subnet) = .ok listed →
        ∀ name ∈ listed, Indexable name :=
    fun hfit listed hlist name hname => indexable_of_size (hfit listed hlist name hname)
  have hrun : (readRoutes inputDir subnet v).outcome.toOption =
        (readRoutes inputDir subnet w).outcome.toOption ∧
      (readRoutes inputDir subnet v).state.Rearranged (readRoutes inputDir subnet w).state := by
    by_cases hindexable : ∀ listed,
        v.storage.list v.workingDir (routePath inputDir subnet) = .ok listed →
          ∀ name ∈ listed, Indexable name
    · have hagree := agree_readRoutes h hindexable
      exact ⟨congrArg Except.toOption hagree.outcome_eq, hagree.states⟩
    · push Not at hindexable
      obtain ⟨listed, hlist, name, hname, hlong⟩ := hindexable
      obtain ⟨t, ht, rfl⟩ := h
      obtain ⟨listed', hlist', hperm⟩ := ht.exists_list hlist
      obtain ⟨e, he⟩ := readRoutes_of_not_indexable hlist fun hall => hlong (hall name hname)
      obtain ⟨e', he'⟩ := readRoutes_of_not_indexable (v := { v with storage := t }) hlist'
        fun hall => hlong (hall name (hperm.mem_iff.mp hname))
      rw [he, he']
      exact ⟨rfl, t, ht, rfl⟩
  refine ⟨?_, findSubnets_congr h inputDir, hrun.1, hrun.2, ?_, ?_, ?_⟩
  · intro p listed hlist
    obtain ⟨hnodup, hall⟩ := Tree.listed_in_all_orders hlist
    refine ⟨hnodup, fun other => (hall other).trans ?_⟩
    constructor
    · rintro ⟨t, ht, hother⟩
      exact ⟨{ v with storage := t }, ⟨t, ht, rfl⟩, hother⟩
    · rintro ⟨-, ⟨t, ht, rfl⟩, hother⟩
      exact ⟨t, ht, hother⟩
  · exact fun hnames => (agree_readRoutes h (hfit hnames)).outcome_eq
  · intro loader hok
    obtain ⟨listed, hlist⟩ := exists_list_of_readRoutes hok
    obtain ⟨dumps, hdumps⟩ := readsInOrder_of_readRoutes hlist hok
    exact ⟨listed, inOrder listed, dumps, hlist,
      isReadingOrder_inOrder (Tree.listed_in_all_orders hlist).1, hdumps⟩
  · exact fun listed hlist hnames htake =>
      readRoutes_succeeds hlist (hfit hnames listed hlist) htake

/-- A world whose storage lists its items the other way round. -/
def backwards (w : World) : World :=
  { w with
    storage := ⟨⟨w.storage.items.entries.reverse, by
      rw [List.map_reverse, List.nodup_reverse]
      exact w.storage.items.nodup_keys⟩⟩ }

/-- The same items are listed the other way round. -/
theorem rearranged_backwards (w : World) : w.Rearranged (backwards w) :=
  ⟨(backwards w).storage, (List.reverse_perm _).symm, rfl⟩

/-- The name of a route dump with an index. -/
def routeName (index : String) : String := s!"ibroute-fe80:0000:0000:0001-{index}.txt"

/-- The lines of a route dump with an entry of one switch for another, by way of a port. -/
def routeLines (port : String) : List String :=
  ["Unicast lids guid 0x00000000000000a1:\n",
    s!"0x1 {port} : (Switch portguid 0x0000000000000011:\n"]

/-- The indices and ports of two route dumps, of which the one with the higher index has the name
that comes first. -/
def twoRoutes : List (String × String) := [("10", "5"), ("2", "7")]

/-- A subnet with these route dumps. Both have an entry of the same switch for the same
destination. -/
def twoRouteDumps : World := worldOf <|
  (["in"], .directory) :: (["in", "ibroutes-fe80:0000:0000:0001"], .directory) ::
    twoRoutes.map fun e => (["in", "ibroutes-fe80:0000:0000:0001", routeName e.1],
      .file (String.join (routeLines e.2)).toUTF8)

/-- The two route dumps are read by index, however they are listed, and the entry is that of the
dump with the lower index. -/
theorem twoRouteDumps_read : twoRouteDumps.Rearranged (backwards twoRouteDumps) ∧
    ∃ loader,
      (readRoutes "in" "fe80:0000:0000:0001" twoRouteDumps).outcome = .ok (some loader) ∧
      (readRoutes "in" "fe80:0000:0000:0001" (backwards twoRouteDumps)).outcome =
        .ok (some loader) ∧
      loader.files.map (·.path) = [
        "in/ibroutes-fe80:0000:0000:0001/ibroute-fe80:0000:0000:0001-2.txt",
        "in/ibroutes-fe80:0000:0000:0001/ibroute-fe80:0000:0000:0001-10.txt"] ∧
      ∃ table, loader.tables.get? ⟨"0000:0000:0000:00a1"⟩ = some table ∧
        table.egressPort? (.ofGuid "0000000000000011") = some 7 := by
  have hrearranged := rearranged_backwards twoRouteDumps
  obtain ⟨-, -, -, -, hsame, hread, hsucceeds⟩ :=
    listing_order_irrelevant hrearranged "in" "fe80:0000:0000:0001"
  have hlist : twoRouteDumps.storage.list twoRouteDumps.workingDir
      (routePath "in" "fe80:0000:0000:0001") = .ok (twoRoutes.map fun e => routeName e.1) := by
    decide +kernel
  have hfit : NamesFit twoRouteDumps (routePath "in" "fe80:0000:0000:0001") := by
    intro listed hlisted
    cases hlist.symm.trans hlisted
    decide +kernel
  have hquiet : ∀ p, ¬ twoRouteDumps.LogsInto p := by
    rintro p ⟨l, -, handler, hhandler, -⟩
    change handler ∈ [] at hhandler
    cases hhandler
  have hlines : ∀ e ∈ twoRoutes, twoRouteDumps.storage.readLines twoRouteDumps.workingDir
      (PathText.child (routePath "in" "fe80:0000:0000:0001") (routeName e.1)) =
        .ok (routeLines e.2) := by decide +kernel
  have htake : ∀ e ∈ twoRoutes, CanTakeIn twoRouteDumps
      (PathText.child (routePath "in" "fe80:0000:0000:0001") (routeName e.1)) := by
    have hisOk : ∀ e ∈ twoRoutes, ∀ raw ∈ lookedAt (routeLines e.2),
        (Route.parseEntry raw).isOk = true := by decide +kernel
    refine fun e he => ⟨hquiet _, _, hlines e he, fun raw hraw hlong => ?_⟩
    obtain ⟨error, herror⟩ := Route.refused_iff_overlong.mpr hlong
    have hok := hisOk e he raw hraw
    rw [herror] at hok
    cases hok
  obtain ⟨loader, hok⟩ := hsucceeds _ hlist hfit
    (List.forall_mem_map.mpr fun e he _ => htake e he)
  obtain ⟨listed, order, dumps, hlisted, horder, hdumps⟩ := hread loader hok
  cases hlist.symm.trans hlisted
  have hsorted : order = [routeName "2", routeName "10"] := by
    have hroutes : ∀ name ∈ [routeName "2", routeName "10"], isRouteDump name = true := by
      decide +kernel
    have hbefore : index (routeName "2") < index (routeName "10") := by decide +kernel
    refine horder.unique ⟨fun name => ?_, List.pairwise_pair.mpr (.inl hbefore)⟩
    have hswap : name ∈ twoRoutes.map (fun e => routeName e.1) ↔
        name ∈ [routeName "2", routeName "10"] := (List.Perm.swap _ _ []).mem_iff
    rw [hswap, ← isRouteDump_iff, and_iff_left_of_imp (hroutes name)]
  refine ⟨hrearranged, loader, hok, (hsame hfit).symm.trans hok, ?_, ?_⟩
  · rw [hdumps.files, hsorted]
    decide +kernel
  · have hsources := hdumps.sources
    rw [hsorted] at hsources
    obtain ⟨lower, rest, rfl, hlower, -⟩ := List.map_eq_cons_iff.mp hsources
    have hfirst : lower.lines = routeLines "7" := by
      have hheld := hdumps.lines lower List.mem_cons_self (hquiet _)
      rw [hlower, hlines ("2", "7") (by decide)] at hheld
      exact (Except.ok.inj hheld).symm
    have htold : lower.named = [⟨"0000:0000:0000:00a1"⟩] ∧
        Dump.first? lower.added ⟨"0000:0000:0000:00a1"⟩ (.ofGuid "0000000000000011") =
          some ⟨.ofGuid "0000000000000011", 7, 1, .switch⟩ := by
      unfold Dump.named Dump.added
      rw [hfirst]
      decide +kernel
    obtain ⟨table, htable⟩ := hdumps.gathers.exists_table (s := ⟨"0000:0000:0000:00a1"⟩) (by
      rw [List.flatMap_cons, htold.1]
      exact List.mem_cons_self)
    refine ⟨table, htable, ?_⟩
    unfold RoutingTable.egressPort?
    rw [hdumps.first _ _ htable, List.findSome?_cons, htold.2]
    rfl

end Extract

end FabricPaths
