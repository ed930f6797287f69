import FabricPaths.Proofs.Routing.Gathering

/-!
# Loaders only add entries

Whatever lines a loader takes in, and wherever it stops, every entry that it held
before it holds afterwards. Nothing is asked of the loader: its tables may have
come from anywhere.
-/

namespace FabricPaths.Loader

namespace GrowsTo

/-- A loader holds what it holds. -/
theorem refl (loader : Loader) : loader.GrowsTo loader :=
  fun _ table htable => ⟨table, htable, fun _ _ he => he⟩

/-- What is held in the end was held on the way. -/
theorem trans {loader later last : Loader} (h : loader.GrowsTo later) (h' : later.GrowsTo last) :
    loader.GrowsTo last := by
  intro s table htable
  obtain ⟨table', htable', hentries⟩ := h s table htable
  obtain ⟨table'', htable'', hentries'⟩ := h' s table' htable'
  exact ⟨table'', htable'', fun dest e he => hentries' dest e (hentries dest e he)⟩

end GrowsTo

/-- A table for a switch without one takes nothing away. -/
theorem growsTo_insert_new {loader : Loader} {s : NodeId} (h : loader.tables.get? s = none)
    (new : RoutingTable) : loader.GrowsTo { loader with tables := loader.tables.insert s new } := by
  intro x table htable
  have hne : x ≠ s := by
    rintro rfl
    rw [h] at htable
    cases htable
  refine ⟨table, ?_, fun _ _ he => he⟩
  dsimp only
  rw [OrderedMap.get?_insert, if_neg hne]
  exact htable

/-- A header takes nothing away. -/
theorem growsTo_withTable (loader : Loader) (s : NodeId) :
    loader.GrowsTo { loader with tables := withTable loader.tables s } := by
  cases h : loader.tables.get? s with
  | none =>
    rw [withTable_of_new h]
    exact growsTo_insert_new h _
  | some table =>
    rw [withTable_of_get? h]
    exact .refl loader

/-- An entry takes nothing away. -/
theorem growsTo_addEntry (loader : Loader) (s : NodeId) (r : RouteRecord) :
    loader.GrowsTo (loader.addEntry s r).1 := by
  cases htable : loader.tables.get? s with
  | none =>
    have hnew : (loader.addEntry s r).1 =
        { loader with
          tables :=
            loader.tables.insert s (({ switch := s } : RoutingTable).setEntry r.toEntry) } := by
      rw [addEntry, OrderedMap.getD, htable]
      rfl
    rw [hnew]
    exact growsTo_insert_new htable _
  | some table =>
    cases hentry : table.entries.get? r.destId with
    | some present =>
      rw [addEntry_of_present htable hentry]
      exact .refl loader
    | none =>
      rw [addEntry_of_new htable hentry]
      intro x old hold
      dsimp only
      rw [OrderedMap.get?_insert]
      by_cases hx : x = s
      · rw [hx, htable] at hold
        cases hold
        refine ⟨table.setEntry r.toEntry, if_pos hx, ?_⟩
        intro dest e he
        have hne : dest ≠ r.toEntry.dest := by
          rintro rfl
          exact Option.some_ne_none e (he.symm.trans hentry)
        rw [RoutingTable.setEntry, OrderedMap.get?_insert, if_neg hne]
        exact he
      · exact ⟨old, (if_neg hx).trans hold, fun _ _ he => he⟩

/-- Lines take nothing away, wherever the reading of them ends. -/
theorem growsTo_ingestEach (report : FileReport) (current : Option NodeId) (ls : List SourceLine)
    (loader : Loader) : loader.GrowsTo (ingestEach report current ls loader).state := by
  induction ls generalizing report current loader with
  | nil => exact .refl loader
  | cons l rest ih =>
    have hstep := ingestEach_step report current l rest loader
    generalize ingestEach report current (l :: rest) loader = run at hstep
    cases hstep with
    | unreadable read => exact .refl loader
    | header read => exact (growsTo_withTable loader _).trans (ih _ _ _)
    | orphan read => exact .refl loader
    | entry read => exact (growsTo_addEntry loader _ _).trans (ih _ _ _)
    | other read => exact ih _ _ _

/-- A source takes nothing away, wherever the reading of it ends. -/
theorem growsTo_ingestLines (source : String) (lines : List String) (loader : Loader) :
    loader.GrowsTo (ingestLines source lines loader).state := by
  have heach := growsTo_ingestEach { path := source, kind := .routes } none
    (SourceLine.number source 1 lines) loader
  rcases ingestLines_cases source lines loader with ⟨report, -, -, hstate⟩ | ⟨e, -, -, hstate⟩
  · rw [hstate]
    exact heach
  · rw [hstate]
    exact heach

end FabricPaths.Loader
