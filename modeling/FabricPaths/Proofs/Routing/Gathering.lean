import FabricPaths.Proofs.OrderedMap
import FabricPaths.Proofs.Routing.Dump

/-!
# What a loader gathers from dumps

Dumps are taken in one after another. The tables are those of the switches that the
dumps name, each with the first entry for every destination, and the entries that came
too late are counted. The main statement says so for all sequences of dumps.
-/

namespace FabricPaths

namespace Loader

/-- The pairs of a switch and a destination for which the table of the switch has an
entry. -/
def pairsOf (e : NodeId × RoutingTable) : List (NodeId × NodeId) :=
  e.2.entries.keys.map fun dest => (e.1, dest)

/-- The pairs of a switch and a destination for which there is an entry. -/
def stored (loader : Loader) : List (NodeId × NodeId) := loader.tables.entries.flatMap pairsOf

/-! ## Tables -/

/-- A switch with a table keeps it. -/
theorem withTable_of_get? {tables : RoutingTables} {s : NodeId} {table : RoutingTable}
    (h : tables.get? s = some table) : withTable tables s = tables := by
  unfold withTable OrderedMap.contains
  rw [h]
  rfl

/-- A switch without a table gets one without entries. -/
theorem withTable_of_new {tables : RoutingTables} {s : NodeId} (h : tables.get? s = none) :
    withTable tables s = tables.insert s { switch := s } := by
  unfold withTable OrderedMap.contains
  rw [h]
  rfl

/-- An entry that comes too late is counted. -/
theorem addEntry_of_present {loader : Loader} {s : NodeId} {table : RoutingTable}
    {r : RouteRecord} {present : RouteEntry} (htable : loader.tables.get? s = some table)
    (hpresent : table.entries.get? r.destId = some present) :
    (loader.addEntry s r).1 = { loader with duplicates := loader.duplicates + 1 } := by
  unfold addEntry OrderedMap.getD
  rw [htable]
  dsimp only [Option.getD_some]
  rw [hpresent]

/-- An entry for a new destination is put into the table. -/
theorem addEntry_of_new {loader : Loader} {s : NodeId} {table : RoutingTable}
    {r : RouteRecord} (htable : loader.tables.get? s = some table)
    (hnew : table.entries.get? r.destId = none) :
    (loader.addEntry s r).1 =
      { loader with tables := loader.tables.insert s (table.setEntry r.toEntry) } := by
  unfold addEntry OrderedMap.getD
  rw [htable]
  dsimp only [Option.getD_some]
  rw [hnew]
  rfl

/-! ## What is gathered -/

/-- The loader holds the tables of the switches, each with the first of the entries for
every destination, and counted the other entries. -/
structure Gathers (loader : Loader) (switches : List NodeId)
    (entries : List (NodeId × RouteRecord)) : Prop where
  /-- There is one table for each switch, in order of first appearance. -/
  keys : loader.tables.keys = switches.eraseDups
  /-- A table is about its switch. -/
  owner : ∀ s table, loader.tables.get? s = some table → table.switch = s
  /-- A table holds the first entry for every destination. -/
  first : ∀ s table, loader.tables.get? s = some table →
    ∀ dest, table.entries.get? dest = Dump.first? entries s dest
  /-- Entries belong to the switches. -/
  attributed : ∀ e ∈ entries, e.1 ∈ switches
  /-- An entry is stored or counted. -/
  counted : loader.duplicates + loader.stored.length = entries.length

namespace Gathers

variable {loader : Loader} {switches : List NodeId} {entries : List (NodeId × RouteRecord)}

/-- A new loader gathered nothing. -/
theorem empty : Gathers {} [] [] where
  keys := rfl
  owner := nofun
  first := nofun
  attributed := nofun
  counted := rfl

/-- There is a table for each of the switches. -/
theorem exists_table (h : Gathers loader switches entries) {s : NodeId} (hs : s ∈ switches) :
    ∃ table, loader.tables.get? s = some table := by
  rw [← OrderedMap.mem_keys_iff, h.keys]
  exact List.mem_eraseDups.mpr hs

/-- There is no table for any other switch. -/
theorem table_eq_none (h : Gathers loader switches entries) {s : NodeId} (hs : s ∉ switches) :
    loader.tables.get? s = none := by
  rw [Option.eq_none_iff_forall_not_mem]
  intro table htable
  have hkey := OrderedMap.mem_keys_of_get? htable
  rw [h.keys, List.mem_eraseDups] at hkey
  exact hs hkey

/-- A switch that has a table may be named again. -/
theorem name_again (h : Gathers loader switches entries) {s : NodeId} (hs : s ∈ switches) :
    Gathers loader (switches ++ [s]) entries := by
  refine ⟨?_, h.owner, h.first, ?_, h.counted⟩
  · rw [eraseDups_concat, if_pos hs]
    exact h.keys
  · exact fun e he => List.mem_append_left _ (h.attributed e he)

/-- A switch that is named for the first time gets a table without entries. -/
theorem name_new (h : Gathers loader switches entries) {s : NodeId} (hs : s ∉ switches) :
    Gathers { loader with tables := loader.tables.insert s { switch := s } }
      (switches ++ [s]) entries := by
  have hnone := h.table_eq_none hs
  refine ⟨?_, ?_, ?_, ?_, ?_⟩
  · rw [eraseDups_concat, if_neg hs, ← h.keys]
    exact OrderedMap.keys_insert_of_new hnone _
  · intro x table hx
    rw [OrderedMap.get?_insert] at hx
    split at hx
    · next he =>
      cases hx
      exact he.symm
    · exact h.owner x table hx
  · intro x table hx dest
    rw [OrderedMap.get?_insert] at hx
    split at hx
    · next he =>
      cases hx
      subst he
      have hother : ∀ e ∈ entries, e.1 ≠ x := by
        rintro e hmem rfl
        exact hs (h.attributed e hmem)
      exact (Dump.first?_eq_none hother dest).symm
    · exact h.first x table hx dest
  · exact fun e he => List.mem_append_left _ (h.attributed e he)
  · have hstored : stored { loader with tables := loader.tables.insert s { switch := s } } =
        loader.stored := by
      unfold stored
      rw [OrderedMap.entries_insert_of_new hnone, List.flatMap_append]
      exact List.append_nil _
    rw [hstored]
    exact h.counted

/-- A switch that is named has a table. -/
theorem name (h : Gathers loader switches entries) (s : NodeId) :
    Gathers { loader with tables := withTable loader.tables s } (switches ++ [s]) entries := by
  by_cases hs : s ∈ switches
  · obtain ⟨table, htable⟩ := h.exists_table hs
    rw [withTable_of_get? htable]
    exact h.name_again hs
  · rw [withTable_of_new (h.table_eq_none hs)]
    exact h.name_new hs

/-- One more entry of a named switch belongs to it. -/
theorem attributed_concat (h : Gathers loader switches entries) {s : NodeId} (hs : s ∈ switches)
    (r : RouteRecord) : ∀ e ∈ entries ++ [(s, r)], e.1 ∈ switches := by
  intro e he
  rcases List.mem_append.mp he with he | he
  · exact h.attributed e he
  · rw [List.mem_singleton.mp he]
    exact hs

/-- An entry that comes too late is no first entry, and is counted. -/
theorem enter_late (h : Gathers loader switches entries) {s : NodeId} (hs : s ∈ switches)
    {table : RoutingTable} {r : RouteRecord} {present : RouteEntry}
    (htable : loader.tables.get? s = some table)
    (hpresent : table.entries.get? r.destId = some present) :
    Gathers { loader with duplicates := loader.duplicates + 1 } switches
      (entries ++ [(s, r)]) := by
  have hfirst := h.first s table htable r.destId
  refine ⟨h.keys, h.owner, ?_, h.attributed_concat hs r, ?_⟩
  · intro x t hx dest
    rw [Dump.first?_concat, h.first x t hx dest]
    by_cases hsame : s = x ∧ r.destId = dest
    · obtain ⟨rfl, rfl⟩ := hsame
      rw [← hfirst, hpresent]
      rfl
    · rw [if_neg hsame, Option.or_none]
  · rw [List.length_append, List.length_singleton, ← h.counted]
    exact Nat.add_right_comm _ _ _

/-- An entry for a new destination is the first, and is stored. -/
theorem enter_new (h : Gathers loader switches entries) {s : NodeId} (hs : s ∈ switches)
    {table : RoutingTable} {r : RouteRecord} (htable : loader.tables.get? s = some table)
    (hnew : table.entries.get? r.destId = none) :
    Gathers { loader with tables := loader.tables.insert s (table.setEntry r.toEntry) } switches
      (entries ++ [(s, r)]) := by
  have hfirst := h.first s table htable r.destId
  refine ⟨?_, ?_, ?_, h.attributed_concat hs r, ?_⟩
  · rw [← h.keys]
    exact OrderedMap.keys_insert_of_get? htable _
  · intro x t hx
    rw [OrderedMap.get?_insert] at hx
    split at hx
    · next he =>
      cases hx
      rw [he]
      exact h.owner s table htable
    · exact h.owner x t hx
  · intro x t hx dest
    rw [OrderedMap.get?_insert] at hx
    rw [Dump.first?_concat]
    split at hx
    · next he =>
      cases hx
      subst he
      change (table.entries.insert r.destId r.toEntry).get? dest = _
      rw [OrderedMap.get?_insert]
      by_cases hdest : dest = r.destId
      · subst hdest
        rw [if_pos rfl, if_pos ⟨rfl, rfl⟩, ← hfirst, hnew]
        rfl
      · rw [if_neg hdest, if_neg (fun hsame => hdest hsame.2.symm), Option.or_none]
        exact h.first x table htable dest
    · next he =>
      rw [if_neg (fun hsame => he hsame.1.symm), Option.or_none]
      exact h.first x t hx dest
  · have hstored := OrderedMap.length_flatMap_insert_of_get? pairsOf htable
      (table.setEntry r.toEntry)
    have hkeys : (table.setEntry r.toEntry).entries.keys = table.entries.keys ++ [r.destId] :=
      OrderedMap.keys_insert_of_new hnew _
    have hpairs : (pairsOf (s, table.setEntry r.toEntry)).length =
        (pairsOf (s, table)).length + 1 := by
      simp only [pairsOf, hkeys, List.length_map, List.length_append, List.length_singleton]
    rw [List.length_append, List.length_singleton, ← h.counted]
    change loader.duplicates +
      ((loader.tables.insert s (table.setEntry r.toEntry)).entries.flatMap pairsOf).length = _
    unfold stored
    omega

/-- An entry for a named switch is stored if it is the first for its destination, and
else counted. -/
theorem enter (h : Gathers loader switches entries) {s : NodeId} (hs : s ∈ switches)
    (r : RouteRecord) :
    Gathers (loader.addEntry s r).1 switches (entries ++ [(s, r)]) := by
  obtain ⟨table, htable⟩ := h.exists_table hs
  cases hpresent : table.entries.get? r.destId with
  | some present =>
    rw [addEntry_of_present htable hpresent]
    exact h.enter_late hs htable hpresent
  | none =>
    rw [addEntry_of_new htable hpresent]
    exact h.enter_new hs htable hpresent

/-- What is gathered depends on tables and count alone. -/
theorem congr (h : Gathers loader switches entries) {other : Loader}
    (htables : other.tables = loader.tables) (hduplicates : other.duplicates = loader.duplicates) :
    Gathers other switches entries := by
  obtain ⟨tables, files, duplicates⟩ := other
  cases htables
  cases hduplicates
  exact ⟨h.keys, h.owner, h.first, h.attributed, h.counted⟩

end Gathers

/-! ## Lines -/

/-- The loader gathered the lines on top of what there was. -/
def GathersLines (switches : List NodeId) (entries : List (NodeId × RouteRecord))
    (lines : List String) (loader : Loader) : Prop :=
  Gathers loader (switches ++ lines.filterMap Dump.header?) (entries ++ Dump.entries lines)

namespace GathersLines

variable {switches : List NodeId} {entries : List (NodeId × RouteRecord)} {lines : List String}
  {loader : Loader} {raw : String}

/-- A header is gathered with a table for its switch. -/
theorem header (g : GathersLines switches entries lines loader) {s : NodeId}
    (hheader : Dump.header? raw = some s) (hentry : Dump.record? raw = none) :
    GathersLines switches entries (lines ++ [raw])
      { loader with tables := withTable loader.tables s } := by
  have hnamed : (lines ++ [raw]).filterMap Dump.header? = lines.filterMap Dump.header? ++ [s] := by
    rw [List.filterMap_append, List.filterMap_cons_some hheader, List.filterMap_nil]
  unfold GathersLines
  rw [hnamed, Dump.entries_concat_of_none hentry, ← List.append_assoc]
  exact g.name s

/-- An entry is gathered with an entry in the table of the latest header. -/
theorem entry (g : GathersLines switches entries lines loader) {s : NodeId} {r : RouteRecord}
    (hlatest : Dump.latest? lines = some s) (hheader : Dump.header? raw = none)
    (hentry : Dump.record? raw = some r) :
    GathersLines switches entries (lines ++ [raw]) (loader.addEntry s r).1 := by
  have hnamed : (lines ++ [raw]).filterMap Dump.header? = lines.filterMap Dump.header? := by
    rw [List.filterMap_append, List.filterMap_cons_none hheader, List.filterMap_nil,
      List.append_nil]
  have hentries : Dump.entries (lines ++ [raw]) = Dump.entries lines ++ [(s, r)] := by
    rw [Dump.entries_concat, hlatest, hentry]
    rfl
  unfold GathersLines
  rw [hnamed, hentries, ← List.append_assoc]
  exact g.enter (List.mem_append_right _ (Dump.mem_of_latest? hlatest)) r

/-- Any other line is gathered with nothing. -/
theorem other (g : GathersLines switches entries lines loader)
    (hheader : Dump.header? raw = none) (hentry : Dump.record? raw = none) :
    GathersLines switches entries (lines ++ [raw]) loader := by
  have hnamed : (lines ++ [raw]).filterMap Dump.header? = lines.filterMap Dump.header? := by
    rw [List.filterMap_append, List.filterMap_cons_none hheader, List.filterMap_nil,
      List.append_nil]
  unfold GathersLines
  rw [hnamed, Dump.entries_concat_of_none hentry]
  exact g

end GathersLines

/-- Behind a header, lines are gathered to their end. -/
theorem gathersLines_ingestEach {switches : List NodeId} {entries : List (NodeId × RouteRecord)}
    (ls : List SourceLine) (readable : ∀ l ∈ ls, ∃ line, RouteLine.read l.raw = .ok line)
    (report : FileReport) {lines : List String} {s : NodeId} {loader : Loader}
    (hlatest : Dump.latest? lines = some s) (g : GathersLines switches entries lines loader) :
    ∃ report', (ingestEach report (some s) ls loader).outcome = .ok report' ∧
      report'.aborted = report.aborted ∧
      GathersLines switches entries (lines ++ ls.map (·.raw))
        (ingestEach report (some s) ls loader).state := by
  induction ls generalizing report lines s loader with
  | nil =>
    refine ⟨report, rfl, rfl, ?_⟩
    rw [List.map_nil, List.append_nil]
    exact g
  | cons l rest ih =>
    obtain ⟨hl, hrest⟩ := List.forall_mem_cons.mp readable
    have hstep := ingestEach_step report (some s) l rest loader
    generalize ingestEach report (some s) (l :: rest) loader = run at hstep
    rw [List.map_cons, List.append_cons]
    cases hstep with
    | unreadable read =>
      obtain ⟨line, hline⟩ := hl
      rw [read] at hline
      cases hline
    | header read =>
      obtain ⟨hheader, hentry⟩ := Dump.of_read read
      exact ih hrest report.countLine.countRecord (Dump.latest?_concat_of_header hheader lines)
        (g.header hheader hentry)
    | entry read =>
      obtain ⟨hheader, hentry⟩ := Dump.of_read read
      exact ih hrest report.countLine.countRecord
        ((Dump.latest?_concat_of_other hheader lines).trans hlatest)
        (g.entry hlatest hheader hentry)
    | other read =>
      obtain ⟨hheader, hentry⟩ := Dump.of_read read
      exact ih hrest (report.countLine.skip _)
        ((Dump.latest?_concat_of_other hheader lines).trans hlatest) (g.other hheader hentry)

/-- How a dump is taken in: not at all if it is orphaned, and else to its end. -/
inductive TakenIn (switches : List NodeId) (entries : List (NodeId × RouteRecord))
    (lines : List String) (loader : Loader) (run : Run Loader FileReport) : Prop
  /-- The dump is given up, and the loader is as it was. -/
  | givenUp (orphaned : Dump.orphaned lines = true) {report : FileReport}
    (succeeds : run.outcome = .ok report) (aborted : report.aborted = true)
    (records : report.records = 0) (tables : run.state.tables = loader.tables)
    (duplicates : run.state.duplicates = loader.duplicates)
  /-- The dump is gathered. -/
  | gathered (orphaned : Dump.orphaned lines = false) {report : FileReport}
    (succeeds : run.outcome = .ok report) (aborted : report.aborted = false)
    (gathers : GathersLines switches entries lines run.state)

/-- Before any header, lines are gathered to their end unless an entry comes first. -/
theorem takenIn_ingestEach {switches : List NodeId} {entries : List (NodeId × RouteRecord)}
    (ls : List SourceLine) (readable : ∀ l ∈ ls, ∃ line, RouteLine.read l.raw = .ok line)
    (report : FileReport) (hrecords : report.records = 0) (haborted : report.aborted = false)
    {lines : List String} (quiet : lines.find? Dump.tells = none) {loader : Loader}
    (g : GathersLines switches entries lines loader) :
    TakenIn switches entries (lines ++ ls.map (·.raw)) loader
      (ingestEach report none ls loader) := by
  induction ls generalizing report lines with
  | nil =>
    rw [List.map_nil, List.append_nil]
    exact .gathered (Dump.orphaned_of_quiet quiet) rfl haborted g
  | cons l rest ih =>
    obtain ⟨hl, hrest⟩ := List.forall_mem_cons.mp readable
    have hstep := ingestEach_step report none l rest loader
    generalize ingestEach report none (l :: rest) loader = run at hstep
    rw [List.map_cons]
    cases hstep with
    | unreadable read =>
      obtain ⟨line, hline⟩ := hl
      rw [read] at hline
      cases hline
    | header read =>
      obtain ⟨hheader, hentry⟩ := Dump.of_read read
      obtain ⟨report', houtcome, hsame, hgathers⟩ := gathersLines_ingestEach rest hrest
        report.countLine.countRecord (Dump.latest?_concat_of_header hheader lines)
        (g.header hheader hentry)
      refine .gathered ?_ houtcome (hsame.trans haborted) ?_
      · rw [Dump.orphaned_append_of_quiet quiet (Dump.tells_of_header? hheader), hentry]
        rfl
      · rw [List.append_cons]
        exact hgathers
    | orphan read =>
      obtain ⟨-, hentry⟩ := Dump.of_read read
      refine .givenUp ?_ rfl rfl hrecords rfl rfl
      rw [Dump.orphaned_append_of_quiet quiet (Dump.tells_of_record? hentry), hentry]
      rfl
    | other read =>
      obtain ⟨hheader, hentry⟩ := Dump.of_read read
      rw [List.append_cons]
      exact ih hrest (report.countLine.skip _) hrecords haborted
        (Dump.quiet_concat quiet hheader hentry) (g.other hheader hentry)

/-- A dump is taken in on top of what there was. -/
theorem takenIn_ingestLines {switches : List NodeId} {entries : List (NodeId × RouteRecord)}
    {loader : Loader} (hg : Gathers loader switches entries) (d : Dump) (readable : d.Readable) :
    TakenIn switches entries d.lines loader (ingestLines d.source d.lines loader) := by
  have hread : ∀ l ∈ SourceLine.number d.source 1 d.lines,
      ∃ line, RouteLine.read l.raw = .ok line := by
    intro l hl
    have hraw := List.mem_map_of_mem (f := (·.raw)) hl
    rw [SourceLine.map_raw_number] at hraw
    exact RouteLine.read_of_entry (readable _ hraw)
  have g : GathersLines switches entries [] loader := by
    unfold GathersLines
    rw [show Dump.entries [] = [] from rfl, List.filterMap_nil, List.append_nil, List.append_nil]
    exact hg
  have htaken := takenIn_ingestEach (SourceLine.number d.source 1 d.lines) hread
    { path := d.source, kind := .routes } rfl rfl rfl g
  rw [SourceLine.map_raw_number, List.nil_append] at htaken
  rcases ingestLines_cases d.source d.lines loader with
    ⟨report, heach, houtcome, hstate⟩ | ⟨e, heach, -, -⟩
  · cases htaken with
    | givenUp orphaned succeeds aborted records tables duplicates =>
      rw [heach] at succeeds
      cases succeeds
      refine .givenUp orphaned houtcome aborted records ?_ ?_
      · rw [hstate]
        exact tables
      · rw [hstate]
        exact duplicates
    | gathered orphaned succeeds aborted gathers =>
      rw [heach] at succeeds
      cases succeeds
      refine .gathered orphaned houtcome aborted ?_
      rw [hstate]
      exact Gathers.congr gathers rfl rfl
  · cases htaken with
    | givenUp _ succeeds =>
      rw [heach] at succeeds
      cases succeeds
    | gathered _ succeeds =>
      rw [heach] at succeeds
      cases succeeds

/-! ## Dumps -/

/-- The loader after dumps were taken in one after another. -/
def after (dumps : List Dump) : Loader :=
  dumps.foldl (fun loader d => (ingestLines d.source d.lines loader).state) {}

/-- The last dump is taken in after the others. -/
theorem after_concat (dumps : List Dump) (d : Dump) :
    after (dumps ++ [d]) = (ingestLines d.source d.lines (after dumps)).state :=
  List.foldl_append

/-- A dump adds what it names and holds. -/
theorem TakenIn.gathers {switches : List NodeId} {entries : List (NodeId × RouteRecord)}
    {loader : Loader} (hg : Gathers loader switches entries) {d : Dump}
    {run : Run Loader FileReport} (h : TakenIn switches entries d.lines loader run) :
    Gathers run.state (switches ++ d.named) (entries ++ d.added) := by
  unfold Dump.named Dump.added
  cases h with
  | givenUp orphaned _ _ _ tables duplicates =>
    rw [if_pos orphaned, if_pos orphaned, List.append_nil, List.append_nil]
    exact hg.congr tables duplicates
  | gathered orphaned _ _ gathers =>
    rw [if_neg (Bool.eq_false_iff.mp orphaned), if_neg (Bool.eq_false_iff.mp orphaned)]
    exact gathers

/-- After dumps, the loader gathered what they name and hold. -/
theorem gathers_after (dumps : List Dump) (readable : ∀ d ∈ dumps, d.Readable) :
    Gathers (after dumps) (dumps.flatMap Dump.named) (dumps.flatMap Dump.added) := by
  suffices h : ∀ (loader : Loader) (switches : List NodeId)
      (entries : List (NodeId × RouteRecord)), Gathers loader switches entries →
      Gathers (dumps.foldl (fun loader d => (ingestLines d.source d.lines loader).state) loader)
        (switches ++ dumps.flatMap Dump.named) (entries ++ dumps.flatMap Dump.added) from
    h {} [] [] .empty
  intro loader switches entries hg
  induction dumps generalizing loader switches entries with
  | nil =>
    rw [List.flatMap_nil, List.flatMap_nil, List.append_nil, List.append_nil]
    exact hg
  | cons d rest ih =>
    obtain ⟨hd, hrest⟩ := List.forall_mem_cons.mp readable
    rw [List.flatMap_cons, List.flatMap_cons, ← List.append_assoc, ← List.append_assoc]
    exact ih hrest _ _ _ ((takenIn_ingestLines hg d hd).gathers hg)

/-- Every entry of the one loader is an entry of the other. -/
def GrowsTo (loader later : Loader) : Prop :=
  ∀ s table, loader.tables.get? s = some table → ∃ table', later.tables.get? s = some table' ∧
    ∀ dest e, table.entries.get? dest = some e → table'.entries.get? dest = some e

/-- What gathers more holds the same entries. -/
theorem Gathers.growsTo {loader later : Loader} {switches switches' : List NodeId}
    {entries entries' : List (NodeId × RouteRecord)} (h : Gathers loader switches entries)
    (h' : Gathers later switches' entries') (hswitches : switches <+: switches')
    (hentries : entries <+: entries') : loader.GrowsTo later := by
  intro s table htable
  have hs : s ∈ switches := by
    have hkey := OrderedMap.mem_keys_of_get? htable
    rwa [h.keys, List.mem_eraseDups] at hkey
  obtain ⟨table', htable'⟩ := h'.exists_table (hswitches.mem hs)
  refine ⟨table', htable', fun dest e he => ?_⟩
  rw [h.first s table htable] at he
  rw [h'.first s table' htable']
  exact Dump.first?_mono hentries he

/-- What a cut dump comes to is a beginning of what all dumps come to. -/
theorem flatMap_prefix_of_cut {α : Type} {f : Dump → List α} {d d' : Dump} (h : f d <+: f d')
    (before rest : List Dump) :
    (before ++ [d]).flatMap f <+: (before ++ d' :: rest).flatMap f := by
  rw [List.flatMap_append, List.flatMap_append, List.flatMap_singleton, List.flatMap_cons]
  exact (List.prefix_append_right_inj _).mpr (h.trans (List.prefix_append _ _))

/-- Dumps are taken in one after another. A dump is given up exactly if its first header or
entry is an entry, and then nothing changes; every entry of any other dump belongs to the
latest header before it in the dump. The tables are those of the switches named, in order of
first appearance, each with the first entry for every destination; every other entry is
counted. What is stored at any time, also in the middle of a dump, is stored at the end. -/
theorem tables_hold_first_entries (dumps : List Dump) (readable : ∀ d ∈ dumps, d.Readable) :
    (∀ before d rest, dumps = before ++ d :: rest →
      ∃ report, (ingestLines d.source d.lines (after before)).outcome = .ok report ∧
        report.aborted = Dump.orphaned d.lines ∧
        (Dump.orphaned d.lines = true → report.records = 0 ∧
          (after (before ++ [d])).tables = (after before).tables ∧
          (after (before ++ [d])).duplicates = (after before).duplicates) ∧
        (Dump.orphaned d.lines = false →
          (Dump.entries d.lines).map Prod.snd = d.lines.filterMap Dump.record?)) ∧
      Gathers (after dumps) (dumps.flatMap Dump.named) (dumps.flatMap Dump.added) ∧
      ∀ before source lines more rest, dumps = before ++ ⟨source, lines ++ more⟩ :: rest →
        (after (before ++ [⟨source, lines⟩])).GrowsTo (after dumps) := by
  refine ⟨?_, gathers_after dumps readable, ?_⟩
  · rintro before d rest rfl
    obtain ⟨hbefore, hd⟩ := List.forall_mem_append.mp readable
    rw [after_concat]
    cases takenIn_ingestLines (gathers_after before hbefore) d (hd d List.mem_cons_self) with
    | givenUp orphaned succeeds aborted records tables duplicates =>
      refine ⟨_, succeeds, aborted.trans orphaned.symm, fun _ => ⟨records, tables, duplicates⟩, ?_⟩
      exact Dump.map_snd_entries
    | gathered orphaned succeeds aborted gathers =>
      refine ⟨_, succeeds, aborted.trans orphaned.symm, fun h => ?_, Dump.map_snd_entries⟩
      rw [orphaned] at h
      cases h
  · rintro before source lines more rest rfl
    have hcut : ∀ d ∈ before ++ [⟨source, lines⟩], d.Readable := by
      intro d hd
      rcases List.mem_append.mp hd with hd | hd
      · exact readable d (List.mem_append_left _ hd)
      · rw [List.mem_singleton.mp hd]
        intro raw hraw
        exact readable ⟨source, lines ++ more⟩ (List.mem_append_right _ List.mem_cons_self) raw
          (List.mem_append_left _ hraw)
    exact (gathers_after _ hcut).growsTo (gathers_after _ readable)
      (flatMap_prefix_of_cut (Dump.prefix_named source lines more) before rest)
      (flatMap_prefix_of_cut (Dump.prefix_added source lines more) before rest)

/-- A dump of one switch with a late entry, an orphaned dump, and a dump of another switch
that goes back to the first. -/
def sampleDumps : List Dump := [
  ⟨"r0", [
    "Unicast lids guid 0x00000000000000a1:",
    "0x1 1 : (Switch portguid 0x0000000000000011:",
    "2 valid lids dumped",
    "0x1 2 : (Switch portguid 0x0000000000000011:"]⟩,
  ⟨"r1", [
    "0x1 4 : (Switch portguid 0x0000000000000012:",
    "Unicast lids guid 0x00000000000000c3:"]⟩,
  ⟨"r2", [
    "Unicast lids guid 0x00000000000000b2:",
    "Unicast lids guid 0x00000000000000a1:",
    "0x1 9 : (Switch portguid 0x0000000000000011:",
    "0x2 5 : (Switch portguid 0x0000000000000012:"]⟩]

/-- The lines of the dumps can be read. -/
theorem readable_sampleDumps : ∀ d ∈ sampleDumps, d.Readable := by
  have hread : ∀ d ∈ sampleDumps, ∀ raw ∈ d.lines, (Route.parseEntry raw).isOk = true := by
    decide +kernel
  exact fun d hd => Dump.readable_of_isOk (hread d hd)

/-- Two switches have tables, and two entries of four are stored. -/
theorem sampleDumps_gathered : (∀ d ∈ sampleDumps, d.Readable) ∧
    (after sampleDumps).tables.keys = [⟨"0000:0000:0000:00a1"⟩, ⟨"0000:0000:0000:00b2"⟩] ∧
    (after sampleDumps).duplicates + (after sampleDumps).stored.length = 4 ∧
    ∀ table, (after sampleDumps).tables.get? ⟨"0000:0000:0000:00a1"⟩ = some table →
      table.egressPort? (.ofGuid "0000000000000011") = some 1 ∧
        table.egressPort? (.ofGuid "0000000000000012") = some 5 := by
  obtain ⟨-, h, -⟩ := tables_hold_first_entries sampleDumps readable_sampleDumps
  have hsays : (sampleDumps.flatMap Dump.named, sampleDumps.flatMap Dump.added) =
      ([⟨"0000:0000:0000:00a1"⟩, ⟨"0000:0000:0000:00b2"⟩, ⟨"0000:0000:0000:00a1"⟩], [
        (⟨"0000:0000:0000:00a1"⟩, ⟨1, 1, .switch, "0000000000000011"⟩),
        (⟨"0000:0000:0000:00a1"⟩, ⟨1, 2, .switch, "0000000000000011"⟩),
        (⟨"0000:0000:0000:00a1"⟩, ⟨1, 9, .switch, "0000000000000011"⟩),
        (⟨"0000:0000:0000:00a1"⟩, ⟨2, 5, .switch, "0000000000000012"⟩)]) := by
    decide +kernel
  obtain ⟨hnamed, hadded⟩ := Prod.mk.inj hsays
  rw [hnamed, hadded] at h
  refine ⟨readable_sampleDumps, ?_, h.counted, ?_⟩
  · rw [h.keys]
    decide +kernel
  · intro table htable
    unfold RoutingTable.egressPort?
    rw [h.first _ table htable, h.first _ table htable]
    decide +kernel

end Loader

end FabricPaths
