import Mathlib.Data.List.Basic
import FabricPaths.Proofs.Routing.Reading

/-!
# What a route dump says

A dump names switches in its headers, and each entry belongs to the switch of the
latest header before it. A dump with an entry before any header is orphaned and says
nothing. These meanings are read off the lines of a dump, not off the loading of them.
-/

namespace FabricPaths

/-- The entry that a record asks for. -/
def RouteRecord.toEntry (r : RouteRecord) : RouteEntry := ⟨r.destId, r.port, r.destLid, r.kind⟩

/-- The lines of a route dump with the name of their source. -/
structure Dump where
  /-- The source as reports name it. -/
  source : String
  /-- The lines in order. -/
  lines : List String
deriving Inhabited

namespace Dump

/-- The switch that a line names if it is a header. -/
def header? (raw : String) : Option NodeId := (Route.parseHeader raw).map (·.switchId)

/-- The entry that a line holds if it is an entry. -/
def record? (raw : String) : Option RouteRecord :=
  match Route.parseEntry raw with
  | .ok r => r
  | .error _ => none

/-- The line is a header or an entry. -/
def tells (raw : String) : Bool := (header? raw).isSome || (record? raw).isSome

/-- The switch of the latest header. -/
def latest? (lines : List String) : Option NodeId := lines.reverse.findSome? header?

/-- The entries of lines, each with the switch of the latest header before it. -/
def entries (lines : List String) : List (NodeId × RouteRecord) :=
  lines.zipIdx.filterMap fun (raw, i) => do return (← latest? (lines.take i), ← record? raw)

/-- The first entry of a switch for a destination. -/
def first? (entries : List (NodeId × RouteRecord)) (switch dest : NodeId) :
    Option RouteEntry :=
  (entries.find? fun e => e.1 = switch ∧ e.2.destId = dest).map fun e => e.2.toEntry

/-- The first line that is a header or an entry is an entry. -/
def orphaned (lines : List String) : Bool := ((lines.find? tells).bind record?).isSome

/-- The switches that a dump names, unless it is orphaned. -/
def named (d : Dump) : List NodeId :=
  if orphaned d.lines then [] else d.lines.filterMap header?

/-- The entries of a dump, unless it is orphaned. -/
def added (d : Dump) : List (NodeId × RouteRecord) :=
  if orphaned d.lines then [] else entries d.lines

/-- No line of the dump is refused. -/
def Readable (d : Dump) : Prop :=
  ∀ raw ∈ d.lines, ∃ entry, Route.parseEntry raw = .ok entry

/-- A dump can be checked for lines that are refused. -/
theorem readable_of_isOk {d : Dump} (h : ∀ raw ∈ d.lines, (Route.parseEntry raw).isOk = true) :
    d.Readable := by
  intro raw hraw
  have hok := h raw hraw
  cases hentry : Route.parseEntry raw with
  | ok entry => exact ⟨entry, rfl⟩
  | error e =>
    rw [hentry] at hok
    cases hok

/-! ## Lines -/

/-- The switch of a line that is read. -/
def switchOf? : Loader.RouteLine → Option NodeId
  | .header h => some h.switchId
  | .entry _ | .other => none

/-- The entry of a line that is read. -/
def recordOf? : Loader.RouteLine → Option RouteRecord
  | .entry r => some r
  | .header _ | .other => none

/-- A line is read as what it names and holds; no line does both. -/
theorem of_read {raw : String} {line : Loader.RouteLine}
    (read : Loader.RouteLine.read raw = .ok line) :
    header? raw = switchOf? line ∧ record? raw = recordOf? line := by
  unfold Loader.RouteLine.read at read
  unfold header?
  cases hheader : Route.parseHeader raw with
  | some h =>
    rw [hheader] at read
    cases read
    refine ⟨rfl, ?_⟩
    unfold record? Route.parseEntry
    rw [Route.scanEntry_of_header hheader]
    rfl
  | none =>
    rw [hheader] at read
    unfold record?
    cases hentry : Route.parseEntry raw with
    | error e =>
      rw [hentry] at read
      cases read
    | ok entry =>
      rw [hentry] at read
      cases entry with
      | none =>
        cases read
        exact ⟨rfl, rfl⟩
      | some r =>
        cases read
        exact ⟨rfl, rfl⟩

/-- A header holds no entry. -/
theorem record?_of_header? {raw : String} {s : NodeId} (h : header? raw = some s) :
    record? raw = none := by
  obtain ⟨r, hparse, -⟩ := Option.map_eq_some_iff.mp h
  exact (of_read (Loader.RouteLine.read_of_header hparse)).2

/-- A line that cannot be read tells nothing. -/
theorem tells_of_unreadable {raw : String} {e : Failure}
    (h : Loader.RouteLine.read raw = .error e) : tells raw = false := by
  have hentry := Loader.RouteLine.read_eq_error_iff.mp h
  have hheader : Route.parseHeader raw = none := by
    cases hheader : Route.parseHeader raw with
    | none => rfl
    | some header =>
      rw [Loader.RouteLine.read_of_header hheader] at h
      cases h
  unfold tells header? record?
  rw [hheader, hentry]
  rfl

/-! ## The latest header -/

/-- The latest header is the last line, if that is one, or is found before it. -/
theorem latest?_concat (lines : List String) (raw : String) :
    latest? (lines ++ [raw]) = (header? raw).or (latest? lines) := by
  unfold latest?
  rw [List.reverse_append, List.reverse_singleton, List.singleton_append, List.findSome?_cons]
  cases header? raw with
  | none => rfl
  | some s => rfl

/-- A header is the latest. -/
theorem latest?_concat_of_header {raw : String} {s : NodeId} (h : header? raw = some s)
    (lines : List String) : latest? (lines ++ [raw]) = some s := by
  rw [latest?_concat, h]
  rfl

/-- A line that is no header leaves the latest header. -/
theorem latest?_concat_of_other {raw : String} (h : header? raw = none) (lines : List String) :
    latest? (lines ++ [raw]) = latest? lines := by
  rw [latest?_concat, h]
  rfl

/-- There is no latest header exactly if there is no header. -/
theorem latest?_eq_none_iff {lines : List String} :
    latest? lines = none ↔ ∀ raw ∈ lines, header? raw = none := by
  unfold latest?
  rw [List.findSome?_eq_none_iff]
  simp only [List.mem_reverse]

/-- The switch of the latest header is named. -/
theorem mem_of_latest? {lines : List String} {s : NodeId} (h : latest? lines = some s) :
    s ∈ lines.filterMap header? := by
  obtain ⟨raw, hraw, hheader⟩ := List.exists_of_findSome?_eq_some h
  exact List.mem_filterMap.mpr ⟨raw, List.mem_reverse.mp hraw, hheader⟩

/-! ## Entries -/

/-- The entries of the first lines do not depend on the later ones. -/
theorem entries_append (lines more : List String) : entries (lines ++ more) =
    entries lines ++ (more.zipIdx lines.length).filterMap fun (raw, i) =>
      do return (← latest? ((lines ++ more).take i), ← record? raw) := by
  unfold entries
  rw [List.zipIdx_append, List.filterMap_append, Nat.zero_add]
  congr 1
  apply List.filterMap_congr
  rintro ⟨raw, i⟩ hi
  have hlt : i < lines.length := by
    obtain ⟨-, h, -⟩ := List.mem_zipIdx hi
    rwa [Nat.zero_add] at h
  dsimp only
  rw [List.take_append_of_le_length (Nat.le_of_lt hlt)]

/-- A line adds its entry for the switch of the latest header. -/
theorem entries_concat (lines : List String) (raw : String) : entries (lines ++ [raw]) =
    entries lines ++ (do return (← latest? lines, ← record? raw) : Option _).toList := by
  rw [entries_append, List.zipIdx_singleton, List.filterMap_cons, List.filterMap_nil]
  dsimp only
  rw [List.take_left]
  cases latest? lines with
  | none => rfl
  | some s =>
    cases record? raw with
    | none => rfl
    | some r => rfl

/-- A line without an entry adds none. -/
theorem entries_concat_of_none {raw : String} (h : record? raw = none) (lines : List String) :
    entries (lines ++ [raw]) = entries lines := by
  rw [entries_concat, h]
  cases latest? lines with
  | none => exact List.append_nil _
  | some s => exact List.append_nil _

/-! ## First entries -/

/-- An entry counts if there is none before it. -/
theorem first?_concat (entries : List (NodeId × RouteRecord)) (e : NodeId × RouteRecord)
    (switch dest : NodeId) : first? (entries ++ [e]) switch dest =
      (first? entries switch dest).or
        (if e.1 = switch ∧ e.2.destId = dest then some e.2.toEntry else none) := by
  unfold first?
  rw [List.find?_append, Option.map_or]
  refine congrArg (Option.or _) ?_
  simp only [List.find?_singleton, decide_eq_true_eq]
  by_cases h : e.1 = switch ∧ e.2.destId = dest
  · rw [if_pos h, if_pos h]
    rfl
  · rw [if_neg h, if_neg h]
    rfl

/-- The first entry stays the first. -/
theorem first?_mono {short long : List (NodeId × RouteRecord)} (h : short <+: long)
    {switch dest : NodeId} {e : RouteEntry} (he : first? short switch dest = some e) :
    first? long switch dest = some e := by
  obtain ⟨more, rfl⟩ := h
  unfold first? at he ⊢
  rw [List.find?_append, Option.map_or, he]
  rfl

/-- A switch without entries has no first entry. -/
theorem first?_eq_none {entries : List (NodeId × RouteRecord)} {switch : NodeId}
    (h : ∀ e ∈ entries, e.1 ≠ switch) (dest : NodeId) :
    first? entries switch dest = none := by
  unfold first?
  rw [Option.map_eq_none_iff, List.find?_eq_none]
  intro e he hdec
  exact h e he (of_decide_eq_true hdec).1

/-! ## Lines that tell nothing -/

/-- No line tells anything exactly if none is a header or an entry. -/
theorem find?_tells_eq_none_iff {lines : List String} :
    lines.find? tells = none ↔ ∀ raw ∈ lines, header? raw = none ∧ record? raw = none := by
  rw [List.find?_eq_none]
  simp only [tells, Bool.or_eq_true, not_or, Option.not_isSome_iff_eq_none]

/-- An entry tells something. -/
theorem tells_of_record? {raw : String} {r : RouteRecord} (h : record? raw = some r) :
    tells raw = true := by
  unfold tells
  rw [h, Option.isSome_some, Bool.or_true]

/-- A header tells something. -/
theorem tells_of_header? {raw : String} {s : NodeId} (h : header? raw = some s) :
    tells raw = true := by
  unfold tells
  rw [h, Option.isSome_some, Bool.true_or]

/-- A line that tells something and is no header is an entry. -/
theorem isSome_record?_of_tells {raw : String} (h : tells raw = true) (hh : header? raw = none) :
    (record? raw).isSome = true := by
  unfold tells at h
  rwa [hh, Option.isSome_none, Bool.false_or] at h

/-- Without a header there are no entries that belong to a switch. -/
theorem entries_of_headerless {lines : List String} (h : ∀ raw ∈ lines, header? raw = none) :
    entries lines = [] := by
  unfold entries
  rw [List.filterMap_eq_nil_iff]
  rintro ⟨raw, i⟩ -
  have hlatest : latest? (lines.take i) = none :=
    latest?_eq_none_iff.mpr fun x hx => h x (List.mem_of_mem_take hx)
  dsimp only
  rw [hlatest]
  rfl

/-- One more line that tells nothing makes no difference. -/
theorem quiet_concat {lines : List String} {raw : String} (h : lines.find? tells = none)
    (hheader : header? raw = none) (hentry : record? raw = none) :
    (lines ++ [raw]).find? tells = none := by
  rw [find?_tells_eq_none_iff] at h ⊢
  intro x hx
  rcases List.mem_append.mp hx with hx | hx
  · exact h x hx
  · rw [List.mem_singleton.mp hx]
    exact ⟨hheader, hentry⟩

/-! ## Orphaned dumps -/

/-- Lines that tell nothing make no orphan. -/
theorem orphaned_of_quiet {lines : List String} (h : lines.find? tells = none) :
    orphaned lines = false := by
  unfold orphaned
  rw [h]
  rfl

/-- What the first telling line is like is not changed by later lines. -/
theorem orphaned_append_of_tells {lines : List String} {raw : String}
    (h : lines.find? tells = some raw) (more : List String) :
    orphaned (lines ++ more) = (record? raw).isSome := by
  unfold orphaned
  rw [List.find?_append, h]
  rfl

/-- A telling line behind lines that tell nothing decides. -/
theorem orphaned_append_of_quiet {lines : List String} {raw : String}
    (h : lines.find? tells = none) (hraw : tells raw = true) (more : List String) :
    orphaned (lines ++ raw :: more) = (record? raw).isSome := by
  unfold orphaned
  rw [List.find?_append, h, Option.none_or, List.find?_cons_of_pos hraw]
  rfl

/-- The first line decides if it tells something. -/
theorem orphaned_cons (raw : String) (lines : List String) : orphaned (raw :: lines) =
    if tells raw then (record? raw).isSome else orphaned lines := by
  unfold orphaned
  rw [List.find?_cons]
  cases tells raw with
  | true => rfl
  | false => rfl

/-- A header in front makes no orphan and an entry in front makes one; other lines do not
decide. -/
theorem orphaned_cons_of_read {raw : String} {line : Loader.RouteLine}
    (read : Loader.RouteLine.read raw = .ok line) (lines : List String) :
    orphaned (raw :: lines) = match line with
      | .header _ => false
      | .entry _ => true
      | .other => orphaned lines := by
  obtain ⟨hheader, hentry⟩ := of_read read
  rw [orphaned_cons, tells, hheader, hentry]
  cases line with
  | header header => rfl
  | entry r => rfl
  | other => rfl

/-- Every entry of a dump that is not orphaned belongs to a switch. -/
theorem map_snd_entries {lines : List String} (h : orphaned lines = false) :
    (entries lines).map Prod.snd = lines.filterMap record? := by
  have hlines : lines.filterMap record? = lines.zipIdx.filterMap fun x => record? x.1 := by
    conv_lhs => rw [← List.zipIdx_map_fst 0 lines, List.filterMap_map]
    rfl
  unfold entries
  rw [hlines, List.map_filterMap]
  apply List.filterMap_congr
  rintro ⟨raw, i⟩ hi
  obtain ⟨hlt, hget⟩ := List.getElem?_eq_some_iff.mp (List.mem_zipIdx_iff_getElem?.mp hi)
  dsimp only at hlt hget ⊢
  cases hentry : record? raw with
  | none =>
    cases latest? (lines.take i) with
    | none => rfl
    | some s => rfl
  | some r =>
    cases hlatest : latest? (lines.take i) with
    | some s => rfl
    | none =>
      have hheaderless := latest?_eq_none_iff.mp hlatest
      have hsplit : lines = lines.take i ++ raw :: lines.drop (i + 1) := by
        rw [← hget, ← List.drop_eq_getElem_cons, List.take_append_drop]
      have horphaned : orphaned lines = true := by
        rw [hsplit]
        cases hfind : (lines.take i).find? tells with
        | none =>
          rw [orphaned_append_of_quiet hfind (tells_of_record? hentry), hentry]
          rfl
        | some x =>
          rw [orphaned_append_of_tells hfind]
          exact isSome_record?_of_tells (List.find?_some hfind)
            (hheaderless x (List.mem_of_find?_eq_some hfind))
      rw [h] at horphaned
      cases horphaned

/-! ## Dumps that are cut short -/

/-- What only grows with the lines, and is nothing where lines tell nothing, grows with the
lines of dumps that count unless they are orphaned. -/
theorem prefix_unless_orphaned {α : Type} {f : List String → List α} {lines more : List String}
    (hmore : f lines <+: f (lines ++ more)) (hquiet : lines.find? tells = none → f lines = []) :
    (if orphaned lines then [] else f lines) <+:
      if orphaned (lines ++ more) then [] else f (lines ++ more) := by
  cases hfind : lines.find? tells with
  | none =>
    rw [hquiet hfind, ite_self]
    exact List.nil_prefix
  | some raw =>
    have hshort := orphaned_append_of_tells hfind []
    rw [List.append_nil] at hshort
    rw [hshort, orphaned_append_of_tells hfind more]
    split
    · exact List.nil_prefix
    · exact hmore

/-- The switches named by the first lines are named first by all lines. -/
theorem prefix_named (source : String) (lines more : List String) :
    named ⟨source, lines⟩ <+: named ⟨source, lines ++ more⟩ := by
  refine prefix_unless_orphaned ?_ fun hquiet => ?_
  · rw [List.filterMap_append]
    exact List.prefix_append _ _
  · rw [List.filterMap_eq_nil_iff]
    exact fun raw hraw => (find?_tells_eq_none_iff.mp hquiet raw hraw).1

/-- The entries of the first lines come first among the entries of all lines. -/
theorem prefix_added (source : String) (lines more : List String) :
    added ⟨source, lines⟩ <+: added ⟨source, lines ++ more⟩ := by
  refine prefix_unless_orphaned ?_ fun hquiet => ?_
  · rw [entries_append]
    exact List.prefix_append _ _
  · exact entries_of_headerless fun raw hraw => (find?_tells_eq_none_iff.mp hquiet raw hraw).1

end Dump

end FabricPaths
