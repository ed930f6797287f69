import FabricPaths.Proofs.Record.Header
import FabricPaths.Proofs.Routing.Gathering

/-!
# To which switch a dump's entries go

A dump opens with the header line of the switch that wrote it, and its entries go to the switch
that is read from this line. The main statement says exactly when that is the switch which
the line introduces, for any preamble and any description, and that the entries of the whole
dump are gathered for the switch that is read.
-/

namespace FabricPaths

namespace Dump

variable {line : String} {s : NodeId} {rest : List String}

/-- A dump that begins with a header is not orphaned. -/
theorem orphaned_of_header? (h : header? line = some s) (rest : List String) :
    orphaned (line :: rest) = false := by
  rw [orphaned_cons, if_pos (tells_of_header? h), record?_of_header? h]
  rfl

/-- A header is the latest one as long as no other follows. -/
theorem latest?_cons_of_headerless (h : header? line = some s)
    (hrest : ∀ raw ∈ rest, header? raw = none) : latest? (line :: rest) = some s := by
  induction rest using List.reverseRecOn with
  | nil => exact latest?_concat_of_header h []
  | append_singleton rest raw ih =>
    obtain ⟨hrest, hraw⟩ := List.forall_mem_append.mp hrest
    rw [← List.cons_append, latest?_concat_of_other (hraw raw List.mem_cons_self)]
    exact ih hrest

/-- All entries behind a header belong to its switch as long as no other header follows. -/
theorem entries_cons_of_headerless (h : header? line = some s)
    (hrest : ∀ raw ∈ rest, header? raw = none) :
    entries (line :: rest) = (rest.filterMap record?).map (Prod.mk s) := by
  induction rest using List.reverseRecOn with
  | nil => exact entries_concat_of_none (record?_of_header? h) []
  | append_singleton rest raw ih =>
    obtain ⟨hrest, -⟩ := List.forall_mem_append.mp hrest
    rw [← List.cons_append, entries_concat, ih hrest, latest?_cons_of_headerless h hrest,
      List.filterMap_append, List.map_append]
    cases hrecord : record? raw with
    | none =>
      rw [List.filterMap_cons_none hrecord]
      rfl
    | some r =>
      rw [List.filterMap_cons_some hrecord]
      rfl

/-- A dump with one header names its switch and adds all its entries to it. -/
theorem named_added_of_headerless (source : String) (h : header? line = some s)
    (hrest : ∀ raw ∈ rest, header? raw = none) :
    named ⟨source, line :: rest⟩ = [s] ∧
      added ⟨source, line :: rest⟩ = (rest.filterMap record?).map (Prod.mk s) := by
  have hgoing : ¬ orphaned (line :: rest) = true :=
    Bool.eq_false_iff.mp (orphaned_of_header? h rest)
  constructor
  · unfold named
    rw [if_neg hgoing, List.filterMap_cons_some h, List.filterMap_eq_nil_iff.mpr hrest]
  · unfold added
    rw [if_neg hgoing, entries_cons_of_headerless h hrest]

end Dump

namespace Loader

/-- One more dump with one header is gathered for the switch of this header. -/
theorem gathers_after_headed {dumps : List Dump} {source line : String} {rest : List String}
    {s : NodeId} (h : Dump.header? line = some s)
    (readable : ∀ d ∈ dumps ++ [⟨source, line :: rest⟩], d.Readable)
    (hrest : ∀ raw ∈ rest, Dump.header? raw = none) :
    Gathers (after (dumps ++ [⟨source, line :: rest⟩])) (dumps.flatMap Dump.named ++ [s])
      (dumps.flatMap Dump.added ++ (rest.filterMap Dump.record?).map (Prod.mk s)) := by
  have hgathers := gathers_after _ readable
  obtain ⟨hnamed, hadded⟩ := Dump.named_added_of_headerless source h hrest
  rw [List.flatMap_append, List.flatMap_append, List.flatMap_singleton, List.flatMap_singleton,
    hnamed, hadded] at hgathers
  exact hgathers

/-- A header line names the switch whose GUID it introduces between a preamble and a description
exactly if the preamble has no line feed and the description introduces no other GUID last. The
entries of a dump with this one header go to the switch that the line names, behind whatever
dumps were taken in before. -/
theorem header_names_switch_iff {preamble guid description : String}
    (hpreamble : ¬ "guid".toList <:+: preamble.toList) (hguid : Route.IsGuid guid.toList)
    (hdescription : '\n' ∉ description.toList) :
    (Route.parseHeader (Route.headerLine preamble guid description) = some ⟨guid⟩ ↔
      '\n' ∉ preamble.toList ∧
        ∀ last, Route.IntroducesLast description.toList last → last = guid.toList) ∧
    ∀ header, Route.parseHeader (Route.headerLine preamble guid description) = some header →
      ∀ (dumps : List Dump) (source : String) (rest : List String),
        (∀ d ∈ dumps ++ [⟨source, Route.headerLine preamble guid description :: rest⟩],
          d.Readable) →
        (∀ raw ∈ rest, Dump.header? raw = none) →
        Gathers
          (after (dumps ++ [⟨source, Route.headerLine preamble guid description :: rest⟩]))
          (dumps.flatMap Dump.named ++ [header.switchId])
          (dumps.flatMap Dump.added ++
            (rest.filterMap Dump.record?).map (Prod.mk header.switchId)) := by
  refine ⟨Route.parseHeader_headerLine_iff hpreamble hguid hdescription, ?_⟩
  intro header hnamed dumps source rest readable hrest
  have hheader : Dump.header? (Route.headerLine preamble guid description) = some header.switchId :=
    congrArg (Option.map RouteHeader.switchId) hnamed
  exact gathers_after_headed hheader readable hrest

/-- The header line of a switch with a given description. -/
def describedLine (description : String) : String :=
  Route.headerLine "[0x0-0x4] of switch Lid 2 " "00000000000000a1" description

/-- A dump of the switch, with one entry. -/
def describedDump (description : String) : Dump :=
  ⟨"r0", [describedLine description, "0x1 1 : (Switch portguid 0x0000000000000011:"]⟩

/-- The table of a switch whose description introduces no GUID is its own. -/
theorem describedDump_filed :
    ¬ "guid".toList <:+: "[0x0-0x4] of switch Lid 2 ".toList ∧
      Route.IsGuid "00000000000000a1".toList ∧ '\n' ∉ "leaf".toList ∧
      Route.parseHeader (describedLine "leaf") = some ⟨"00000000000000a1"⟩ ∧
      (∀ last, ¬ Route.IntroducesLast "leaf".toList last) ∧
      (after [describedDump "leaf"]).tables.keys = [⟨"0000:0000:0000:00a1"⟩] := by
  have hpreamble : ¬ "guid".toList <:+: "[0x0-0x4] of switch Lid 2 ".toList := by decide +kernel
  have hguid : Route.IsGuid "00000000000000a1".toList := by decide +kernel
  have hdescription : '\n' ∉ "leaf".toList := by decide +kernel
  obtain ⟨hiff, hgathers⟩ := header_names_switch_iff hpreamble hguid hdescription
  have hnone : ∀ last, ¬ Route.IntroducesLast "leaf".toList last :=
    fun last hlast => absurd hlast.introduces.mem (by decide +kernel)
  have hnamed := hiff.mpr ⟨by decide +kernel, fun last hlast => absurd hlast (hnone last)⟩
  have readable : ∀ d ∈ [] ++ [describedDump "leaf"], d.Readable :=
    List.forall_mem_singleton.mpr (Dump.readable_of_isOk (by decide +kernel))
  have hrest : ∀ raw ∈ ["0x1 1 : (Switch portguid 0x0000000000000011:"],
      Dump.header? raw = none := by decide +kernel
  refine ⟨hpreamble, hguid, hdescription, hnamed, hnone, ?_⟩
  exact (hgathers _ hnamed [] "r0" _ readable hrest).keys

/-- A description that introduces a GUID takes the table away from the switch. -/
theorem describedDump_misfiled :
    ¬ "guid".toList <:+: "[0x0-0x4] of switch Lid 2 ".toList ∧
      Route.IsGuid "00000000000000a1".toList ∧
      '\n' ∉ "leaf guid 0x00000000000000b2".toList ∧
      Route.parseHeader (describedLine "leaf guid 0x00000000000000b2") =
        some ⟨"00000000000000b2"⟩ ∧
      (after [describedDump "leaf guid 0x00000000000000b2"]).tables.keys =
        [⟨"0000:0000:0000:00b2"⟩] := by
  decide +kernel

end Loader

end FabricPaths
