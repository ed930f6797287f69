import FabricPaths.Proofs.Extract.Chronicle
import FabricPaths.Proofs.Path.Accounting

/-!
# The figures of a subnet

The report on a subnet has figures that were taken at different stages: some when the links were
paired, some when the hosts had been walked between, some at the end. They are all the same as
those that can be recomputed from the document of the finished fabric: what comes after the
pairing of the links, and after the survey, changes nothing that either of them counted.
-/

namespace FabricPaths

open Export

/-- The figures of a subnet. -/
structure Figures where
  /-- The number of nodes. -/
  nodes : Int
  /-- The number of hosts. -/
  hosts : Int
  /-- The number of switches. -/
  switches : Int
  /-- The number of links. -/
  links : Int
  /-- The number of links without a way back. -/
  unresolved : Int
  /-- The number of complete paths. -/
  paths : Int
  /-- The number of pairs of hosts between which walks were attempted. -/
  pairs : Int
  /-- The names of the partitions. -/
  partitions : List (Option String)
deriving DecidableEq

/-! ## Figures of documents -/

namespace Json

/-- The items of the list under a name. -/
def items (name : String) (j : Json) : List Json :=
  match j.member? name with
  | some (.arr xs) => xs
  | _ => []

/-- The text under a name. -/
def text? (name : String) (j : Json) : Option String :=
  match j.member? name with
  | some (.str s) => some s
  | _ => none

/-- There is a null under a name. -/
def lacks (name : String) (j : Json) : Bool :=
  match j.member? name with
  | some .null => true
  | _ => false

/-- The node of a document is of a type. -/
def hasType (type : NodeType) (j : Json) : Bool := j.text? "type" == some type.name

/-- The figures of the document of a fabric. A walk is attempted from each host that has an edge
to each other host. -/
def figures (j : Json) : Figures :=
  let nodes := j.items "nodes"
  let links := j.items "links"
  let hosts := nodes.filter (hasType .host)
  { nodes := nodes.length
    hosts := hosts.length
    switches := (nodes.filter (hasType .switch)).length
    links := links.length
    unresolved := (links.filter (lacks "other_link")).length
    paths := (j.items "paths").length
    pairs := (hosts.filter fun n => !(n.items "edges").isEmpty).length * ((hosts.length : Int) - 1)
    partitions := (j.items "partitions").map (text? "name") }

end Json

/-- The figures of a report. -/
def SubnetReport.figures (r : SubnetReport) : Figures :=
  { nodes := r.nodes
    hosts := r.hosts
    switches := r.switches
    links := r.links
    unresolved := r.unresolved
    paths := r.counts.complete
    pairs := r.counts.complete + r.counts.missing
    partitions := r.partitions.map some }

namespace Fabric

/-- The figures of a fabric. -/
def figures {β : Type} (f : Fabric β) : Figures :=
  { nodes := f.nodes.size
    hosts := f.hosts.length
    switches := f.switches.length
    links := f.links.size
    unresolved := f.unreturned
    paths := f.pathCount
    pairs := f.sources.length * ((f.hosts.length : Int) - 1)
    partitions := f.partitions.map fun p => some p.name }

/-- Nodes are written one after another. -/
theorem nodesJson_eq (ns : List (NodeEntry Float)) : nodesJson ns = ns.map NodeEntry.toJson := by
  induction ns with
  | nil => rfl
  | cons n rest ih => rw [nodesJson, ih, List.map_cons]

/-- A written node has its type. -/
theorem hasType_toJson (type : NodeType) (n : Node Float) :
    n.sheet.toJson.hasType type = decide (n.type = type) := by
  have htext : n.sheet.toJson.text? "type" = some n.type.name := rfl
  rw [Json.hasType, htext]
  cases n.type <;> cases type <;> decide

/-- A written node has its edges. -/
theorem isEmpty_edges_toJson (n : Node Float) :
    (n.sheet.toJson.items "edges").isEmpty = n.edges.entries.isEmpty := by
  have hitems : n.sheet.toJson.items "edges" =
      (n.edges.values.map n.edgeSheet).map EdgeEntry.toJson := rfl
  rw [hitems, List.isEmpty_map, List.isEmpty_map]
  exact List.isEmpty_map

/-- A written link lacks a way back if it has none. -/
theorem lacks_toJson (l : Link Float) : (linkEntry l).toJson.lacks "other_link" =
    l.otherLink.isNone := by
  have hmember : (linkEntry l).toJson.member? "other_link" =
      some (.intOrNull (l.otherLink.map Int.ofNat)) := rfl
  rw [Json.lacks, hmember]
  cases l.otherLink <;> rfl

/-- The paths are as many as there are in their list. -/
theorem length_list {β : Type} (f : Fabric β) : f.paths.list.length = f.pathCount := by
  have hrows : f.paths.rows.flatMap (·.2) = f.paths.entries.flatMap (·.2.entries) :=
    List.flatMap_map _ _ _
  have hcount : f.pathCount = (f.paths.rows.flatMap (·.2)).length :=
    Paths.pathCount_eq_rows f f.paths
  rw [hcount, hrows, Paths.list, List.length_flatMap, List.length_flatMap]
  simp only [List.length_map]

/-- The nodes of a document are the written nodes. -/
theorem items_nodes (f : Fabric Float) :
    f.sheet.toJson.items "nodes" = f.nodes.values.map fun n => n.sheet.toJson :=
  (nodesJson_eq _).trans List.map_map

/-- The written hosts are the written nodes with the type of hosts. -/
theorem filter_hasType_host (f : Fabric Float) :
    (f.nodes.values.map fun n => n.sheet.toJson).filter (Json.hasType .host) =
      f.hosts.map fun n => n.sheet.toJson := by
  rw [List.filter_map]
  congr 1
  exact List.filter_congr fun n _ => hasType_toJson .host n

/-- The written switches are the written nodes with the type of switches. -/
theorem filter_hasType_switch (f : Fabric Float) :
    (f.nodes.values.map fun n => n.sheet.toJson).filter (Json.hasType .switch) =
      f.switches.map fun n => n.sheet.toJson := by
  rw [List.filter_map]
  congr 1
  refine List.filter_congr fun n _ => (hasType_toJson .switch n).trans ?_
  rw [Node.isHost]
  cases n.type <;> rfl

/-- The written hosts that have an edge are those with an edge in the document. -/
theorem filter_edges (f : Fabric Float) :
    (f.hosts.map fun n => n.sheet.toJson).filter (fun n => !(n.items "edges").isEmpty) =
      f.sources.map fun n => n.sheet.toJson := by
  rw [List.filter_map]
  congr 1
  exact List.filter_congr fun n _ => congrArg not (isEmpty_edges_toJson n)

/-- The written links without a way back are those of the fabric. -/
theorem length_filter_lacks (f : Fabric Float) :
    ((f.links.values.map fun l => (linkEntry l).toJson).filter
      (Json.lacks "other_link")).length = f.unreturned := by
  rw [List.filter_map, List.length_map, unreturned, List.countP_eq_length_filter]
  congr 1
  exact List.filter_congr fun l _ => lacks_toJson l

/-- The written partitions have the names of the partitions, in order. -/
theorem names_partitions (f : Fabric Float) :
    (f.sheet.toJson.items "partitions").map (Json.text? "name") =
      f.partitions.map fun p => some p.name := by
  have hitems : f.sheet.toJson.items "partitions" =
      f.partitions.zipIdx.map fun e => partitionJson e.1 e.2 := rfl
  have hname : ∀ e : Partition × Nat, (partitionJson e.1 e.2).text? "name" = some e.1.name :=
    fun _ => rfl
  calc
    (f.sheet.toJson.items "partitions").map (Json.text? "name") =
        (f.partitions.zipIdx.map Prod.fst).map fun p => some p.name := by
      rw [hitems, List.map_map, List.map_map]
      exact List.map_congr_left fun e _ => hname e
    _ = f.partitions.map fun p => some p.name := by rw [List.zipIdx_map_fst]

/-- The figures of the document of a fabric are those of the fabric. -/
theorem figures_sheet (f : Fabric Float) : f.sheet.toJson.figures = f.figures := by
  have hlinks : f.sheet.toJson.items "links" =
      f.links.values.map fun l => (linkEntry l).toJson := List.map_map
  have hpaths : (f.sheet.toJson.items "paths").length = f.pathCount := by
    rw [← f.length_list]
    exact (List.length_map _).trans (List.length_map _)
  unfold Json.figures figures
  dsimp only
  rw [f.items_nodes, hlinks, hpaths, f.names_partitions, f.filter_hasType_host,
    f.filter_hasType_switch, f.filter_edges, f.length_filter_lacks]
  simp only [List.length_map, OrderedMap.values, OrderedMap.size]

/-- Fabrics that differ in decorations have sources that are bare alike. -/
theorem Redecorates.sources_bare {β : Type} {f g : Fabric β} (h : f.Redecorates g) :
    g.sources.map Node.bare = f.sources.map Node.bare := by
  have hbare : ∀ f : Fabric β, f.sources.map Node.bare =
      (f.hosts.map Node.bare).filter fun src => !src.edges.entries.isEmpty := by
    intro f
    rw [List.filter_map]
    congr 1
    exact List.filter_congr fun n _ => congrArg not List.isEmpty_map.symm
  rw [hbare g, h.hosts_bare, hbare f]

end Fabric

/-! ## Figures of reports -/

namespace Extract

open FabricPaths.Action (Ensures)

/-- Writing the fabric changes nothing in the report but the name of the file. -/
theorem ensures_export? (c : Config) (f : Fabric Float) (report : SubnetReport) :
    Ensures (fun r => ∃ outputFile, r = { report with outputFile }) (export? c f report) := by
  unfold export?
  cases c.outputDir.chosen? with
  | none => exact .pure ⟨report.outputFile, rfl⟩
  | some dir => exact .bind_last fun file => .pure ⟨some file, rfl⟩

/-- The figures of a report are complete once the fabric is finished. -/
theorem ensures_finishSubnet (c : Config) (f : Fabric Float) (report : SubnetReport) :
    Ensures (fun r => r.figures = (withFigures f report).figures) (finishSubnet c f report) := by
  unfold finishSubnet completeReport
  refine (ensures_export? c f report).bind ?_
  rintro _ ⟨outputFile, rfl⟩
  exact .bind_last fun completed => .bind_last fun _ => .pure rfl

/-- The figures of the report on a fabric are those of the fabric: the links without a way back
were counted when the fabric was surveyed, the paths and pairs by the survey, and the partitions
were named when it was divided. -/
theorem Making.Leads.figures_eq {k : Making} {subnet : String} {f : Fabric Float}
    {report : SubnetReport} (h : k.Leads subnet f report)
    (hunresolved : report.unresolved = (k.surveyed.unreturned : Int)) :
    (withFigures f report).figures = f.figures := by
  have hdecorated : k.surveyed.Redecorates f := ⟨h.bare_eq, h.routes_eq⟩
  obtain ⟨attempts, haccounts⟩ := h.ready.divisible.wired.exists_accounts h.survey
  have hpaths : report.counts.complete = f.pathCount := by
    rw [h.counts, ← haccounts.path_count, Fabric.pathCount, Fabric.pathCount, h.paths_eq]
    rfl
  have hhosts : f.hosts.length = k.surveyed.hosts.length := by
    have hlength := congrArg List.length hdecorated.hosts_bare
    rwa [List.length_map, List.length_map] at hlength
  have hsources : f.sources.length = k.surveyed.sources.length := by
    have hlength := congrArg List.length hdecorated.sources_bare
    rwa [List.length_map, List.length_map] at hlength
  have hpairs : report.counts.complete + report.counts.missing =
      f.sources.length * ((f.hosts.length : Int) - 1) := by
    rw [h.counts, ← StatusCounts.total_eq, haccounts.total, hhosts, hsources]
  have hpartitions : report.partitions.map some = f.partitions.map fun p => some p.name := by
    have hkept : f.partitions = k.partitions := by
      rw [h.fabric]
      exact h.division.2.1
    rw [h.partitions, hkept, List.map_map]
    rfl
  have hunreturned : report.unresolved = (f.unreturned : Int) := by
    rw [hunresolved, h.unreturned_eq]
  unfold SubnetReport.figures Fabric.figures withFigures
  dsimp only
  rw [hpaths.symm, hpairs, hpartitions, hunreturned]

/-- The report on a subnet that is extracted has the figures of its fabric, which can be
exported. -/
theorem ensures_figures [Memory] (c : Config) (hwlocDir : Option String) (subnet file : String) :
    Ensures (fun r => r.1.Wired ∧ r.2.figures = r.1.figures)
      (processSubnet c hwlocDir subnet file) := by
  unfold processSubnet
  refine (ensures_buildSubnet c hwlocDir subnet file).bind ?_
  rintro ⟨f, report⟩ ⟨k, hk, hunresolved⟩
  refine (ensures_finishSubnet c f report).bind fun report' hfigures => .pure ⟨hk.wired, ?_⟩
  exact hfigures.trans (hk.figures_eq hunresolved)

/-- When the extraction of a subnet returns, the document of its fabric has the figures of the
report on it. -/
theorem figures_agree [Memory] {c : Config} {hwlocDir : Option String} {subnet file : String}
    {w : World} {f : Fabric Float} {report : SubnetReport}
    (h : (processSubnet c hwlocDir subnet file w).outcome = .ok (f, report)) :
    ∃ document, f.document = .ok document ∧ document.toJson.figures = report.figures := by
  obtain ⟨wired, hfigures⟩ := ensures_figures c hwlocDir subnet file w (f, report) h
  exact ⟨f.sheet, wired.document_eq, f.figures_sheet.trans hfigures.symm⟩

/-- Dumps of two hosts at one switch, of which one can be reached from the other. -/
def routedHosts : World := worldOf
  [(["in"], .directory),
    (["in", "ib-subnet-fe80:0000:0000:0001.txt"], .file (
      "CA 1 1 0x0000000000000001 4x QDR - SW 3 1 0x0000000000000003 ( 'a' - 's' )\n" ++
      "CA 2 1 0x0000000000000002 4x QDR - SW 3 2 0x0000000000000003 ( 'b' - 's' )\n" ++
      "SW 3 2 0x0000000000000003 4x QDR - CA 2 1 0x0000000000000002 ( 's' - 'b' )\n").toUTF8),
    (["in", "ibroutes-fe80:0000:0000:0001"], .directory),
    (["in", "ibroutes-fe80:0000:0000:0001", "ibroute-fe80:0000:0000:0001-0.txt"], .file (
      "Unicast lids [0x0-0x3] of switch guid 0x0000000000000003 (s):\n" ++
      "0x0002 002 : (Channel Adapter portguid 0x0000000000000002: 'b')\n").toUTF8)]

/-- The extraction of the subnet with these hosts. -/
def routedHostsRun : Run World (Fabric Float × SubnetReport) :=
  processSubnet { inputDir := "in", progress := false } none "fe80:0000:0000:0001"
    "ib-subnet-fe80:0000:0000:0001.txt" routedHosts

/-- The figures of the two hosts agree with the document of their fabric. -/
theorem figures_agree_routedHosts : ∃ f report, routedHostsRun.outcome = .ok (f, report) ∧
    report.figures = ⟨3, 2, 1, 3, 1, 1, 2, [some "a", some "b"]⟩ ∧
    ∃ document, f.document = .ok document ∧ document.toJson.figures = report.figures := by
  have hok : ∃ r ∈ routedHostsRun.outcome.toOption,
      r.2.figures = ⟨3, 2, 1, 3, 1, 1, 2, [some "a", some "b"]⟩ := by decide +kernel
  obtain ⟨⟨f, report⟩, hresult, hfigures⟩ := hok
  have hrun : routedHostsRun.outcome = .ok (f, report) := eq_ok_of_mem_toOption hresult
  exact ⟨f, report, hrun, hfigures, figures_agree hrun⟩

end Extract

end FabricPaths
