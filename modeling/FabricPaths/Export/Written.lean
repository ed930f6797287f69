import FabricPaths.Export.Document
import FabricPaths.Json.Render

/-!
# Written fabrics

How the document of a fabric is spelt out, member by member.
-/

namespace FabricPaths.Export

/-- An edge's two nodes. -/
def keyJson (key : NodeId × NodeId) : Json := .strs [key.1.text, key.2.text]

/-- An edge. -/
def EdgeEntry.toJson (e : EdgeEntry Float) : Json :=
  .obj [
    ("dest", .str e.dest.text),
    ("gbits", .float e.gbits),
    ("links", .nats e.links),
    ("reverse_edge", (e.reverse.map keyJson).getD .null),
    ("partitions", .ints e.partitions)]

mutual

/-- A node with the nodes under it. -/
def NodeEntry.toJson : NodeEntry Float → Json
  | .mk id lid type hostname description mainPartition partitions subnodes edges =>
    .obj [
      ("id", .str id.text),
      ("lid", .int lid),
      ("type", .str type.name),
      ("hostname", .str hostname),
      ("description", .str description),
      ("main_partition", .int mainPartition),
      ("partitions", .ints partitions),
      ("subnodes", .arr (nodesJson subnodes)),
      ("edges", .arr (edges.map EdgeEntry.toJson))]

/-- Nodes in order. -/
def nodesJson : List (NodeEntry Float) → List Json
  | [] => []
  | n :: rest => n.toJson :: nodesJson rest

end

/-- A link. -/
def LinkEntry.toJson (l : LinkEntry Float) : Json :=
  .obj [
    ("id", .nat l.id),
    ("ports", .ints [l.srcPort, l.destPort]),
    ("parent", .str l.parent.text),
    ("dest", .str l.dest.text),
    ("width", .str l.width),
    ("speed", .str l.speed),
    ("gbits", .float l.gbits),
    ("description", .str l.description),
    ("other_link", .intOrNull (l.otherLink.map Int.ofNat)),
    ("partitions", .ints l.partitions)]

/-- A partition with its number. -/
def partitionJson (p : Partition) (index : Nat) : Json :=
  .obj [
    ("index", .nat index),
    ("name", .str p.name),
    ("nodes", .strs (p.members.map (·.text)))]

/-- A path. -/
def PathEntry.toJson (p : PathEntry) : Json :=
  .obj [
    ("source", .str p.source.text),
    ("dest", .str p.dest.text),
    ("links", .nats p.links)]

/-- The whole document. -/
def Document.toJson (d : Document Float) : Json :=
  .obj [
    ("subnet", .str d.subnet),
    ("hwloc_dir", .strOrNull d.hwlocDir),
    ("partitions", .arr (d.partitions.zipIdx.map fun (p, i) => partitionJson p i)),
    ("nodes", .arr (nodesJson d.nodes)),
    ("links", .arr (d.links.map LinkEntry.toJson)),
    ("paths", .arr (d.paths.map PathEntry.toJson))]

/-- The text of the document. -/
def Document.text (d : Document Float) : String := d.toJson.render

end FabricPaths.Export
