import FabricPaths.Proofs.Export.Document
import FabricPaths.Proofs.Partition.Completion

/-!
# Closed documents

A document is closed if whoever reads it can look up in it all that it refers to: the nodes and
links that it names, the edges the other way and the partitions. The document of a complete
fabric is closed. Its edges list its links, each link once, on the edge that leads from the
link's parent to where the link ends.
-/

namespace FabricPaths

open Export

variable {β : Type}

namespace Export.Document

/-- A node of the document has the identifier. -/
def Names (d : Document β) (id : NodeId) : Prop := ∃ n ∈ d.nodes, n.id = id

/-- A link of the document leads from a node to another. -/
def Joins (d : Document β) (k : LinkId) (source dest : NodeId) : Prop :=
  ∃ l ∈ d.links, l.id = k ∧ l.parent = source ∧ l.dest = dest

/-- A node of the document has an edge to another. -/
def HasEdge (d : Document β) (key : NodeId × NodeId) : Prop :=
  ∃ n ∈ d.nodes, n.id = key.1 ∧ ∃ e ∈ n.edges, e.dest = key.2

/-- The number is that of a partition of the document. -/
def HasPartition (d : Document β) (p : Int) : Prop := ∃ i : Nat, p = i ∧ i < d.partitions.length

/-- The links that the edges of the document list, edge by edge. -/
def listed (d : Document β) : List LinkId := d.nodes.flatMap fun n => n.edges.flatMap (·.links)

/-- What the document refers to is in the document. -/
structure Closed (d : Document β) : Prop where
  /-- No identifier is that of two nodes. -/
  nodes_distinct : (d.nodes.map (·.id)).Nodup
  /-- No node is under another. -/
  subnodes_nil : ∀ n ∈ d.nodes, n.subnodes = []
  /-- The links have ascending numbers. -/
  links_ascending : (d.links.map (·.id)).Pairwise (· < ·)
  /-- A link leads from a node to a node. -/
  link_ends : ∀ l ∈ d.links, d.Names l.parent ∧ d.Names l.dest
  /-- A link that comes back is a link. -/
  link_other : ∀ l ∈ d.links, ∀ k, l.otherLink = some k → ∃ o ∈ d.links, o.id = k
  /-- An edge ends at a node, and no other edge of its node ends there. -/
  edge_ends : ∀ n ∈ d.nodes, (n.edges.map (·.dest)).Nodup ∧ ∀ e ∈ n.edges, d.Names e.dest
  /-- An edge lists the links that lead from its node to where it ends. -/
  edge_links : ∀ n ∈ d.nodes, ∀ e ∈ n.edges, ∀ k, k ∈ e.links ↔ d.Joins k n.id e.dest
  /-- A link is listed on the edge to where it ends, which its parent has. -/
  link_edge : ∀ l ∈ d.links, ∃ n ∈ d.nodes, ∃ e ∈ n.edges,
    n.id = l.parent ∧ e.dest = l.dest ∧ l.id ∈ e.links
  /-- All edges together list each link once, and nothing else. -/
  listed_once : d.listed.Perm (d.links.map (·.id))
  /-- The edge the other way is an edge between the same nodes. -/
  edge_reverse : ∀ n ∈ d.nodes, ∀ e ∈ n.edges, ∀ key, e.reverse = some key →
    key = (e.dest, n.id) ∧ d.HasEdge key
  /-- A path leads from node to node along links, from its source to its destination. -/
  path_chain : ∀ p ∈ d.paths, d.Names p.source ∧ d.Names p.dest ∧
    Chain d.Joins p.source p.links p.dest
  /-- The marks of nodes are numbers of partitions. -/
  node_marks : ∀ n ∈ d.nodes, ∀ p ∈ n.partitions, d.HasPartition p
  /-- The marks of edges are numbers of partitions. -/
  edge_marks : ∀ n ∈ d.nodes, ∀ e ∈ n.edges, ∀ p ∈ e.partitions, d.HasPartition p
  /-- The marks of links are numbers of partitions. -/
  link_marks : ∀ l ∈ d.links, ∀ p ∈ l.partitions, d.HasPartition p
  /-- The members of partitions are hosts. -/
  member_host : ∀ p ∈ d.partitions, ∀ id ∈ p.members, ∃ n ∈ d.nodes, n.id = id ∧ n.type = .host
  /-- A host is a member of one partition. -/
  host_member : ∀ n ∈ d.nodes, n.type = .host → ∃! i, Grouping.Lists d.partitions i n.id
  /-- No member of a partition is listed twice. -/
  members_distinct : (d.partitions.flatMap (·.members)).Nodup

end Export.Document

/-- The edges of a node of the sheet are those of the node. -/
theorem Node.mem_sheet_edges {n : Node β} {entry : EdgeEntry β} :
    entry ∈ n.sheet.edges ↔ ∃ d e, n.edges.get? d = some e ∧ entry = n.edgeSheet e := by
  change entry ∈ n.edges.values.map n.edgeSheet ↔ _
  rw [List.mem_map]
  constructor
  · rintro ⟨e, he, rfl⟩
    obtain ⟨d, hd⟩ := OrderedMap.mem_values_iff.mp he
    exact ⟨d, e, hd, rfl⟩
  · rintro ⟨d, e, hd, rfl⟩
    exact ⟨e, OrderedMap.mem_values_iff.mpr ⟨d, hd⟩, rfl⟩

namespace Fabric

namespace Wired

variable {f : Fabric β}

/-! ## What the sheet of a wired fabric holds -/

/-- The links at the positions that an edge lists lead from its node to where it ends. -/
theorem mem_linksAt (w : f.Wired) {id : NodeId} {n : Node β} (hn : f.nodes.get? id = some n)
    {d : NodeId} {e : Edge β} (he : n.edges.get? d = some e) {k : LinkId} :
    k ∈ n.linksAt e.linkPorts ↔ f.Joins k id d := by
  rw [Node.linksAt, List.mem_filterMap]
  constructor
  · rintro ⟨p, hp, hk⟩
    obtain ⟨i, k', l, rfl, hslot, hl, hdest⟩ := (w.mem_linkPorts hn he p).mp hp
    rw [Int.toNat_natCast, Node.linkIn?, hslot] at hk
    cases hk
    obtain ⟨l', hl', hparent, -⟩ := w.plugged_link ((linkIn?_eq_some_iff hn).mpr hslot)
    rw [hl] at hl'
    cases hl'
    exact ⟨l, hl, hparent, hdest⟩
  · rintro ⟨l, hl, rfl, hdest⟩
    have hplugged := w.link_plugged hl
    have hslot := (linkIn?_eq_some_iff hn).mp hplugged
    rw [linkIn?_of_node hn] at hplugged
    exact ⟨slotOf l, (w.mem_linkPorts hn he _).mpr ⟨_, k, l, rfl, hslot, hl, hdest⟩, hplugged⟩

/-- No link is at two positions that an edge lists. -/
theorem nodup_linksAt (w : f.Wired) {id : NodeId} {n : Node β} (hn : f.nodes.get? id = some n)
    {d : NodeId} {e : Edge β} (he : n.edges.get? d = some e) : (n.linksAt e.linkPorts).Nodup := by
  have hdistinct : e.linkPorts.Nodup := ((w.node_fit hn).edges_fit he).2.2.2
  unfold Node.linksAt List.Nodup
  rw [List.pairwise_filterMap]
  refine hdistinct.imp_of_mem ?_
  intro p p' hp hp' hne k hk k' hk' heq
  obtain ⟨i, -, -, rfl, -⟩ := (w.mem_linkPorts hn he p).mp hp
  obtain ⟨i', -, -, rfl, -⟩ := (w.mem_linkPorts hn he p').mp hp'
  rw [Int.toNat_natCast, ← linkIn?_of_node hn] at hk hk'
  rw [← heq] at hk'
  exact hne (congrArg Nat.cast (w.linkIn?_inj hk hk').2)

/-- The nodes of the sheet are those of the fabric. -/
theorem mem_sheet_nodes (w : f.Wired) {entry : NodeEntry β} :
    entry ∈ f.sheet.nodes ↔ ∃ n, f.nodes.get? n.id = some n ∧ entry = n.sheet := by
  change entry ∈ f.nodes.values.map Node.sheet ↔ _
  rw [List.mem_map]
  constructor
  · rintro ⟨n, hn, rfl⟩
    exact ⟨n, w.get?_of_mem_values hn, rfl⟩
  · rintro ⟨n, hn, rfl⟩
    exact ⟨n, OrderedMap.mem_values_iff.mpr ⟨_, hn⟩, rfl⟩

/-- The links of the sheet are those of the fabric. -/
theorem mem_sheet_links (w : f.Wired) {entry : LinkEntry β} :
    entry ∈ f.sheet.links ↔ ∃ l, f.links.get? l.id = some l ∧ entry = linkEntry l := by
  change entry ∈ f.links.values.map linkEntry ↔ _
  rw [List.mem_map]
  constructor
  · rintro ⟨l, hl, rfl⟩
    exact ⟨l, w.mem_links_values.mp hl, rfl⟩
  · rintro ⟨l, hl, rfl⟩
    exact ⟨l, w.mem_links_values.mpr hl, rfl⟩

/-- The sheet names the nodes of the fabric. -/
theorem sheet_names (w : f.Wired) {id : NodeId} {n : Node β} (hn : f.nodes.get? id = some n) :
    f.sheet.Names id := by
  have hid := (w.node_fit hn).id_eq
  rw [← hid] at hn
  exact ⟨n.sheet, w.mem_sheet_nodes.mpr ⟨n, hn, rfl⟩, hid⟩

/-- Links lead in the sheet as they do in the fabric. -/
theorem sheet_joins (w : f.Wired) {k : LinkId} {source dest : NodeId} :
    f.sheet.Joins k source dest ↔ f.Joins k source dest := by
  constructor
  · rintro ⟨_, hin, rfl, rfl, rfl⟩
    obtain ⟨l, hl, rfl⟩ := w.mem_sheet_links.mp hin
    exact ⟨l, hl, rfl, rfl⟩
  · rintro ⟨l, hl, rfl, rfl⟩
    have hid := w.link_id hl
    rw [← hid] at hl
    exact ⟨linkEntry l, w.mem_sheet_links.mpr ⟨l, hl, rfl⟩, hid, rfl, rfl⟩

/-- The nodes of the sheet have their identifiers in the order of the index. -/
theorem sheet_ids (w : f.Wired) : f.sheet.nodes.map (·.id) = f.nodes.keys := by
  change (f.nodes.values.map Node.sheet).map (·.id) = _
  rw [List.map_map]
  exact w.node_ids

/-- The links of the sheet have their numbers in the order of the index. -/
theorem sheet_link_ids (w : f.Wired) : f.sheet.links.map (·.id) = f.links.keys := by
  change (f.links.values.map linkEntry).map (·.id) = _
  rw [List.map_map]
  exact w.ids_values

/-- The edges of a node of the sheet end where the node's edges are kept. -/
theorem sheet_dests (w : f.Wired) {id : NodeId} {n : Node β} (hn : f.nodes.get? id = some n) :
    n.sheet.edges.map (·.dest) = n.edges.keys := by
  change (n.edges.values.map n.edgeSheet).map (·.dest) = _
  rw [List.map_map]
  exact OrderedMap.map_values fun _ _ he => ((w.node_fit hn).edges_fit he).2.1

/-- The parent of a link has the edge that lists it. -/
theorem exists_edge_of_joins (w : f.Wired) {k : LinkId} {source dest : NodeId}
    (h : f.Joins k source dest) : ∃ n e, f.nodes.get? source = some n ∧
      n.edges.get? dest = some e ∧ k ∈ n.linksAt e.linkPorts := by
  obtain ⟨l, hl, rfl, rfl⟩ := h
  obtain ⟨n, hn⟩ := w.link_parent hl
  have hslot := (linkIn?_eq_some_iff hn).mp (w.link_plugged hl)
  obtain ⟨e, he, -⟩ := w.exists_edge hn hslot hl
  exact ⟨n, e, hn, he, (w.mem_linksAt hn he).mpr ⟨l, hl, rfl, rfl⟩⟩

/-- The edges of the sheet list the links of the fabric. -/
theorem mem_sheet_listed (w : f.Wired) {k : LinkId} :
    k ∈ f.sheet.listed ↔ ∃ source dest, f.Joins k source dest := by
  unfold Document.listed
  simp only [List.mem_flatMap]
  constructor
  · rintro ⟨_, hnode, _, hedge, hk⟩
    obtain ⟨n, hn, rfl⟩ := w.mem_sheet_nodes.mp hnode
    obtain ⟨d, e, he, rfl⟩ := Node.mem_sheet_edges.mp hedge
    exact ⟨n.id, d, (w.mem_linksAt hn he).mp hk⟩
  · rintro ⟨source, dest, h⟩
    obtain ⟨n, e, hn, he, hk⟩ := w.exists_edge_of_joins h
    have hid := (w.node_fit hn).id_eq
    rw [← hid] at hn
    exact ⟨n.sheet, w.mem_sheet_nodes.mpr ⟨n, hn, rfl⟩, n.edgeSheet e,
      Node.mem_sheet_edges.mpr ⟨dest, e, he, rfl⟩, hk⟩

/-- No link is listed twice in the sheet. -/
theorem nodup_sheet_listed (w : f.Wired) : f.sheet.listed.Nodup := by
  have hjoins : ∀ {k : LinkId} {a b a' b' : NodeId}, f.Joins k a b → f.Joins k a' b' →
      a = a' ∧ b = b' := by
    rintro k a b a' b' ⟨l, hl, rfl, rfl⟩ ⟨l', hl', rfl, rfl⟩
    rw [hl] at hl'
    cases hl'
    exact ⟨rfl, rfl⟩
  have hlisted : f.sheet.listed = f.nodes.values.flatMap fun n =>
      n.edges.values.flatMap fun e => n.linksAt e.linkPorts := by
    change ((f.nodes.values.map Node.sheet).flatMap fun n => n.edges.flatMap (·.links)) = _
    rw [List.flatMap_map]
    refine List.flatMap_congr fun n _ => ?_
    change (n.edges.values.map n.edgeSheet).flatMap (·.links) = _
    rw [List.flatMap_map]
    rfl
  rw [hlisted]
  refine OrderedMap.nodup_flatMap_values (fun id n hn => ?_) ?_
  · refine OrderedMap.nodup_flatMap_values (fun d e he => w.nodup_linksAt hn he) ?_
    intro d d' e e' k he he' hk hk'
    exact (hjoins ((w.mem_linksAt hn he).mp hk) ((w.mem_linksAt hn he').mp hk')).2
  · intro id id' n n' k hn hn' hk hk'
    obtain ⟨e, he, hk⟩ := List.mem_flatMap.mp hk
    obtain ⟨e', he', hk'⟩ := List.mem_flatMap.mp hk'
    obtain ⟨d, he⟩ := OrderedMap.mem_values_iff.mp he
    obtain ⟨d', he'⟩ := OrderedMap.mem_values_iff.mp he'
    exact (hjoins ((w.mem_linksAt hn he).mp hk) ((w.mem_linksAt hn' he').mp hk')).1

/-- The edges of the sheet list its links, each once. -/
theorem sheet_listed_once (w : f.Wired) : f.sheet.listed.Perm (f.sheet.links.map (·.id)) := by
  have hkeys : f.links.keys.Nodup := f.links.nodup_keys
  rw [w.sheet_link_ids, List.perm_ext_iff_of_nodup w.nodup_sheet_listed hkeys]
  intro k
  rw [w.mem_sheet_listed, OrderedMap.mem_keys_iff]
  constructor
  · rintro ⟨-, -, l, hl, -, -⟩
    exact ⟨l, hl⟩
  · rintro ⟨l, hl⟩
    exact ⟨l.parent, l.dest, l, hl, rfl, rfl⟩

end Wired

namespace Complete

variable {f : Fabric β}

/-- The hosts of a fabric are its nodes of that type. -/
theorem mem_hosts {n : Node β} : n ∈ f.hosts ↔ n ∈ f.nodes.values ∧ n.type = .host := by
  rw [hosts, List.mem_filter]
  exact and_congr_right fun _ => beq_iff_eq

/-- No member of a partition is listed twice. -/
theorem members_distinct (c : f.Complete) : (f.partitions.flatMap (·.members)).Nodup := by
  rw [c.members.nodup_iff]
  exact c.wired.nodup_host_ids

/-- The sheet of a complete fabric is closed. -/
theorem sheet_closed (c : f.Complete) : f.sheet.Closed := by
  have w := c.wired
  constructor
  case nodes_distinct =>
    rw [w.sheet_ids]
    exact f.nodes.nodup_keys
  case subnodes_nil =>
    intro _ hnode
    obtain ⟨n, -, rfl⟩ := w.mem_sheet_nodes.mp hnode
    rfl
  case links_ascending =>
    rw [w.sheet_link_ids]
    exact w.ascending
  case link_ends =>
    intro _ hlink
    obtain ⟨l, hl, rfl⟩ := w.mem_sheet_links.mp hlink
    obtain ⟨n, hn⟩ := w.link_parent hl
    obtain ⟨m, hm⟩ := w.link_dest hl
    exact ⟨w.sheet_names hn, w.sheet_names hm⟩
  case link_other =>
    intro _ hlink k hother
    obtain ⟨l, hl, rfl⟩ := w.mem_sheet_links.mp hlink
    obtain ⟨o, ho⟩ := c.other_indexed hl hother
    obtain ⟨entry, hentry, hid, -, -⟩ := w.sheet_joins.mpr ⟨o, ho, rfl, rfl⟩
    exact ⟨entry, hentry, hid⟩
  case edge_ends =>
    intro _ hnode
    obtain ⟨n, hn, rfl⟩ := w.mem_sheet_nodes.mp hnode
    refine ⟨?_, fun _ hedge => ?_⟩
    · rw [w.sheet_dests hn]
      exact n.edges.nodup_keys
    · obtain ⟨d, e, he, rfl⟩ := Node.mem_sheet_edges.mp hedge
      obtain ⟨-, hdest, hlists, -⟩ := (w.node_fit hn).edges_fit he
      obtain ⟨p, hp⟩ := List.exists_mem_of_ne_nil _ hlists
      obtain ⟨-, k, l, -, -, hl, hends⟩ := (w.mem_linkPorts hn he p).mp hp
      obtain ⟨m, hm⟩ := w.link_dest hl
      rw [hends, ← hdest] at hm
      exact w.sheet_names hm
  case edge_links =>
    intro _ hnode _ hedge k
    obtain ⟨n, hn, rfl⟩ := w.mem_sheet_nodes.mp hnode
    obtain ⟨d, e, he, rfl⟩ := Node.mem_sheet_edges.mp hedge
    have hdest : e.dest = d := ((w.node_fit hn).edges_fit he).2.1
    rw [w.sheet_joins]
    change k ∈ n.linksAt e.linkPorts ↔ f.Joins k n.id e.dest
    rw [hdest]
    exact w.mem_linksAt hn he
  case link_edge =>
    intro _ hlink
    obtain ⟨l, hl, rfl⟩ := w.mem_sheet_links.mp hlink
    obtain ⟨n, e, hn, he, hk⟩ := w.exists_edge_of_joins ⟨l, hl, rfl, rfl⟩
    have hid := (w.node_fit hn).id_eq
    have hdest := ((w.node_fit hn).edges_fit he).2.1
    rw [← hid] at hn
    exact ⟨n.sheet, w.mem_sheet_nodes.mpr ⟨n, hn, rfl⟩, n.edgeSheet e,
      Node.mem_sheet_edges.mpr ⟨_, e, he, rfl⟩, hid, hdest, hk⟩
  case listed_once => exact w.sheet_listed_once
  case edge_reverse =>
    intro _ hnode _ hedge key hkey
    obtain ⟨n, hn, rfl⟩ := w.mem_sheet_nodes.mp hnode
    obtain ⟨d, e, he, rfl⟩ := Node.mem_sheet_edges.mp hedge
    have hdest : e.dest = d := ((w.node_fit hn).edges_fit he).2.1
    obtain ⟨rfl, r, hr⟩ := c.reverse_known hn he hkey
    obtain ⟨m, hm, hr⟩ := Option.bind_eq_some_iff.mp hr
    have hid := (w.node_fit hm).id_eq
    have hback := ((w.node_fit hm).edges_fit hr).2.1
    refine ⟨?_, m.sheet, ?_, hid, m.edgeSheet r, Node.mem_sheet_edges.mpr ⟨_, r, hr, rfl⟩, hback⟩
    · rw [← hdest]
      rfl
    · rw [← hid] at hm
      exact w.mem_sheet_nodes.mpr ⟨m, hm, rfl⟩
  case path_chain =>
    intro _ hp
    obtain ⟨⟨source, dest, path⟩, hlist, rfl⟩ := List.mem_map.mp hp
    obtain ⟨dests, hdests, hpath⟩ := Paths.mem_list.mp hlist
    obtain ⟨⟨src, hsrc, -⟩, ⟨dst, hdst, -⟩, hchain⟩ :=
      c.paths_lead source dests hdests dest path hpath
    exact ⟨w.sheet_names hsrc, w.sheet_names hdst,
      hchain.imp fun _ _ _ hjoins => w.sheet_joins.mpr hjoins⟩
  case node_marks =>
    intro _ hnode p hp
    obtain ⟨n, hn, rfl⟩ := w.mem_sheet_nodes.mp hnode
    exact c.numbered.node hn p hp
  case edge_marks =>
    intro _ hnode _ hedge p hp
    obtain ⟨n, hn, rfl⟩ := w.mem_sheet_nodes.mp hnode
    obtain ⟨d, e, he, rfl⟩ := Node.mem_sheet_edges.mp hedge
    exact c.numbered.edge hn he p hp
  case link_marks =>
    intro _ hlink p hp
    obtain ⟨l, hl, rfl⟩ := w.mem_sheet_links.mp hlink
    exact c.numbered.link hl p hp
  case member_host =>
    intro p hp id hid
    have hmember : id ∈ f.partitions.flatMap (·.members) := List.mem_flatMap.mpr ⟨p, hp, hid⟩
    rw [c.members.mem_iff] at hmember
    obtain ⟨n, hn, rfl⟩ := List.mem_map.mp hmember
    obtain ⟨hin, htype⟩ := mem_hosts.mp hn
    exact ⟨n.sheet, List.mem_map_of_mem hin, rfl, htype⟩
  case host_member =>
    intro _ hnode htype
    obtain ⟨n, hn, rfl⟩ := w.mem_sheet_nodes.mp hnode
    obtain ⟨i, -, hlists⟩ := c.main_listed hn (beq_iff_eq.mpr htype)
    exact ⟨i, hlists, fun j hj => Grouping.Lists.unique c.members_distinct hj hlists⟩
  case members_distinct => exact c.members_distinct

end Complete

end Fabric

end FabricPaths
