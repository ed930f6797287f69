import FabricPaths.Proofs.Partition.Spread
import FabricPaths.Proofs.Path.Survey

/-!
# Marks are exact

What it means that a fabric carries the right marks, and that a fabric whose
links are paired in both directions, whose hosts are in partitions and whose
paths lead between hosts carries them once marks were spread over it.
-/

namespace FabricPaths

variable {β : Type}

/-- A path is recorded just if it is listed. -/
theorem Paths.mem_list {p : Paths} {source dest : NodeId} {path : Path} :
    (source, dest, path) ∈ p.list ↔
      ∃ dests, p.get? source = some dests ∧ dests.get? dest = some path := by
  unfold Paths.list
  rw [List.mem_flatMap]
  constructor
  · intro h
    obtain ⟨⟨source', dests⟩, hdests, hin⟩ := h
    obtain ⟨⟨dest', path'⟩, hpath, heq⟩ := List.mem_map.mp hin
    cases heq
    exact ⟨dests, OrderedMap.mem_entries_iff.mp hdests, OrderedMap.mem_entries_iff.mp hpath⟩
  · intro h
    obtain ⟨dests, hdests, hpath⟩ := h
    refine ⟨(source, dests), OrderedMap.mem_entries_iff.mpr hdests, ?_⟩
    exact List.mem_map.mpr ⟨(dest, path), OrderedMap.mem_entries_iff.mpr hpath, rfl⟩

/-- The marks with which a node starts: its own partition, if it has one. -/
def Node.ownMarks (n : Node β) : Marks :=
  if n.mainPartition = noPartition then ∅ else .singleton n.mainPartition

namespace Fabric

/-- The marking without marks, but for each node the mark of its own partition. -/
def ownMarking (f : Fabric β) : Marking where
  node := fun id =>
    match f.nodes.get? id with
    | some n => n.ownMarks
    | none => ∅
  edge := fun _ _ => ∅
  link := fun _ => ∅

/-- The marking that a fabric carries once marks were spread over its paths. -/
def spreadMarking (f : Fabric β) : Marking :=
  f.ownMarking.markAll (f.marksWithin f.paths.list)

/-- A host that is in a partition. -/
def InPartition (f : Fabric β) (id : NodeId) (partition : Int) : Prop :=
  ∃ n, f.nodes.get? id = some n ∧ n.isHost = true ∧ n.mainPartition = partition

/-- A link that is on a recorded path between two hosts of a partition, or that
is the way back of one that is. -/
def Carries (f : Fabric β) (partition : Int) (k : LinkId) : Prop :=
  ∃ source dest path, f.path? source dest = some path ∧
    f.InPartition source partition ∧ f.InPartition dest partition ∧
    (k ∈ path ∨ ∃ k' l, f.links.get? k' = some l ∧ l.otherLink = some k ∧ k' ∈ path)

/-- The marks of links, edges and nodes are what the recorded paths make them. -/
structure MarksExact (f : Fabric β) : Prop where
  /-- A link has the marks of the partitions that it carries. -/
  link_iff : ∀ k l, f.links.get? k = some l → ∀ p, p ∈ l.marks ↔ f.Carries p k
  /-- A link and the link that comes back have the same marks. -/
  other_iff : ∀ k l other o, f.links.get? k = some l → l.otherLink = some other →
    f.links.get? other = some o → ∀ p, p ∈ l.marks ↔ p ∈ o.marks
  /-- An edge has the marks of the links in its slots. -/
  edge_iff : ∀ id n, f.nodes.get? id = some n → ∀ d e, n.edges.get? d = some e →
    ∀ p, p ∈ e.marks ↔ ∃ (i : Nat) (k : LinkId) (l : Link β), (i : Int) ∈ e.linkPorts ∧
      n.ports[i]? = some (some k) ∧ f.links.get? k = some l ∧ p ∈ l.marks
  /-- A node has the mark of its own partition, if it is a host, and the marks of
  the edges that leave it. -/
  node_iff : ∀ id n, f.nodes.get? id = some n → ∀ p, p ∈ n.marks ↔
    (n.isHost = true ∧ p = n.mainPartition) ∨ ∃ d e, n.edges.get? d = some e ∧ p ∈ e.marks

/-- The fabric is ready for marks. -/
structure Markable (f : Fabric β) : Prop where
  /-- The fabric is wired. -/
  wired : f.Wired
  /-- The links are paired in both directions. -/
  paired : ∀ ⦃k l other⦄, f.links.get? k = some l → l.otherLink = some other →
    ∃ o, f.links.get? other = some o ∧ o.otherLink = some k
  /-- The hosts are in partitions, and the switches in none. -/
  main_iff : ∀ ⦃id n⦄, f.nodes.get? id = some n →
    (n.mainPartition = noPartition ↔ n.isHost = false)
  /-- The recorded paths lead between hosts along indexed links. -/
  paths_within : f.paths.Within f

/-- A path is recorded between two nodes just if it is listed. -/
theorem path?_eq_some_iff {f : Fabric β} {source dest : NodeId} {path : Path} :
    f.path? source dest = some path ↔ (source, dest, path) ∈ f.paths.list := by
  rw [Paths.mem_list, path?, Option.bind_eq_some_iff]

variable {f : Fabric β}

/-- The marks made on a link lead along it, one way or the other. -/
theorem mem_bothWays {id : LinkId} {l : Link β} : l ∈ f.bothWays id ↔
    ∃ l₀, f.links.get? id = some l₀ ∧
      (l = l₀ ∨ ∃ other, l₀.otherLink = some other ∧ f.links.get? other = some l) := by
  unfold bothWays
  cases f.links.get? id with
  | none => exact ⟨fun h => absurd h List.not_mem_nil, nofun⟩
  | some l₀ =>
    rw [List.mem_cons, Option.mem_toList, Option.bind_eq_some_iff]
    constructor
    · intro h
      exact ⟨l₀, rfl, h⟩
    · intro h
      obtain ⟨l₁, heq, h⟩ := h
      cases heq
      exact h

/-- A mark that is made on a link of a path. -/
theorem mem_marksAlong {partition p : Int} {path : Path} {l : Link β} :
    (p, l) ∈ f.marksAlong partition path ↔ partition = p ∧ ∃ id ∈ path, l ∈ f.bothWays id := by
  unfold marksAlong
  simp only [List.mem_flatMap, List.mem_map, Prod.mk.injEq]
  constructor
  · intro h
    obtain ⟨id, hid, l', hl', hp, heq⟩ := h
    rw [heq] at hl'
    exact ⟨hp, id, hid, hl'⟩
  · intro h
    obtain ⟨hp, id, hid, hl⟩ := h
    exact ⟨id, hid, l, hl, hp, rfl⟩

/-- A host is in the partition that it belongs to. -/
theorem inPartition_iff {id : NodeId} {n : Node β} (hn : f.nodes.get? id = some n)
    (hhost : n.isHost = true) {p : Int} : f.InPartition id p ↔ n.mainPartition = p := by
  constructor
  · intro h
    obtain ⟨n', hn', -, hp⟩ := h
    rw [hn] at hn'
    cases hn'
    exact hp
  · intro h
    exact ⟨n, hn, hhost, h⟩

/-- The marks that are made on the links of a recorded path. -/
theorem mem_marksBetween {source dest : NodeId} {path : Path}
    (hpath : f.Recordable source dest path) {p : Int} {l : Link β} :
    (p, l) ∈ f.marksBetween source dest path ↔
      f.InPartition source p ∧ f.InPartition dest p ∧ ∃ id ∈ path, l ∈ f.bothWays id := by
  obtain ⟨src, hsrc, hsrcHost⟩ := hpath.source_host
  obtain ⟨dst, hdst, hdstHost⟩ := hpath.dest_host
  rw [marksBetween, hsrc, hdst, inPartition_iff hsrc hsrcHost, inPartition_iff hdst hdstHost]
  dsimp only
  by_cases hsame : src.mainPartition = dst.mainPartition
  · rw [if_pos hsame, mem_marksAlong, ← hsame]
    constructor
    · intro h
      exact ⟨h.1, h.1, h.2⟩
    · intro h
      exact ⟨h.1, h.2.2⟩
  · rw [if_neg hsame]
    constructor
    · intro h
      exact absurd h List.not_mem_nil
    · intro h
      exact absurd (h.1.trans h.2.1.symm) hsame

/-- A link has the marks that were made on it. -/
theorem mem_link_spreadMarking (f : Fabric β) (k : LinkId) (p : Int) :
    p ∈ f.spreadMarking.link k ↔ ∃ l, (p, l) ∈ f.marksWithin f.paths.list ∧ k = l.id := by
  have hnone : ¬ p ∈ f.ownMarking.link k := Marks.not_mem_empty p
  rw [spreadMarking, Marking.mem_link_markAll]
  simp only [hnone, false_or]

/-- An edge has the marks that were made on links along it. -/
theorem mem_edge_spreadMarking (f : Fabric β) (id d : NodeId) (p : Int) :
    p ∈ f.spreadMarking.edge id d ↔
      ∃ l, (p, l) ∈ f.marksWithin f.paths.list ∧ id = l.parent ∧ d = l.dest := by
  have hnone : ¬ p ∈ f.ownMarking.edge id d := Marks.not_mem_empty p
  rw [spreadMarking, Marking.mem_edge_markAll]
  simp only [hnone, false_or]

namespace Markable

/-- The marks that are made on links. -/
theorem mem_marksWithin (r : f.Markable) {p : Int} {l : Link β} :
    (p, l) ∈ f.marksWithin f.paths.list ↔
      ∃ source dest path, f.path? source dest = some path ∧
        f.InPartition source p ∧ f.InPartition dest p ∧ ∃ id ∈ path, l ∈ f.bothWays id := by
  have hrecordable : ∀ {source dest path}, f.path? source dest = some path →
      f.Recordable source dest path := by
    intro source dest path h
    obtain ⟨dests, hdests, hpath⟩ := Option.bind_eq_some_iff.mp h
    exact r.paths_within source dests hdests dest path hpath
  unfold marksWithin
  rw [List.mem_flatMap]
  constructor
  · intro h
    obtain ⟨⟨source, dest, path⟩, hlisted, hin⟩ := h
    have hpath := path?_eq_some_iff.mpr hlisted
    exact ⟨source, dest, path, hpath, (mem_marksBetween (hrecordable hpath)).mp hin⟩
  · intro h
    obtain ⟨source, dest, path, hpath, hmarks⟩ := h
    exact ⟨(source, dest, path), path?_eq_some_iff.mp hpath,
      (mem_marksBetween (hrecordable hpath)).mpr hmarks⟩

/-- A mark that is made is made on an indexed link. -/
theorem indexed_of_mem (r : f.Markable) {p : Int} {l : Link β}
    (h : (p, l) ∈ f.marksWithin f.paths.list) : f.links.get? l.id = some l := by
  obtain ⟨_, _, _, -, -, -, id, -, hboth⟩ := r.mem_marksWithin.mp h
  obtain ⟨l₀, hl₀, hway⟩ := mem_bothWays.mp hboth
  rcases hway with heq | ⟨other, -, hother⟩
  · rw [heq, r.wired.link_id hl₀]
    exact hl₀
  · rw [r.wired.link_id hother]
    exact hother

/-- The marks of a link are those of the partitions that it carries. -/
theorem mem_link (r : f.Markable) {k : LinkId} {l : Link β} (hl : f.links.get? k = some l)
    (p : Int) : p ∈ f.spreadMarking.link k ↔ f.Carries p k := by
  rw [mem_link_spreadMarking]
  constructor
  · intro h
    obtain ⟨l', hin, hk⟩ := h
    obtain ⟨source, dest, path, hpath, hs, hd, id, hid, hboth⟩ := r.mem_marksWithin.mp hin
    obtain ⟨l₀, hl₀, hway⟩ := mem_bothWays.mp hboth
    refine ⟨source, dest, path, hpath, hs, hd, ?_⟩
    rcases hway with heq | ⟨other, hother, hl'⟩
    · left
      rw [hk, heq, r.wired.link_id hl₀]
      exact hid
    · right
      rw [hk, r.wired.link_id hl']
      exact ⟨id, l₀, hl₀, hother, hid⟩
  · intro h
    obtain ⟨source, dest, path, hpath, hs, hd, hon⟩ := h
    have hway : ∃ id ∈ path, l ∈ f.bothWays id := by
      rcases hon with hin | ⟨k', l', hl', hother, hin⟩
      · exact ⟨k, hin, mem_bothWays.mpr ⟨l, hl, Or.inl rfl⟩⟩
      · exact ⟨k', hin, mem_bothWays.mpr ⟨l', hl', Or.inr ⟨k, hother, hl⟩⟩⟩
    exact ⟨l, r.mem_marksWithin.mpr ⟨source, dest, path, hpath, hs, hd, hway⟩,
      (r.wired.link_id hl).symm⟩

/-- A link carries what the link that comes back carries. -/
theorem carries_other (r : f.Markable) {k other : LinkId} {l : Link β}
    (hl : f.links.get? k = some l) (hother : l.otherLink = some other) {p : Int}
    (h : f.Carries p k) : f.Carries p other := by
  obtain ⟨source, dest, path, hpath, hs, hd, hon⟩ := h
  refine ⟨source, dest, path, hpath, hs, hd, ?_⟩
  rcases hon with hin | ⟨k', l', hl', hback, hin⟩
  · exact Or.inr ⟨k, l, hl, hother, hin⟩
  · left
    obtain ⟨l₀, hl₀, hk'⟩ := r.paired hl' hback
    rw [hl] at hl₀
    cases hl₀
    rw [hother] at hk'
    cases hk'
    exact hin

/-- A mark that is made on a link is a mark of the link. -/
theorem mem_link_of_mem (r : f.Markable) {p : Int} {l : Link β}
    (h : (p, l) ∈ f.marksWithin f.paths.list) :
    f.links.get? l.id = some l ∧ p ∈ f.spreadMarking.link l.id :=
  ⟨r.indexed_of_mem h, (mem_link_spreadMarking f l.id p).mpr ⟨l, h, rfl⟩⟩

/-- A mark of an indexed link is made on that link. -/
theorem mem_of_mem_link (r : f.Markable) {p : Int} {k : LinkId} {l : Link β}
    (hl : f.links.get? k = some l) (h : p ∈ f.spreadMarking.link k) :
    (p, l) ∈ f.marksWithin f.paths.list := by
  obtain ⟨l', hin, hk⟩ := (mem_link_spreadMarking f k p).mp h
  have hsame := r.indexed_of_mem hin
  rw [← hk, hl] at hsame
  cases hsame
  exact hin

/-- The marks of an edge are those of the links along it. -/
theorem mem_edge (r : f.Markable) (id d : NodeId) (p : Int) :
    p ∈ f.spreadMarking.edge id d ↔ ∃ k l, f.links.get? k = some l ∧
      p ∈ f.spreadMarking.link k ∧ l.parent = id ∧ l.dest = d := by
  rw [mem_edge_spreadMarking]
  constructor
  · intro h
    obtain ⟨l, hin, hparent, hdest⟩ := h
    obtain ⟨hl, hp⟩ := r.mem_link_of_mem hin
    exact ⟨l.id, l, hl, hp, hparent.symm, hdest.symm⟩
  · intro h
    obtain ⟨k, l, hl, hp, hparent, hdest⟩ := h
    exact ⟨l, r.mem_of_mem_link hl hp, hparent.symm, hdest.symm⟩

/-- A node starts with the mark of its own partition, if it is a host. -/
theorem mem_ownMarking (r : f.Markable) {id : NodeId} {n : Node β}
    (hn : f.nodes.get? id = some n) (p : Int) :
    p ∈ f.ownMarking.node id ↔ n.isHost = true ∧ p = n.mainPartition := by
  have hmarks : f.ownMarking.node id = n.ownMarks := by
    rw [ownMarking]
    dsimp only
    rw [hn]
  have hmain := r.main_iff hn
  rw [hmarks, Node.ownMarks]
  by_cases hp : n.mainPartition = noPartition
  · rw [if_pos hp, hmain.mp hp]
    constructor
    · intro h
      exact absurd h (Marks.not_mem_empty p)
    · intro h
      exact absurd h.1 Bool.false_ne_true
  · have hhost : n.isHost = true := by
      rw [← Bool.not_eq_false]
      exact fun h => hp (hmain.mpr h)
    rw [if_neg hp]
    constructor
    · intro h
      exact ⟨hhost, List.mem_singleton.mp h⟩
    · intro h
      exact List.mem_singleton.mpr h.2

/-- The marks of a node are its own and those of the links that leave it. -/
theorem mem_node (r : f.Markable) {id : NodeId} {n : Node β} (hn : f.nodes.get? id = some n)
    (p : Int) : p ∈ f.spreadMarking.node id ↔ (n.isHost = true ∧ p = n.mainPartition) ∨
      ∃ k l, f.links.get? k = some l ∧ p ∈ f.spreadMarking.link k ∧ l.parent = id := by
  have hnode : p ∈ f.spreadMarking.node id ↔ p ∈ f.ownMarking.node id ∨
      ∃ l, (p, l) ∈ f.marksWithin f.paths.list ∧ id = l.parent := by
    rw [spreadMarking, Marking.mem_node_markAll]
  rw [hnode, r.mem_ownMarking hn]
  constructor
  · intro h
    rcases h with h | ⟨l, hin, hparent⟩
    · exact Or.inl h
    · obtain ⟨hl, hp⟩ := r.mem_link_of_mem hin
      exact Or.inr ⟨l.id, l, hl, hp, hparent.symm⟩
  · intro h
    rcases h with h | ⟨k, l, hl, hp, hparent⟩
    · exact Or.inl h
    · exact Or.inr ⟨l, r.mem_of_mem_link hl hp, hparent.symm⟩

/-- A link and the link that comes back have the same marks. -/
theorem mem_link_iff_mem_other (r : f.Markable) {k other : LinkId} {l o : Link β}
    (hl : f.links.get? k = some l) (hother : l.otherLink = some other)
    (ho : f.links.get? other = some o) (p : Int) :
    p ∈ f.spreadMarking.link k ↔ p ∈ f.spreadMarking.link other := by
  have hback : o.otherLink = some k := by
    obtain ⟨o', ho', hk⟩ := r.paired hl hother
    rw [ho] at ho'
    cases ho'
    exact hk
  rw [r.mem_link hl, r.mem_link ho]
  exact ⟨r.carries_other hl hother, r.carries_other ho hback⟩

/-- The marks of an edge are those of the links in its slots. -/
theorem mem_edge_iff_mem_slot (r : f.Markable) {id d : NodeId} {n : Node β} {e : Edge β}
    (hn : f.nodes.get? id = some n) (he : n.edges.get? d = some e) (p : Int) :
    p ∈ f.spreadMarking.edge id d ↔ ∃ (i : Nat) (k : LinkId) (l : Link β),
      (i : Int) ∈ e.linkPorts ∧ n.ports[i]? = some (some k) ∧ f.links.get? k = some l ∧
        p ∈ f.spreadMarking.link k := by
  have hports := r.wired.mem_linkPorts hn he
  rw [r.mem_edge]
  constructor
  · intro h
    obtain ⟨k, l, hl, hp, hparent, hdest⟩ := h
    have hslot := r.wired.link_plugged hl
    rw [hparent, Wired.linkIn?_eq_some_iff hn] at hslot
    have hport : ((slotOf l : Nat) : Int) ∈ e.linkPorts :=
      (hports _).mpr ⟨slotOf l, k, l, rfl, hslot, hl, hdest⟩
    exact ⟨slotOf l, k, l, hport, hslot, hl, hp⟩
  · intro h
    obtain ⟨i, k, l, hport, hslot, hl, hp⟩ := h
    have hparent : l.parent = id := by
      obtain ⟨l', hl', hparent, -⟩ :=
        r.wired.plugged_link ((Wired.linkIn?_eq_some_iff hn).mpr hslot)
      rw [hl] at hl'
      cases hl'
      exact hparent
    have hdest : l.dest = d := by
      obtain ⟨j, k', l', hj, hslot', hl', hdest⟩ := (hports _).mp hport
      have hij : i = j := by omega
      rw [← hij, hslot] at hslot'
      cases hslot'
      rw [hl] at hl'
      cases hl'
      exact hdest
    exact ⟨k, l, hl, hp, hparent, hdest⟩

/-- The marks of a node are its own and those of the edges that leave it. -/
theorem mem_node_iff_mem_edge (r : f.Markable) {id : NodeId} {n : Node β}
    (hn : f.nodes.get? id = some n) (p : Int) :
    p ∈ f.spreadMarking.node id ↔ (n.isHost = true ∧ p = n.mainPartition) ∨
      ∃ d e, n.edges.get? d = some e ∧ p ∈ f.spreadMarking.edge id d := by
  rw [r.mem_node hn]
  constructor
  · intro h
    rcases h with h | ⟨k, l, hl, hp, hparent⟩
    · exact Or.inl h
    · right
      have hslot := r.wired.link_plugged hl
      rw [hparent, Wired.linkIn?_eq_some_iff hn] at hslot
      obtain ⟨e, he, -⟩ := r.wired.exists_edge hn hslot hl
      exact ⟨l.dest, e, he, (r.mem_edge id l.dest p).mpr ⟨k, l, hl, hp, hparent, rfl⟩⟩
  · intro h
    rcases h with h | ⟨d, e, -, hp⟩
    · exact Or.inl h
    · right
      obtain ⟨k, l, hl, hmark, hparent, -⟩ := (r.mem_edge id d p).mp hp
      exact ⟨k, l, hl, hmark, hparent⟩

/-- Hosts are in the same partitions whatever the marks. -/
theorem inPartition_marked (m : Marking) (id : NodeId) (p : Int) :
    (f.marked m).InPartition id p ↔ f.InPartition id p := by
  constructor
  · intro h
    obtain ⟨n, hn, hhost, hp⟩ := h
    obtain ⟨n₀, hn₀, rfl⟩ := node_marked hn
    exact ⟨n₀, hn₀, hhost, hp⟩
  · intro h
    obtain ⟨n, hn, hhost, hp⟩ := h
    refine ⟨n.withMarks (m.node id) (m.edge id), ?_, hhost, hp⟩
    rw [nodes_marked, hn, Option.map_some]

/-- Links carry the same partitions whatever the marks. -/
theorem carries_marked (m : Marking) (p : Int) (k : LinkId) :
    (f.marked m).Carries p k ↔ f.Carries p k := by
  have hway : ∀ path : Path, (∃ k' l, (f.marked m).links.get? k' = some l ∧
      l.otherLink = some k ∧ k' ∈ path) ↔
      ∃ k' l, f.links.get? k' = some l ∧ l.otherLink = some k ∧ k' ∈ path := by
    intro path
    constructor
    · intro h
      obtain ⟨k', l, hl, hother, hin⟩ := h
      obtain ⟨l₀, hl₀, rfl⟩ := link_marked hl
      exact ⟨k', l₀, hl₀, hother, hin⟩
    · intro h
      obtain ⟨k', l, hl, hother, hin⟩ := h
      refine ⟨k', l.withMarks (m.link k'), ?_, hother, hin⟩
      rw [links_marked, hl, Option.map_some]
  unfold Carries
  simp only [inPartition_marked, hway]
  rfl

/-- Once marks were spread over a fabric, its marks are exact. -/
theorem exact (r : f.Markable) : (f.marked f.spreadMarking).MarksExact := by
  constructor
  case link_iff =>
    intro k l hl p
    obtain ⟨l₀, hl₀, rfl⟩ := link_marked hl
    rw [carries_marked]
    exact r.mem_link hl₀ p
  case other_iff =>
    intro k l other o hl hother ho p
    obtain ⟨l₀, hl₀, rfl⟩ := link_marked hl
    obtain ⟨o₀, ho₀, rfl⟩ := link_marked ho
    exact r.mem_link_iff_mem_other hl₀ hother ho₀ p
  case edge_iff =>
    intro id n hn d e he p
    obtain ⟨n₀, hn₀, rfl⟩ := node_marked hn
    obtain ⟨e₀, he₀, rfl⟩ := Node.edge_withMarks he
    refine (r.mem_edge_iff_mem_slot hn₀ he₀ p).trans ?_
    constructor
    · intro h
      obtain ⟨i, k, l, hport, hslot, hl, hp⟩ := h
      refine ⟨i, k, l.withMarks (f.spreadMarking.link k), hport, hslot, ?_, hp⟩
      rw [links_marked, hl, Option.map_some]
    · intro h
      obtain ⟨i, k, l, hport, hslot, hl, hp⟩ := h
      obtain ⟨l₀, hl₀, rfl⟩ := link_marked hl
      exact ⟨i, k, l₀, hport, hslot, hl₀, hp⟩
  case node_iff =>
    intro id n hn p
    obtain ⟨n₀, hn₀, rfl⟩ := node_marked hn
    refine (r.mem_node_iff_mem_edge hn₀ p).trans (or_congr_right ?_)
    constructor
    · intro h
      obtain ⟨d, e, he, hp⟩ := h
      refine ⟨d, e.withMarks (f.spreadMarking.edge id d), ?_, hp⟩
      exact (OrderedMap.get?_mapValues _ _ _).trans (congrArg _ he)
    · intro h
      obtain ⟨d, e, he, hp⟩ := h
      obtain ⟨e₀, he₀, rfl⟩ := Node.edge_withMarks he
      exact ⟨d, e₀, he₀, hp⟩

end Markable

end Fabric

end FabricPaths
