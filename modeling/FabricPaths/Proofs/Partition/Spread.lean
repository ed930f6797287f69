import FabricPaths.Proofs.Action
import FabricPaths.Proofs.Partition.Marking

/-!
# What spreading marks leaves

Spreading marks over the paths of a fabric succeeds where the paths lead between
known nodes along indexed links, and leaves the fabric with the marking that was
extended by a list of marks: for each path within a partition, and each link of
it, one on the link and one on the link that comes back.
-/

namespace FabricPaths.Fabric

variable {β : Type}

/-- A link and the link that comes back, of those that are indexed. -/
def bothWays (f : Fabric β) (id : LinkId) : List (Link β) :=
  match f.links.get? id with
  | none => []
  | some l => l :: (l.otherLink.bind f.links.get?).toList

/-- The two ways of an indexed link. -/
theorem bothWays_eq {f : Fabric β} {id : LinkId} {l : Link β} (hl : f.links.get? id = some l) :
    f.bothWays id = l :: (l.otherLink.bind f.links.get?).toList := by
  rw [bothWays, hl]

/-- The marks on the links of a path. -/
def marksAlong (f : Fabric β) (partition : Int) (path : Path) : List (Int × Link β) :=
  path.flatMap fun id => (f.bothWays id).map (partition, ·)

/-- The marks of a path between two nodes, which are none unless both belong to one
partition. -/
def marksBetween (f : Fabric β) (source dest : NodeId) (path : Path) : List (Int × Link β) :=
  match f.nodes.get? source, f.nodes.get? dest with
  | some src, some dst =>
    if src.mainPartition = dst.mainPartition then f.marksAlong src.mainPartition path else []
  | _, _ => []

/-- The marks of all paths. -/
def marksWithin (f : Fabric β) (paths : List (NodeId × NodeId × Path)) : List (Int × Link β) :=
  paths.flatMap fun t => f.marksBetween t.1 t.2.1 t.2.2

/-- The path leads between known nodes along indexed links. -/
structure Passable (f : Fabric β) (source dest : NodeId) (path : Path) : Prop where
  /-- The source is known. -/
  source_known : ∃ n, f.nodes.get? source = some n
  /-- The destination is known. -/
  dest_known : ∃ n, f.nodes.get? dest = some n
  /-- The links are indexed. -/
  links_indexed : ∀ id ∈ path, ∃ l, f.links.get? id = some l

/-- Marking an indexed link and its way back. -/
theorem markBoth_marked {f : Fabric β} {id : LinkId} {l : Link β} (hl : f.links.get? id = some l)
    (m : Marking) (partition : Int) : (f.marked m).markBoth partition id =
      .ok (f.marked (m.markAll ((f.bothWays id).map (partition, ·)))) := by
  have hlink : (f.marked m).link id = .ok (l.withMarks (m.link id)) := by
    rw [link_eq_ok_iff, links_marked, hl, Option.map_some]
  have hmark : (f.marked m).mark partition (l.withMarks (m.link id)) =
      f.marked (m.mark partition l) := f.mark_marked m partition (l.withMarks (m.link id))
  have hother : (l.withMarks (m.link id)).otherLink = l.otherLink := rfl
  unfold markBoth
  rw [hlink, bothWays_eq hl]
  simp only [bind, Except.bind, pure, Except.pure, hmark, hother]
  cases l.otherLink with
  | none => rfl
  | some other =>
    rw [Option.bind_some, Option.bind_some, links_marked]
    cases f.links.get? other with
    | none => rfl
    | some o => exact congrArg Except.ok (mark_marked f _ partition (o.withMarks _))

/-- Marking the links of a path. -/
theorem markPath_marked {f : Fabric β} {path : Path}
    (hpath : ∀ id ∈ path, ∃ l, f.links.get? id = some l) (m : Marking) (partition : Int) :
    markPath partition path (f.marked m) =
      ⟨.ok (), f.marked (m.markAll (f.marksAlong partition path)), []⟩ := by
  induction path generalizing m with
  | nil => rfl
  | cons id rest ih =>
    obtain ⟨l, hl⟩ := hpath id List.mem_cons_self
    have hrest := ih fun k hk => hpath k (List.mem_cons_of_mem id hk)
    unfold markPath
    rw [Action.get_bind, markBoth_marked hl, Action.ofExcept_ok_bind, Action.modify_bind, hrest,
      ← Marking.markAll_append]
    rfl

/-- Marking the links of the paths within a partition. -/
theorem markPaths_marked {f : Fabric β} {paths : List (NodeId × NodeId × Path)}
    (hpaths : ∀ t ∈ paths, f.Passable t.1 t.2.1 t.2.2) (m : Marking) :
    markPaths paths (f.marked m) = ⟨.ok (), f.marked (m.markAll (f.marksWithin paths)), []⟩ := by
  induction paths generalizing m with
  | nil => rfl
  | cons t rest ih =>
    obtain ⟨source, dest, path⟩ := t
    have hrest := ih fun t ht => hpaths t (List.mem_cons_of_mem _ ht)
    have hthis : f.Passable source dest path := hpaths _ List.mem_cons_self
    obtain ⟨src, hsrc⟩ := hthis.source_known
    obtain ⟨dst, hdst⟩ := hthis.dest_known
    have hsource : (f.marked m).node source =
        .ok (src.withMarks (m.node source) (m.edge source)) := by
      rw [node_eq_ok_iff, nodes_marked, hsrc, Option.map_some]
    have hdest : (f.marked m).node dest = .ok (dst.withMarks (m.node dest) (m.edge dest)) := by
      rw [node_eq_ok_iff, nodes_marked, hdst, Option.map_some]
    have hmarks : f.marksWithin ((source, dest, path) :: rest) =
        f.marksBetween source dest path ++ f.marksWithin rest := List.flatMap_cons
    unfold markPaths
    rw [Action.get_bind, hsource, Action.ofExcept_ok_bind, hdest, Action.ofExcept_ok_bind, hmarks,
      Marking.markAll_append, marksBetween, hsrc, hdst]
    dsimp only
    by_cases hmain : src.mainPartition = dst.mainPartition
    · have hmain' : (src.withMarks (m.node source) (m.edge source)).mainPartition =
          (dst.withMarks (m.node dest) (m.edge dest)).mainPartition := hmain
      have hpath : markPath (src.withMarks (m.node source) (m.edge source)).mainPartition path
          (f.marked m) = ⟨.ok (), f.marked (m.markAll (f.marksAlong src.mainPartition path)), []⟩ :=
        markPath_marked hthis.links_indexed m src.mainPartition
      rw [if_pos hmain', if_pos hmain, Action.bind_of_ok hpath, hrest]
      rfl
    · have hmain' : ¬ (src.withMarks (m.node source) (m.edge source)).mainPartition =
          (dst.withMarks (m.node dest) (m.edge dest)).mainPartition := hmain
      rw [if_neg hmain', if_neg hmain]
      exact hrest m

end FabricPaths.Fabric
