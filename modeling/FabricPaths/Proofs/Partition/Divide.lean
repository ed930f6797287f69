import FabricPaths.Proofs.Partition.Exact

/-!
# Dividing a fabric into partitions

A fabric whose links are paired in both directions is divided by putting its
hosts into partitions and spreading their marks over the recorded paths. That
succeeds and leaves exact marks.
-/

namespace FabricPaths

variable {β : Type}

namespace Fabric

variable {f : Fabric β}


/-- Clearing the marks of a fabric leaves each node the mark of its own partition. -/
theorem clearMarks_eq (f : Fabric β) : f.clearMarks = f.marked f.ownMarking := by
  unfold clearMarks marked
  congr 1
  apply OrderedMap.mapValues_congr
  intro e he
  have hget : f.nodes.get? e.1 = some e.2 := OrderedMap.mem_entries_iff.mp he
  have hmarks : f.ownMarking.node e.1 = e.2.ownMarks := by
    rw [ownMarking]
    dsimp only
    rw [hget]
  rw [hmarks]
  rfl

/-- The fabric once its hosts are in partitions and these are known. -/
def partitioned (f : Fabric β) : Fabric β := { f.grouped.1 with partitions := f.grouped.2 }

/-- The fabric is ready to be divided into partitions. -/
structure Divisible (f : Fabric β) : Prop where
  /-- The fabric is wired. -/
  wired : f.Wired
  /-- The links are paired in both directions. -/
  paired : ∀ ⦃k l other⦄, f.links.get? k = some l → l.otherLink = some other →
    ∃ o, f.links.get? other = some o ∧ o.otherLink = some k
  /-- The switches are in no partition. -/
  switch_main : ∀ ⦃id n⦄, f.nodes.get? id = some n → n.isHost = false →
    n.mainPartition = noPartition

/-- A wired fabric whose nodes are in no partition is ready to be divided once its
links are paired, whatever tables, marks and partitions of hosts are put on it. -/
theorem Wired.divisible_pairLinks (w : f.Wired)
    (hmain : ∀ ⦃id n⦄, f.nodes.get? id = some n → n.mainPartition = noPartition)
    (routes : RoutingTables) (partition : NodeId → Int) (m : Marking) :
    (((f.pairLinks.withRoutes routes).reassigned partition).marked m).Divisible where
  wired := by
    apply w.of_bare_eq
    calc
      _ = ((f.pairLinks.withRoutes routes).reassigned partition).bare := bare_marked _ m
      _ = (f.pairLinks.withRoutes routes).bare := bare_reassigned _ partition
      _ = f.bare := f.bare_pairLinks
  paired := by
    intro k l other hl hother
    obtain ⟨l₀, hl₀, rfl⟩ := link_marked hl
    obtain ⟨o, ho, hback, -, -⟩ := w.otherLink_symm hl₀ hother
    refine ⟨o.withMarks (m.link other), ?_, hback⟩
    exact (links_marked _ m other).trans (congrArg _ ho)
  switch_main := by
    intro id n hn hswitch
    have hnodes : f.pairLinks.nodes = f.nodes := pairLinks_frame (fun _ _ _ => rfl) f
    obtain ⟨n₁, hn₁, rfl⟩ := node_marked hn
    change (f.pairLinks.nodes.mapValues fun id n =>
      if n.isHost then n.inPartition (partition id) else n).get? id = some n₁ at hn₁
    rw [hnodes, OrderedMap.get?_mapValues] at hn₁
    obtain ⟨n₀, hn₀, rfl⟩ := Option.map_eq_some_iff.mp hn₁
    cases hhost : n₀.isHost with
    | true =>
      rw [hhost, if_pos rfl] at hswitch
      exact absurd (hhost.symm.trans hswitch) Bool.false_ne_true.symm
    | false =>
      rw [if_neg Bool.false_ne_true]
      have hnone : n₀.mainPartition = noPartition := hmain hn₀
      exact hnone

/-- Partitions leave the fabric bare as it was. -/
theorem bare_partitioned (f : Fabric β) : f.partitioned.bare = f.bare := f.bare_grouped

/-- Hosts remain hosts once they are in partitions. -/
theorem isHost_partitioned {id : NodeId} (h : f.IsHost id) : f.partitioned.IsHost id := by
  obtain ⟨n, hn, hhost⟩ := h
  obtain ⟨n', hn', -⟩ := node_of_bare_eq f.bare_partitioned.symm hn
  obtain ⟨n₀, hn₀, hassigned⟩ := get?_grouped hn'
  rw [hn] at hn₀
  cases hn₀
  exact ⟨n', hn', hassigned.isHost_eq.trans hhost⟩

/-- Once its hosts are in partitions, a fabric is ready for marks. -/
theorem Divisible.markable (r : f.Divisible) (hpaths : f.paths.Within f) :
    f.partitioned.Markable where
  wired := r.wired.of_bare_eq f.bare_partitioned
  paired := r.paired
  main_iff := by
    intro id n' hn'
    obtain ⟨n, hn, hassigned⟩ := get?_grouped hn'
    cases hassigned with
    | host hhost i =>
      have hmain : (n.inPartition i).mainPartition ≠ noPartition := by
        change (i : Int) ≠ -1
        omega
      have hhost' : (n.inPartition i).isHost = true := hhost
      rw [hhost']
      exact ⟨fun h => absurd h hmain, fun h => absurd h.symm Bool.false_ne_true⟩
    | switch hswitch => exact ⟨fun _ => hswitch, fun _ => r.switch_main hn hswitch⟩
  paths_within := by
    intro source dests hdests dest path hpath
    have hrecordable := hpaths source dests hdests dest path hpath
    exact ⟨isHost_partitioned hrecordable.source_host, isHost_partitioned hrecordable.dest_host,
      hrecordable.links_indexed⟩

/-- Finding partitions and spreading their marks succeeds on a fabric that is ready
for marks. -/
theorem setPartitions_eq (r : f.partitioned.Markable) : ∃ log, setPartitions f =
    ⟨.ok f.grouped.2, f.partitioned.marked f.partitioned.spreadMarking, log⟩ := by
  have hpaths : ∀ t ∈ f.partitioned.paths.list, f.partitioned.Passable t.1 t.2.1 t.2.2 := by
    intro t ht
    obtain ⟨source, dest, path⟩ := t
    obtain ⟨dests, hdests, hpath⟩ := Paths.mem_list.mp ht
    have hrecordable := r.paths_within source dests hdests dest path hpath
    obtain ⟨src, hsrc, -⟩ := hrecordable.source_host
    obtain ⟨dst, hdst, -⟩ := hrecordable.dest_host
    exact ⟨⟨src, hsrc⟩, ⟨dst, hdst⟩, hrecordable.links_indexed⟩
  have hmarks := markPaths_marked hpaths f.partitioned.ownMarking
  have hfind : ∃ log, findPartitions f = ⟨.ok f.grouped.2, f.grouped.1, log⟩ := ⟨_, rfl⟩
  obtain ⟨log, hfind⟩ := hfind
  unfold setPartitions
  rw [Action.bind_of_ok hfind, Action.modify_bind, Action.get_bind]
  change ∃ log, (⟨_, _, _⟩ : Run (Fabric β) (List Partition)) = _
  have hclear : ({ f.grouped.1 with partitions := f.grouped.2 } : Fabric β).clearMarks =
      f.partitioned.marked f.partitioned.ownMarking := f.partitioned.clearMarks_eq
  rw [hclear]
  have hlist : (f.partitioned.marked f.partitioned.ownMarking).paths.list =
      f.partitioned.paths.list := rfl
  rw [hlist, Action.bind_of_ok hmarks]
  exact ⟨_, rfl⟩

namespace Divisible

variable {paths : Paths}

/-- The directory of hardware descriptions and the tables make no difference to whether a
fabric is ready to be divided. -/
theorem equipped (r : f.Divisible) (hwlocDir : Option String) (routes : RoutingTables) :
    ({ f with hwlocDir, routes } : Fabric β).Divisible :=
  ⟨r.wired.of_bare_eq rfl, r.paired, r.switch_main⟩

/-- Once paths are recorded that can be and its hosts are in partitions, a fabric that is ready
to be divided is ready for marks. -/
theorem markable_withPaths (r : f.Divisible) (h : paths.Within f) :
    (f.withPaths paths).partitioned.Markable := by
  have hdivisible : (f.withPaths paths).Divisible :=
    ⟨r.wired.of_bare_eq rfl, r.paired, r.switch_main⟩
  refine hdivisible.markable fun source dests hdests dest path hpath => ?_
  have hrecordable := h source dests hdests dest path hpath
  exact ⟨hrecordable.source_host, hrecordable.dest_host, hrecordable.links_indexed⟩

/-- On paths that can be recorded, a fabric is divided by grouping its hosts and spreading
their marks. -/
theorem setPartitions_eq (r : f.Divisible) (h : paths.Within f) :
    ∃ log, setPartitions (f.withPaths paths) = ⟨.ok f.grouped.2,
      (f.withPaths paths).partitioned.marked (f.withPaths paths).partitioned.spreadMarking, log⟩ :=
  Fabric.setPartitions_eq (r.markable_withPaths h)

/-- With paths between its hosts, a fabric that is ready to be divided is divided, and
stays wired as it is. -/
theorem divided (r : f.Divisible) (h : paths.Within f) :
    ∃ partitions g log, setPartitions (f.withPaths paths) = ⟨.ok partitions, g, log⟩ ∧
      g.bare = f.bare := by
  obtain ⟨log, hrun⟩ := r.setPartitions_eq h
  exact ⟨_, _, log, hrun, (bare_marked _ _).trans (bare_partitioned _)⟩

end Divisible

end Fabric

end FabricPaths
