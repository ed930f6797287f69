import FabricPaths.Proofs.Extract.Chronicle
import FabricPaths.Proofs.Extract.Division
import FabricPaths.Proofs.Viewer.Depiction
import FabricPaths.Proofs.Viewer.Verdict

/-!
# What a viewer shows of a run

A viewer that has taken in a run has one item for each subnet at the top of its tree, with the
partitions that were found in the fabric of the subnet right under it, their hosts under these, and
the walks under the hosts. It has counted the walks that the report of the run counts.
-/

namespace FabricPaths.Viewer

open Extract (Config Divided Stage Story findings partitionEvents run stagesOf)

variable {story : Story} {stories : List Story} {xs : List Entry} {e : Event}

/-! ## Stories of runs -/

/-- The story is that of the subnet at a stage, and tells of the partitions that are found in its
fabric. -/
def OfDivided (stage : Stage) (story : Story) : Prop :=
  story.entry = stage.entry ∧ ∃ f, stage.run.outcome = .ok (f, story.report) ∧ story.Fits f ∧
    (Fabric.findPartitions f).outcome = .ok f.partitions

/-- The story of a subnet tells of walks between its hosts, and of the partitions of these. -/
theorem regular_of_fits {f : Fabric Float} (h : story.Fits f) (hf : Divided story.subnet f)
    (hreport : story.report.subnet = story.subnet) : Regular story := by
  have hnames : story.groups.map Prod.fst = Grouping.names f.hosts := by
    rw [h.groups, hf.partitions_eq, ← Grouping.map_name_ofHosts, List.map_map]
    rfl
  have htold : ∀ e ∈ story.walks, ∃ src dst, src ∈ f.hosts ∧ f.WalkTold (src, dst) e := by
    intro e he
    obtain ⟨⟨src, dst⟩, hpair, htold⟩ := Fabric.exists_of_forall₂ h.walks he
    exact ⟨src, dst, (Fabric.mem_hostPairs.mp hpair).1, htold⟩
  constructor
  case kind_eq =>
    intro e he
    obtain ⟨src, dst, -, htold⟩ := htold e he
    exact htold.kind_eq
  case subnet_eq =>
    intro e he
    obtain ⟨src, dst, -, htold⟩ := htold e he
    obtain ⟨a, -, hwalked, -⟩ := htold.walk
    exact (Event.subnet_of_walked hwalked).trans hf.subnet_eq
  case showable =>
    intro e he
    obtain ⟨src, dst, -, htold⟩ := htold e he
    obtain ⟨a, -, hwalked, -⟩ := htold.walk
    exact (Event.underway_walked hwalked).showable
  case sources =>
    intro e he
    obtain ⟨src, dst, hsrc, htold⟩ := htold e he
    rw [hnames, htold.source_eq]
    exact Grouping.mem_names_iff.mpr ⟨src, hsrc, rfl⟩
  case distinct =>
    rw [hnames]
    exact Grouping.nodup_names _
  case report => exact hreport

/-! ## What stories change -/

/-- What a story tells after its beginning. -/
def afterBeginning (story : Story) : List Event :=
  story.walks ++ partitionEvents story.subnet story.groups ++ [.subnetDone story.report]

/-- The events of a story are its beginning and what it tells after that. -/
theorem events_eq (story : Story) :
    story.events = .subnetStarts story.subnet story.file :: afterBeginning story := rfl

/-- What a story changes: it shows the partitions with their members, and the subnet with its
figures. -/
def changes (story : Story) : List (Spot × Label) :=
  (partitionEvents story.subnet story.groups).map (fun e =>
    (.partition story.subnet e.partition,
      .numbered e.partitionIndex.value e.partition e.members.length)) ++
    (Label.subnetDone (.subnetDone story.report)).toOption.toList.map (.subnet story.subnet, ·)

/-- The label of a subnet that was extracted can be written. -/
theorem exists_subnetDone (report : SubnetReport) :
    ∃ l, Label.subnetDone (.subnetDone report) = .ok l := by
  refine ((Label.subnetDone_cases (.subnetDone report)).resolve_left ?_).2
  rintro ⟨⟨f, hf, hlong⟩, -⟩
  exact (Event.underway_subnetDone report).legible f
    (List.mem_cons_of_mem _ (List.mem_cons_of_mem _ hf)) hlong

/-- The last change of a story is that of its subnet. -/
theorem changes_eq {l : Label} (hl : Label.subnetDone (.subnetDone story.report) = .ok l) :
    changes story = (partitionEvents story.subnet story.groups).map (fun e =>
      (.partition story.subnet e.partition,
        .numbered e.partitionIndex.value e.partition e.members.length)) ++
      [(.subnet story.subnet, l)] := by
  unfold changes
  rw [hl]
  rfl

namespace Regular

/-- After its beginning a story tells of its subnet, which it does not begin again, and what can be
shown. -/
theorem of_mem_afterBeginning (h : Regular story) (he : e ∈ afterBeginning story) :
    e.kind ≠ .subnetStart ∧ e.subnet = story.subnet ∧ e.Showable := by
  rcases List.mem_append.mp he with he | he
  · rcases List.mem_append.mp he with he | he
    · rw [h.kind_eq e he]
      exact ⟨nofun, h.subnet_eq e he, h.showable e he⟩
    · obtain ⟨i, hi, rfl⟩ := List.mem_mapIdx.mp he
      exact ⟨nofun, rfl, (Event.underway_partitionFound _ _ _ _).showable⟩
  · rw [List.mem_singleton.mp he]
    exact ⟨nofun, h.report, (Event.underway_subnetDone _).showable⟩

/-- All that a story tells can be shown. -/
theorem showable_of_mem (h : Regular story) (he : e ∈ story.events) : e.Showable := by
  rw [events_eq] at he
  rcases List.mem_cons.mp he with rfl | he
  · exact (Event.underway_subnetStarts _ _).showable
  · exact (h.of_mem_afterBeginning he).2.2

/-- A story on a new subnet is told in time. -/
theorem allTimely (h : Regular story) (hnew : .spot (.subnet story.subnet) ∉ xs) :
    AllTimely xs story.events := by
  rw [events_eq]
  refine ⟨hnew, allTimely_of_begun fun e he => ?_⟩
  obtain ⟨hkind, hsubnet, -⟩ := h.of_mem_afterBeginning he
  rw [hsubnet]
  exact ⟨hkind, mem_foldl_grow.mpr (.inr (List.mem_singleton_self _))⟩

/-- What a story changes is told by its events. -/
theorem filterMap_relabels (h : Regular story) :
    story.events.filterMap relabels? = changes story := by
  have hwalks : story.walks.filterMap relabels? = [] := by
    rw [List.filterMap_eq_nil_iff]
    intro e he
    unfold relabels?
    rw [h.kind_eq e he]
  have hgroups : (partitionEvents story.subnet story.groups).filterMap relabels? =
      (partitionEvents story.subnet story.groups).map fun e =>
        (.partition story.subnet e.partition,
          .numbered e.partitionIndex.value e.partition e.members.length) := by
    rw [← List.filterMap_eq_map]
    refine List.filterMap_congr fun e he => ?_
    obtain ⟨i, hi, rfl⟩ := List.mem_mapIdx.mp he
    rfl
  obtain ⟨l, hl⟩ := exists_subnetDone story.report
  have hdone : relabels? (.subnetDone story.report) = some (.subnet story.subnet, l) := by
    have hkind : (Event.subnetDone story.report).kind = .subnetDone := rfl
    have hsubnet : (Event.subnetDone story.report).subnet = story.subnet := h.report
    unfold relabels?
    rw [hkind]
    dsimp only
    rw [hl, hsubnet]
    rfl
  have hbegun : relabels? (.subnetStarts story.subnet story.file) = none := rfl
  rw [events_eq, List.filterMap_cons_none hbegun, afterBeginning, List.filterMap_append,
    List.filterMap_append, hwalks, hgroups, List.filterMap_cons_some hdone, changes_eq hl]
  rfl

/-- A story changes no spot twice. -/
theorem nodup_changes (h : Regular story) : ((changes story).map Prod.fst).Nodup := by
  have hinj : Function.Injective (Spot.partition story.subnet) :=
    fun _ _ heq => (Spot.partition.inj heq).2
  have hkeys : (changes story).map Prod.fst =
      (story.groups.map Prod.fst).map (Spot.partition story.subnet) ++ [.subnet story.subnet] := by
    obtain ⟨l, hl⟩ := exists_subnetDone story.report
    rw [← partition_partitionEvents story.subnet, changes_eq hl, List.map_append, List.map_map,
      List.map_map]
    rfl
  rw [hkeys, List.nodup_append]
  refine ⟨h.distinct.map hinj, List.nodup_singleton _, ?_⟩
  rintro p hp _ hq rfl
  obtain ⟨name, -, rfl⟩ := List.mem_map.mp hp
  cases List.mem_singleton.mp hq

end Regular

/-- What a story changes belongs to its subnet, and is no host. -/
theorem of_mem_changes {p : Spot} (h : p ∈ (changes story).map Prod.fst) :
    p.owner = story.subnet ∧ ∀ a host, p ≠ .host a host := by
  obtain ⟨l, hl⟩ := exists_subnetDone story.report
  obtain ⟨c, hc, rfl⟩ := List.mem_map.mp h
  rw [changes_eq hl] at hc
  rcases List.mem_append.mp hc with hc | hc
  · obtain ⟨e, -, rfl⟩ := List.mem_map.mp hc
    exact ⟨rfl, nofun⟩
  · rw [List.mem_singleton.mp hc]
    exact ⟨rfl, nofun⟩

namespace AllRegular

/-- All that is told up to the end of a run can be shown. -/
theorem showable (h : AllRegular stories) {report : RunReport} :
    ∀ e ∈ stories.flatMap Story.events ++ [.runDone report], e.Showable := by
  intro e he
  rcases List.mem_append.mp he with he | he
  · obtain ⟨story, hstory, he⟩ := List.mem_flatMap.mp he
    exact (h.regular story hstory).showable_of_mem he
  · rw [List.mem_singleton.mp he]
    exact showable_runDone report

/-- All stories are told in time. -/
theorem allTimely (h : AllRegular stories)
    (hnew : ∀ story ∈ stories, .spot (.subnet story.subnet) ∉ xs) :
    AllTimely xs (stories.flatMap Story.events) := by
  induction stories generalizing xs with
  | nil => trivial
  | cons story rest ih =>
    obtain ⟨hregular, hrest⟩ := List.forall_mem_cons.mp h.regular
    obtain ⟨hother, hdistinct⟩ := List.nodup_cons.mp h.distinct
    obtain ⟨hfirst, hlater⟩ := List.forall_mem_cons.mp hnew
    rw [List.flatMap_cons]
    refine (hregular.allTimely hfirst).append (ih ⟨hrest, hdistinct⟩ fun other hmem => ?_)
    rw [mem_foldl_grow]
    rintro (hbefore | hmentioned)
    · exact hlater other hmem hbefore
    · have howner : other.subnet = story.subnet := hregular.owner_of_mem hmentioned
      exact hother (List.mem_map.mpr ⟨other, hmem, howner⟩)

/-- No spot is changed twice. -/
theorem nodup_changes (h : AllRegular stories) :
    ((stories.flatMap changes).map Prod.fst).Nodup := by
  rw [List.map_flatMap, List.nodup_flatMap]
  refine ⟨fun story hstory => (h.regular story hstory).nodup_changes, ?_⟩
  refine (List.pairwise_map.mp h.distinct).imp ?_
  intro story other hne p hp hp'
  exact hne ((of_mem_changes hp).1.symm.trans (of_mem_changes hp').1)

/-- In the end the spots show what the stories tell of them. -/
theorem labelled (h : AllRegular stories) (hstory : story ∈ stories) :
    Labelled ((stories.flatMap changes).foldl relabel Spot.firstLabel) story := by
  obtain ⟨l, hl⟩ := exists_subnetDone story.report
  have hchanged : ∀ c ∈ changes story,
      (stories.flatMap changes).foldl relabel Spot.firstLabel c.1 = c.2 :=
    fun c hc => foldl_relabel h.nodup_changes (List.mem_flatMap.mpr ⟨story, hstory, hc⟩) _
  rw [changes_eq hl] at hchanged
  constructor
  case subnet =>
    have hshown := hchanged (.subnet story.subnet, l)
      (List.mem_append_right _ (List.mem_singleton_self _))
    rw [hl, hshown]
  case partition =>
    intro e he
    exact hchanged (.partition story.subnet e.partition, _)
      (List.mem_append_left _ (List.mem_map_of_mem he))
  case host =>
    intro host
    refine foldl_relabel_of_notMem ?_ _
    rw [List.map_flatMap, List.mem_flatMap]
    rintro ⟨other, -, hmem⟩
    exact (of_mem_changes hmem).2 _ _ rfl

end AllRegular

/-! ## What is counted -/

/-- The event tells of a walk. -/
def ofWalk (e : Event) : Bool := decide (e.kind = .path)

namespace State

variable {s s' s'' : State} {es es' : List Event}

/-- The walks that events tell of were counted on top of those that had been counted before. -/
structure Counts (es : List Event) (s s' : State) : Prop where
  /-- All walks are counted. -/
  seen : s'.seen = s.seen + (es.filter ofWalk).length
  /-- The complete ones are counted. -/
  complete : s'.complete = s.complete + (es.filter ofWalk).countP Event.ofComplete

namespace Counts

/-- Nothing is counted where nothing is told. -/
theorem refl (s : State) : Counts [] s s := ⟨rfl, rfl⟩

/-- Walks can be counted in two goes. -/
theorem trans (h : Counts es s s') (h' : Counts es' s' s'') : Counts (es ++ es') s s'' := by
  refine ⟨?_, ?_⟩
  · rw [h'.seen, h.seen, List.filter_append, List.length_append, Nat.add_assoc]
  · rw [h'.complete, h.complete, List.filter_append, List.countP_append, Nat.add_assoc]

/-- What tells of no walk is not counted. -/
theorem of_not_walk (h : e.kind ≠ .path) (hs : Counts [] s s') : Counts [e] s s' := by
  have hnone : [e].filter ofWalk = [] := List.filter_cons_of_neg (by simpa [ofWalk] using h)
  refine ⟨?_, ?_⟩
  · rw [hnone]
    exact hs.seen
  · rw [hnone]
    exact hs.complete

end Counts

/-- Nothing is counted when the item of a partition is looked up or drawn. -/
theorem counts_partitionItem (s : State) (subnet name : String) :
    Counts [] s (s.partitionItem subnet name).1 := by
  unfold partitionItem
  cases s.partitionItems.get? (subnet, name) with
  | some i => exact .refl s
  | none => exact ⟨rfl, rfl⟩

/-- Nothing is counted when the item of a host is looked up or drawn. -/
theorem counts_hostItem (s : State) (subnet host : String) :
    Counts [] s (s.hostItem subnet host).1 := by
  unfold hostItem
  cases s.hostItems.get? (subnet, host) with
  | some i => exact .refl s
  | none =>
    have hcounts := counts_partitionItem s subnet (Hostname.stem host)
    exact ⟨hcounts.seen, hcounts.complete⟩

/-- A walk is counted when it is drawn. -/
theorem counts_addWalk {status : PathStatus} (hkind : e.kind = .path)
    (hstatus : e.status = some status) (s : State) : Counts [e] s (s.addWalk e status) := by
  have hcounts := counts_hostItem s e.subnet e.source
  have hwalk : [e].filter ofWalk = [e] := List.filter_cons_of_pos (decide_eq_true hkind)
  have hcomplete : e.ofComplete = decide (status = .complete) := by
    rw [Event.ofComplete, hstatus]
    cases status <;> rfl
  refine ⟨?_, ?_⟩
  · rw [hwalk]
    exact congrArg (· + 1) hcounts.seen
  · rw [hwalk, List.countP_singleton, hcomplete]
    simp only [decide_eq_true_eq]
    exact congrArg (· + _) hcounts.complete

/-- An event is counted when it is taken in. -/
theorem counts_absorb (h : absorb e s = ⟨.ok (), s', []⟩) : Counts [e] s s' := by
  unfold absorb at h
  cases hkind : e.kind with
  | path =>
    rw [hkind] at h
    cases hstatus : e.status with
    | none =>
      rw [hstatus] at h
      cases h
    | some status =>
      rw [hstatus] at h
      cases h
      exact counts_addWalk hkind hstatus s
  | partition =>
    rw [hkind] at h
    dsimp only at h
    have hcounts := counts_partitionItem s e.subnet e.partition
    unfold labelPartition at h
    rw [Action.get_bind] at h
    generalize s.partitionItem e.subnet e.partition = found at h hcounts
    obtain ⟨s₁, i⟩ := found
    obtain ⟨l, -, rfl⟩ := exists_of_setLabel h
    exact .of_not_walk (by rw [hkind]; nofun) ⟨hcounts.seen, hcounts.complete⟩
  | subnetDone =>
    rw [hkind] at h
    dsimp only at h
    refine .of_not_walk (by rw [hkind]; nofun) ?_
    unfold labelSubnet at h
    rw [Action.get_bind] at h
    cases hfound : s.subnetItems.get? e.subnet with
    | some i =>
      rw [hfound] at h
      obtain ⟨l, -, rfl⟩ := exists_of_setLabel h
      exact ⟨rfl, rfl⟩
    | none =>
      rw [hfound] at h
      cases h
      exact .refl s
  | subnetStart =>
    rw [hkind] at h
    cases h
    exact .of_not_walk (by rw [hkind]; nofun) ⟨rfl, rfl⟩
  | runDone =>
    rw [hkind] at h
    cases h
    exact .of_not_walk (by rw [hkind]; nofun) ⟨rfl, rfl⟩
  | other name =>
    rw [hkind] at h
    cases h
    exact .of_not_walk (by rw [hkind]; nofun) (.refl s)

/-- Events are counted when the viewer comes to know them one after another. -/
theorem counts_foldl_learn (hes : ∀ e ∈ es, e.Showable) (s : State) :
    Counts es s (es.foldl learn s) := by
  induction es generalizing s with
  | nil => exact .refl s
  | cons e rest ih =>
    obtain ⟨he, hrest⟩ := List.forall_mem_cons.mp hes
    obtain ⟨s₁, habsorb⟩ := absorb_ok he s
    have hcounts := counts_absorb habsorb
    have hlearn : Counts [e] s (s.learn e) := by
      unfold learn
      rw [habsorb]
      exact ⟨hcounts.seen, hcounts.complete⟩
    exact hlearn.trans (ih hrest _)

/-- Events that a viewer took in are counted. -/
theorem Took.counts (h : Took es s s') (hes : ∀ e ∈ es, e.Showable) : Counts es s s' := by
  have hcounts : Counts es s.untimed s'.untimed := by
    rw [h.untimed_eq]
    exact counts_foldl_learn hes _
  exact ⟨hcounts.seen, hcounts.complete⟩

end State

/-- The walks of a story are all the walks that it tells of. -/
theorem Regular.filter_ofWalk (h : Regular story) : story.events.filter ofWalk = story.walks := by
  have hwalks : story.walks.filter ofWalk = story.walks :=
    List.filter_eq_self.mpr fun e he => decide_eq_true (h.kind_eq e he)
  have hgroups : (partitionEvents story.subnet story.groups).filter ofWalk = [] := by
    rw [List.filter_eq_nil_iff]
    intro e he
    rw [ofWalk, (of_mem_partitionEvents he).1]
    exact Bool.false_ne_true
  rw [events_eq, afterBeginning, List.filter_cons_of_neg Bool.false_ne_true, List.filter_append,
    List.filter_append, hwalks, hgroups, List.append_nil]
  exact List.append_nil _

/-- The walks that stories tell of are those that a report on their subnets counts. -/
theorem counted_walks {report : RunReport} (hfits : ∀ story ∈ stories, ∃ f, story.Fits f)
    (hsubnets : report.subnets = stories.map (·.report)) :
    ((stories.flatMap (·.walks)).length : Int) = report.pathsComplete + report.pathsMissing ∧
      ((stories.flatMap (·.walks)).countP Event.ofComplete : Int) = report.pathsComplete := by
  have hcomplete : report.pathsComplete =
      (stories.map (·.report.counts.complete)).foldr (· + ·) 0 := by
    rw [RunReport.pathsComplete, hsubnets, List.map_map]
    rfl
  have hmissing : report.pathsMissing =
      (stories.map (·.report.counts.missing)).foldr (· + ·) 0 := by
    rw [RunReport.pathsMissing, hsubnets, List.map_map]
    rfl
  rw [hcomplete, hmissing]
  clear hsubnets hcomplete hmissing
  induction stories with
  | nil => exact ⟨rfl, rfl⟩
  | cons story rest ih =>
    obtain ⟨⟨f, hstory⟩, hrest⟩ := List.forall_mem_cons.mp hfits
    obtain ⟨hseen, hcomplete⟩ := ih hrest
    have hfirst : story.report.counts.complete = story.walks.countP Event.ofComplete :=
      hstory.complete
    have hshort : story.report.counts.missing = story.walks.countP (!Event.ofComplete ·) :=
      hstory.missing
    have hlength : story.walks.length =
        story.walks.countP Event.ofComplete + story.walks.countP (!Event.ofComplete ·) := by
      simpa using List.length_eq_countP_add_countP Event.ofComplete (l := story.walks)
    rw [List.flatMap_cons, List.length_append, List.countP_append]
    simp only [List.map_cons, List.foldr_cons, Int.natCast_add]
    omega

/-! ## The viewer and the run -/

namespace State

/-- The viewer shows the stories of the subnets of a run, and has counted the walks on which the
run reports. -/
structure Displays (s : State) (stories : List Story) (report : RunReport) : Prop where
  /-- The run is done. -/
  result_eq : s.result = some (.runDone report)
  /-- All walks are counted. -/
  seen_eq : (s.seen : Int) =
    (Event.runDone report).pathsComplete.value + (Event.runDone report).pathsMissing.value
  /-- The complete ones are counted. -/
  complete_eq : (s.complete : Int) = (Event.runDone report).pathsComplete.value
  /-- The tree shows the stories in order, and nothing else. -/
  tree : List.Forall₂ ShownAs stories s.tree.outline

section Taking

variable {report : RunReport} {s : State} {clock : Clock} {started : Moment}
  {status : List String}

/-- A viewer that took in stories has drawn what they mention and shows what they tell of it. -/
theorem draws_of_took (h : AllRegular stories)
    (htook : Took (stories.flatMap Story.events ++ [.runDone report])
      { clock, started, status } s) :
    Draws (sketch stories) ((stories.flatMap changes).foldl relabel Spot.firstLabel) s.untimed := by
  have htimely : AllTimely [] (stories.flatMap Story.events ++ [.runDone report]) :=
    (h.allTimely fun _ _ => List.not_mem_nil).append ⟨trivial, trivial⟩
  have hmentions : (stories.flatMap Story.events ++ [Event.runDone report]).flatMap mentions =
      stories.flatMap fun story => story.events.flatMap mentions := by
    rw [List.flatMap_append, List.flatMap_assoc]
    exact List.append_nil _
  have hchanges : (stories.flatMap Story.events ++ [Event.runDone report]).filterMap relabels? =
      stories.flatMap changes := by
    rw [List.filterMap_append, List.filterMap_flatMap]
    refine (List.append_nil _).trans ?_
    exact List.flatMap_congr fun story hstory => (h.regular story hstory).filterMap_relabels
  have hstart : Draws [] Spot.firstLabel (untimed { clock, started, status }) := .start _ _ _
  have hdraws := hstart.foldl_learn h.showable htimely
  rw [hmentions, hchanges] at hdraws
  rw [htook.untimed_eq]
  exact hdraws

/-- A viewer that took in stories, and after them that the run is done, shows the stories. -/
theorem displays_of_took (h : AllRegular stories) (hfits : ∀ story ∈ stories, ∃ f, story.Fits f)
    (hsubnets : report.subnets = stories.map (·.report))
    (htook : Took (stories.flatMap Story.events ++ [.runDone report])
      { clock, started, status } s) :
    s.Displays stories report := by
  have hdraws := draws_of_took h htook
  have hwalks : (stories.flatMap Story.events ++ [Event.runDone report]).filter ofWalk =
      stories.flatMap (·.walks) := by
    rw [List.filter_append, List.filter_flatMap]
    refine (List.append_nil _).trans ?_
    exact List.flatMap_congr fun story hstory => (h.regular story hstory).filter_ofWalk
  have hcounts := htook.counts h.showable
  have hseen : s.seen = 0 + _ := hcounts.seen
  have hcomplete : s.complete = 0 + _ := hcounts.complete
  rw [hwalks, Nat.zero_add] at hseen hcomplete
  obtain ⟨hall, hdone⟩ := counted_walks hfits hsubnets
  rw [← hseen] at hall
  rw [← hcomplete] at hdone
  constructor
  case result_eq => exact (judges_of_took htook rfl).result_eq
  case seen_eq => exact hall
  case complete_eq => exact hdone
  case tree =>
    have htree : s.tree = drawn (sketch stories)
        ((stories.flatMap changes).foldl relabel Spot.firstLabel) := hdraws.tree_eq
    rw [htree, hdraws.grown.outline_drawn _ (Nat.le_add_right _ 4)]
    exact h.allShown (fun story hstory => h.labelled hstory) _

end Taking

end State

section Running

variable {c : Config} {w : World}

/-- The stories of a run are stories of distinct subnets, if it finds distinct ones. -/
theorem exists_stories [Memory] {report : RunReport}
    (ho : c.observer = some Observer.recorder)
    (hrun : (run c w).outcome = .ok report)
    (hdistinct : ((findings c w).2.map Prod.fst).Nodup) : ∃ stories : List Story,
      (run c w).state.told = w.told ++ (stories.flatMap Story.events ++ [.runDone report]) ∧
      report.subnets = stories.map (·.report) ∧ AllRegular stories ∧
      List.Forall₂ OfDivided (stagesOf c w) stories := by
  obtain ⟨hsubnets, hentries⟩ := Extract.report_of_run hrun
  rcases Extract.run_cases c w with ⟨e, -, he, -⟩ |
    ⟨-, outcome, u, hextracts, ⟨e, -, he, -⟩ | ⟨hok, houtcome, hstate⟩⟩
  · cases hrun.symm.trans he
  · cases hrun.symm.trans he
  obtain ⟨stories, htold, hstories⟩ := hextracts.tells ho hok
  obtain ⟨_, hclosed, rfl⟩ := Extract.tells_closing ho u report (houtcome.symm.trans hrun)
  obtain ⟨hsame, hreports, -⟩ := Extract.reports_of_stories hstories
  have hopened : (Extract.opening c w).state.told = w.told := Extract.silent_opening c w.told w rfl
  have hnames : stories.map (·.subnet) = (findings c w).2.map Prod.fst := by
    rw [← hentries, hsame, List.map_map]
    rfl
  have hdivided : List.Forall₂ (fun stage story => OfDivided stage story ∧ Regular story)
      (stagesOf c w) stories := by
    have hall : ∀ stage ∈ stagesOf c w, ∀ f report, stage.run.outcome = .ok (f, report) →
        Divided stage.subnet f ∧ report.subnet = stage.subnet :=
      fun _ hstage _ _ => hextracts.divided hstage
    refine ((List.forall₂_and_left _ _).mpr ⟨hall, hstories⟩).imp ?_
    rintro stage story ⟨hstage, hentry, f, hok', hfits⟩
    obtain ⟨hdivided, hreport⟩ := hstage f _ hok'
    have hsubnet : stage.subnet = story.subnet := congrArg Prod.fst hentry.symm
    rw [hsubnet] at hdivided hreport
    exact ⟨⟨hentry, f, hok', hfits, hdivided.found⟩, regular_of_fits hfits hdivided hreport⟩
  refine ⟨stories, ?_, hsubnets.trans hreports, ⟨?_, ?_⟩, hdivided.imp fun _ _ h => h.1⟩
  · rw [hstate, hclosed, htold, hopened, List.append_assoc]
  · intro story hstory
    obtain ⟨stage, -, -, hregular⟩ := Fabric.exists_of_forall₂ hdivided hstory
    exact hregular
  · rw [hnames]
    exact hdistinct

/-- A viewer that takes in what a run tells shows it. At the top of its tree are the subnets of the
run in order, each with the partitions that are found in its fabric, with their numbers and
members, though walks are told of before. Under the partitions are the hosts with their stems, and
under each host one leaf for each walk from there. All walks on which the run reports are
counted. -/
theorem run_displayed [Memory] {report : RunReport}
    (ho : c.observer = some Observer.recorder)
    (hrun : (run c w).outcome = .ok report)
    (hdistinct : ((findings c w).2.map Prod.fst).Nodup) {clock : Clock} (started : Moment)
    (status : List String)
    (hclock : clock.Lasts (2 * ((run c w).state.told.drop w.told.length).length)) :
    ∃ (stories : List Story) (s : State),
      (run c w).state.told = w.told ++ (stories.flatMap Story.events ++ [.runDone report]) ∧
      List.Forall₂ OfDivided (stagesOf c w) stories ∧
      State.processAll ((run c w).state.told.drop w.told.length) { clock, started, status } =
        ⟨.ok (), s, []⟩ ∧
      s.Displays stories report := by
  obtain ⟨stories, htold, hsubnets, hregular, hdivided⟩ := exists_stories ho hrun hdistinct
  have hfits : ∀ story ∈ stories, ∃ f, story.Fits f := by
    intro story hstory
    obtain ⟨stage, -, -, f, -, hfits, -⟩ := Fabric.exists_of_forall₂ hdivided hstory
    exact ⟨f, hfits⟩
  rw [htold, List.drop_left] at hclock ⊢
  obtain ⟨s, hprocessed, htook⟩ :=
    State.took_processAll (s := { clock, started, status }) hregular.showable
      (State.legible_of_none rfl) hclock
  exact ⟨stories, s, rfl, hdivided, hprocessed,
    State.displays_of_took hregular hfits hsubnets htook⟩

/-- A viewer shows the run on two hosts, and counts the walks both ways, which stop short. -/
theorem twoHosts_displayed : Extract.recording.observer = some Observer.recorder ∧
    ((findings Extract.recording Extract.twoHosts).2.map Prod.fst).Nodup ∧
    ∃ report, (run Extract.recording Extract.twoHosts).outcome = .ok report ∧
      ∃ (stories : List Story) (s : State),
        State.processAll ((run Extract.recording Extract.twoHosts).state.told.drop
          Extract.twoHosts.told.length) fresh = ⟨.ok (), s, []⟩ ∧
        s.Displays stories report ∧ s.seen = 2 ∧ s.complete = 0 := by
  have hdistinct : ((findings Extract.recording Extract.twoHosts).2.map Prod.fst).Nodup := by
    decide +kernel
  have hok : ∃ report ∈ (run Extract.recording Extract.twoHosts).outcome.toOption,
      (report.pathsComplete, report.pathsMissing) = (0, 2) := by decide +kernel
  obtain ⟨report, hreport, hfigures⟩ := hok
  have hrun := eq_ok_of_mem_toOption hreport
  obtain ⟨stories, s, -, -, hprocessed, hdisplays⟩ :=
    run_displayed rfl hrun hdistinct still.start [] (still_lasts _)
  refine ⟨rfl, hdistinct, report, hrun, stories, s, hprocessed, hdisplays, ?_, ?_⟩
  · have hseen : (s.seen : Int) = report.pathsComplete + report.pathsMissing := hdisplays.seen_eq
    rw [(Prod.mk.inj hfigures).1, (Prod.mk.inj hfigures).2] at hseen
    omega
  · have hcomplete : (s.complete : Int) = report.pathsComplete := hdisplays.complete_eq
    rw [(Prod.mk.inj hfigures).1] at hcomplete
    omega

end Running

end FabricPaths.Viewer
