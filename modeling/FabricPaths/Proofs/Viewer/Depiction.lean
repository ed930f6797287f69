import FabricPaths.Proofs.Extract.Story
import FabricPaths.Proofs.Viewer.Drawing
import Mathlib.Data.List.Nodup
import Mathlib.Data.List.Perm.Basic

/-!
# How a viewer depicts stories

The story of a subnet tells of walks before it tells of the partitions of their hosts. So a viewer
draws the partition of a host when it is told of the first walk from there, and shows its number
and members later. In the end the items under that of the subnet are those of the partitions, each
with its number and members, and under each of them stand the hosts with its stem from which walks
were told of, each with its walks.
-/

namespace FabricPaths

section Lists

variable {α κ γ : Type}

/-- What is looked for in the list of one member alone is found there. -/
theorem filter_flatMap_of_nodup {key : α → κ} {f : α → List γ} {q : γ → Bool} {xs : List α}
    {x : α} (hnodup : (xs.map key).Nodup) (hx : x ∈ xs)
    (hothers : ∀ y ∈ xs, key y ≠ key x → (f y).filter q = []) :
    (xs.flatMap f).filter q = (f x).filter q := by
  induction xs with
  | nil => cases hx
  | cons y rest ih =>
    obtain ⟨hy, hrest⟩ := List.nodup_cons.mp hnodup
    rw [List.flatMap_cons, List.filter_append]
    rcases List.mem_cons.mp hx with rfl | hlater
    · have hnone : (rest.flatMap f).filter q = [] := by
        rw [List.filter_flatMap, List.flatMap_eq_nil_iff]
        intro z hz
        refine hothers z (List.mem_cons_of_mem _ hz) fun heq => hy ?_
        exact heq ▸ List.mem_map_of_mem hz
      rw [hnone, List.append_nil]
    · have hne : key y ≠ key x := fun heq => hy (heq ▸ List.mem_map_of_mem hlater)
      rw [hothers y List.mem_cons_self hne, List.nil_append]
      exact ih hrest hlater fun z hz => hothers z (List.mem_cons_of_mem _ hz)

/-- Members that are sorted by their keys are the members. -/
theorem perm_flatMap_filter [DecidableEq κ] (key : α → κ) {keys : List κ} {xs : List α}
    (hnodup : keys.Nodup) (hkeys : ∀ x ∈ xs, key x ∈ keys) :
    (keys.flatMap fun k => xs.filter fun x => key x = k).Perm xs := by
  induction keys generalizing xs with
  | nil =>
    cases xs with
    | nil => exact .refl _
    | cons x rest => exact absurd (hkeys x List.mem_cons_self) List.not_mem_nil
  | cons k rest ih =>
    obtain ⟨hk, hrest⟩ := List.nodup_cons.mp hnodup
    have hothers : (rest.flatMap fun k' => xs.filter fun x => key x = k') =
        rest.flatMap fun k' => (xs.filter fun x => !decide (key x = k)).filter
          fun x => key x = k' := by
      refine List.flatMap_congr fun k' hk' => ?_
      rw [List.filter_filter]
      refine List.filter_congr fun x _ => ?_
      by_cases hx : key x = k'
      · have hne : key x ≠ k := fun heq => hk (heq ▸ hx ▸ hk')
        simp [hx, hx ▸ hne]
      · simp [hx]
    have hlater : ∀ x ∈ xs.filter fun x => !decide (key x = k), key x ∈ rest := by
      intro x hx
      obtain ⟨hmem, hne⟩ := List.mem_filter.mp hx
      refine (List.mem_cons.mp (hkeys x hmem)).resolve_left fun heq => ?_
      simp [heq] at hne
    rw [List.flatMap_cons, hothers]
    exact ((ih hrest hlater).append_left _).trans (List.filter_append_perm _ xs)

end Lists

namespace Viewer

open Extract (Story partitionEvents)

/-! ## What is to be shown -/

/-- A walk is shown as a leaf. -/
def walkOutline (e : Event) : Outline := .mk (.ofWalk e) none []

/-- A host is shown with the walks from it. -/
def hostOutline (walks : List Event) (host : String) : Outline :=
  .mk (.host host) (some false) ((walks.filter fun e => e.source = host).map walkOutline)

/-- The hosts of a partition from which walks were told of, in the order of their first walks. -/
def hostsIn (walks : List Event) (name : String) : List String :=
  ((walks.filter fun e => Hostname.stem e.source = name).map (·.source)).eraseDups

/-- A partition is shown with its number and members, and with its hosts. -/
def partitionOutline (walks : List Event) (e : Event) : Outline :=
  .mk (.numbered e.partitionIndex.value e.partition e.members.length) (some false)
    ((hostsIn walks e.partition).map (hostOutline walks))

/-- The outline shows the story of a subnet. -/
structure ShownAs (story : Story) (o : Outline) : Prop where
  /-- The subnet is shown with its figures. -/
  label_eq : Label.subnetDone (.subnetDone story.report) = .ok o.label
  /-- It is shown open. -/
  isOpen_eq : o.isOpen = some true
  /-- Under it are the partitions. -/
  partitions : o.beneath.Perm
    ((partitionEvents story.subnet story.groups).map (partitionOutline story.walks))
  /-- No two of them have the same name. -/
  distinct : (story.groups.map Prod.fst).Nodup
  /-- Each walk starts in one of them. -/
  sources : ∀ e ∈ story.walks, Hostname.stem e.source ∈ story.groups.map Prod.fst
  /-- Two steps further down there is one leaf for each walk. -/
  leaves : ((o.beneath.flatMap (·.beneath)).flatMap (·.beneath)).Perm
    (story.walks.map walkOutline)

/-- What a story is like that a run tells. -/
structure Regular (story : Story) : Prop where
  /-- Walks are told of as such. -/
  kind_eq : ∀ e ∈ story.walks, e.kind = .path
  /-- They are told of the subnet. -/
  subnet_eq : ∀ e ∈ story.walks, e.subnet = story.subnet
  /-- They can be shown. -/
  showable : ∀ e ∈ story.walks, e.Showable
  /-- They start in the partitions that are told of. -/
  sources : ∀ e ∈ story.walks, Hostname.stem e.source ∈ story.groups.map Prod.fst
  /-- No two partitions have the same name. -/
  distinct : (story.groups.map Prod.fst).Nodup
  /-- The report is one on the subnet. -/
  report : story.report.subnet = story.subnet

/-! ## What a story mentions -/

variable {story : Story} {stories : List Story} {a name host : String} {xs : List Entry}

/-- The walks of each host of a partition are the walks from its hosts. -/
theorem perm_walks (walks : List Event) (name : String) :
    ((hostsIn walks name).flatMap fun h => walks.filter fun e => e.source = h).Perm
      (walks.filter fun e => Hostname.stem e.source = name) := by
  have hsame : ((hostsIn walks name).flatMap fun h => walks.filter fun e => e.source = h) =
      (hostsIn walks name).flatMap fun h =>
        (walks.filter fun e => Hostname.stem e.source = name).filter fun e => e.source = h := by
    refine List.flatMap_congr fun h hh => ?_
    obtain ⟨e', he', rfl⟩ := List.mem_map.mp (List.mem_eraseDups.mp hh)
    have hstem : Hostname.stem e'.source = name := of_decide_eq_true (List.mem_filter.mp he').2
    rw [List.filter_filter]
    refine List.filter_congr fun e _ => ?_
    by_cases he : e.source = e'.source
    · simp [he, hstem]
    · simp [he]
  rw [hsame]
  refine perm_flatMap_filter Event.source (nodup_eraseDups _) fun e he => ?_
  exact List.mem_eraseDups.mpr (List.mem_map_of_mem he)

/-- The names that partition events tell. -/
theorem partition_partitionEvents (subnet : String) (groups : List (String × List String)) :
    (partitionEvents subnet groups).map (·.partition) = groups.map Prod.fst := by
  refine List.ext_getElem? fun i => ?_
  unfold partitionEvents
  rw [List.getElem?_map, List.getElem?_mapIdx, List.getElem?_map, Option.map_map]
  rfl

/-- Partition events tell of partitions of the subnet. -/
theorem of_mem_partitionEvents {subnet : String} {groups : List (String × List String)} {e : Event}
    (h : e ∈ partitionEvents subnet groups) : e.kind = .partition ∧ e.subnet = subnet := by
  obtain ⟨i, hi, rfl⟩ := List.mem_mapIdx.mp h
  exact ⟨rfl, rfl⟩

/-- Under the hosts of all partitions there is one leaf for each walk. -/
theorem perm_leaves {walks : List Event} {subnet : String} {groups : List (String × List String)}
    (distinct : (groups.map Prod.fst).Nodup)
    (sources : ∀ e ∈ walks, Hostname.stem e.source ∈ groups.map Prod.fst) :
    ((((partitionEvents subnet groups).map (partitionOutline walks)).flatMap
      (·.beneath)).flatMap (·.beneath)).Perm (walks.map walkOutline) := by
  have hhosts : ∀ e : Event, ((partitionOutline walks e).beneath.flatMap (·.beneath)).Perm
      ((walks.filter fun e' => Hostname.stem e'.source = e.partition).map walkOutline) := by
    intro e
    have hleaves := (perm_walks walks e.partition).map walkOutline
    rw [List.map_flatMap] at hleaves
    change (((hostsIn walks e.partition).map (hostOutline walks)).flatMap _).Perm _
    rw [List.flatMap_map]
    exact hleaves
  have hwalks := perm_flatMap_filter (fun e : Event => Hostname.stem e.source) distinct sources
  rw [← partition_partitionEvents subnet groups, List.flatMap_map] at hwalks
  rw [List.flatMap_assoc, List.flatMap_map]
  refine (List.Perm.flatMap_left _ fun e _ => hhosts e).trans ?_
  rw [← List.map_flatMap]
  exact hwalks.map walkOutline

/-- What a walk of a subnet mentions. -/
def walkMentions (a : String) (e : Event) : List Entry :=
  [.spot (.partition a (Hostname.stem e.source)), .spot (.host a e.source),
    .walk a e.source (.ofWalk e)]

/-- What is looked for among the mentions of walks, if each has one at most of what is looked
for. -/
theorem filter_walkMentions {q : Entry → Bool} {c : Event → Bool} {g : Event → Entry}
    (h : ∀ e, (walkMentions a e).filter q = if c e then [g e] else []) (walks : List Event) :
    (walks.flatMap (walkMentions a)).filter q = (walks.filter c).map g := by
  induction walks with
  | nil => rfl
  | cons e rest ih =>
    rw [List.flatMap_cons, List.filter_append, ih, h]
    cases hc : c e with
    | true => rw [List.filter_cons_of_pos hc]; rfl
    | false => rw [List.filter_cons_of_neg (Bool.eq_false_iff.mp hc)]; rfl

/-- The names of partitions in the order in which a story mentions them first. -/
def partitionNames (story : Story) : List String :=
  (story.walks.map (fun e => Hostname.stem e.source) ++ story.groups.map Prod.fst).eraseDups

/-- What is right under a spot. -/
abbrev under (above : Option Spot) (xs : List Entry) : List Entry :=
  xs.filter fun x => x.above = above

namespace Regular

/-- What a story mentions: the subnet, what the walks mention, and the partitions. -/
theorem mentions_eq (h : Regular story) : story.events.flatMap mentions =
    .spot (.subnet story.subnet) :: (story.walks.flatMap (walkMentions story.subnet) ++
      (story.groups.map Prod.fst).map fun name => .spot (.partition story.subnet name)) := by
  have hwalks : story.walks.flatMap mentions =
      story.walks.flatMap (walkMentions story.subnet) := by
    refine List.flatMap_congr fun e he => ?_
    unfold mentions walkMentions
    rw [h.kind_eq e he, h.subnet_eq e he]
  have hgroups : (partitionEvents story.subnet story.groups).flatMap mentions =
      (story.groups.map Prod.fst).map fun name => .spot (.partition story.subnet name) := by
    rw [← partition_partitionEvents story.subnet, List.map_map, List.map_eq_flatMap]
    refine List.flatMap_congr fun e he => ?_
    obtain ⟨hkind, hsubnet⟩ := of_mem_partitionEvents he
    unfold mentions
    rw [hkind, hsubnet]
    rfl
  unfold Story.events
  rw [List.flatMap_append, List.flatMap_append, List.flatMap_cons, hwalks, hgroups]
  exact List.append_nil _

/-- What is looked for among the mentions of a story, if each walk mentions one at most of what is
looked for. -/
theorem filter_mentions (h : Regular story) {q : Entry → Bool} {c : Event → Bool}
    {g : Event → Entry}
    (hq : ∀ e, (walkMentions story.subnet e).filter q = if c e then [g e] else []) :
    (story.events.flatMap mentions).filter q =
      [.spot (.subnet story.subnet)].filter q ++ ((story.walks.filter c).map g ++
        ((story.groups.map Prod.fst).map fun name =>
          .spot (.partition story.subnet name)).filter q) := by
  rw [h.mentions_eq, ← List.singleton_append, List.filter_append, List.filter_append,
    filter_walkMentions hq]

/-- At the top a story mentions its subnet. -/
theorem under_top (h : Regular story) :
    under none (story.events.flatMap mentions) = [.spot (.subnet story.subnet)] := by
  have hmentions := h.filter_mentions (q := fun x => x.above = none) (c := fun _ => false)
    (g := fun _ => .spot (.subnet story.subnet)) (fun _ => rfl)
  rw [under, hmentions, List.filter_map]
  simp [Entry.above, Spot.above, Function.comp_def]

/-- Under its subnet a story mentions the partitions, those of walks first. -/
theorem under_subnet (h : Regular story) :
    under (some (.subnet story.subnet)) (story.events.flatMap mentions) =
      (story.walks.map (fun e => Hostname.stem e.source) ++ story.groups.map Prod.fst).map
        fun name => .spot (.partition story.subnet name) := by
  have hmentions := h.filter_mentions (q := fun x => x.above = some (.subnet story.subnet))
    (c := fun _ => true)
    (g := fun e => .spot (.partition story.subnet (Hostname.stem e.source)))
    (fun _ => by simp [walkMentions, Entry.above, Spot.above])
  rw [under, hmentions, List.filter_map]
  simp [Entry.above, Spot.above, Function.comp_def]

/-- The names that a story mentions are those of its partitions, since no walk starts elsewhere. -/
theorem perm_partitionNames (h : Regular story) :
    (partitionNames story).Perm (story.groups.map Prod.fst) := by
  unfold partitionNames
  rw [List.perm_ext_iff_of_nodup (nodup_eraseDups _) h.distinct]
  intro name
  rw [List.mem_eraseDups, List.mem_append, or_iff_right_iff_imp]
  intro hmem
  obtain ⟨e, he, rfl⟩ := List.mem_map.mp hmem
  exact h.sources e he

/-- Under a partition a story mentions the hosts with its stem from which walks start. -/
theorem under_partition (h : Regular story) (name : String) :
    under (some (.partition story.subnet name)) (story.events.flatMap mentions) =
      ((story.walks.filter fun e => Hostname.stem e.source = name).map (·.source)).map
        fun host => .spot (.host story.subnet host) := by
  have hmentions := h.filter_mentions
    (q := fun x => x.above = some (.partition story.subnet name))
    (c := fun e => Hostname.stem e.source = name)
    (g := fun e => .spot (.host story.subnet e.source))
    (fun e => by
      by_cases he : Hostname.stem e.source = name <;>
        simp [walkMentions, Entry.above, Spot.above, he])
  rw [under, hmentions, List.filter_map]
  simp [Entry.above, Spot.above, Function.comp_def]

/-- Under a host a story mentions the walks from there. -/
theorem under_host (h : Regular story) (host : String) :
    under (some (.host story.subnet host)) (story.events.flatMap mentions) =
      (story.walks.filter fun e => e.source = host).map
        fun e => .walk story.subnet host (.ofWalk e) := by
  have hmentions := h.filter_mentions (q := fun x => x.above = some (.host story.subnet host))
    (c := fun e => e.source = host) (g := fun e => .walk story.subnet host (.ofWalk e))
    (fun e => by
      by_cases he : e.source = host <;> simp [walkMentions, Entry.above, Spot.above, he])
  rw [under, hmentions, List.filter_map]
  simp [Entry.above, Spot.above, Function.comp_def]

end Regular

/-! ## What several stories mention -/

/-- The subnet to which a spot belongs. -/
def Spot.owner : Spot → String
  | .subnet a => a
  | .partition a _ => a
  | .host a _ => a

/-- The subnet to which something belongs. -/
def Entry.owner : Entry → String
  | .spot p => p.owner
  | .walk a _ _ => a

/-- What stands under a spot belongs to the same subnet. -/
theorem Entry.owner_above {x : Entry} {p : Spot} (h : x.above = some p) : p.owner = x.owner := by
  cases x with
  | walk a host label => cases h; rfl
  | spot q =>
    cases q with
    | subnet a => cases h
    | partition a name => cases h; rfl
    | host a host => cases h; rfl

/-- What a story mentions belongs to its subnet. -/
theorem Regular.owner_of_mem (h : Regular story) {x : Entry}
    (hx : x ∈ story.events.flatMap mentions) : x.owner = story.subnet := by
  rw [h.mentions_eq] at hx
  rcases List.mem_cons.mp hx with rfl | hx
  · rfl
  rcases List.mem_append.mp hx with hx | hx
  · obtain ⟨e, -, hx⟩ := List.mem_flatMap.mp hx
    simp only [walkMentions, List.mem_cons, List.not_mem_nil, or_false] at hx
    rcases hx with rfl | rfl | rfl <;> rfl
  · obtain ⟨name, -, rfl⟩ := List.mem_map.mp hx
    rfl

/-- Stories as a run tells them of distinct subnets. -/
structure AllRegular (stories : List Story) : Prop where
  /-- Each of them is one. -/
  regular : ∀ story ∈ stories, Regular story
  /-- No two of them are on the same subnet. -/
  distinct : (stories.map (·.subnet)).Nodup

/-- What was added when stories were told. -/
def sketch (stories : List Story) : List Entry :=
  (stories.flatMap fun story => story.events.flatMap mentions).foldl grow []

namespace AllRegular

variable {labels : Spot → Label} {depth : Nat}

/-- At the top are the subnets. -/
theorem under_top (h : AllRegular stories) :
    under none (sketch stories) = (stories.map fun story => .subnet story.subnet).map .spot := by
  have hinj : Function.Injective Spot.subnet := fun _ _ heq => Spot.subnet.inj heq
  have hdistinct : (stories.map fun story => Spot.subnet story.subnet).Nodup := by
    have hmap := h.distinct.map hinj
    rwa [List.map_map] at hmap
  have hmentions : under none (stories.flatMap fun story => story.events.flatMap mentions) =
      (stories.map fun story => Spot.subnet story.subnet).map .spot := by
    unfold under
    rw [List.filter_flatMap, List.map_map, List.map_eq_flatMap]
    exact List.flatMap_congr fun story hstory => (h.regular story hstory).under_top
  unfold under at hmentions ⊢
  rw [sketch, filter_foldl_grow, hmentions, List.filter_nil, foldl_grow_spots,
    eraseDups_of_nodup hdistinct]

/-- Under a spot is what the story of its subnet mentions there. -/
theorem under_some (h : AllRegular stories) (hstory : story ∈ stories) {p : Spot}
    (hp : p.owner = story.subnet) : under (some p) (sketch stories) =
      (under (some p) (story.events.flatMap mentions)).foldl grow [] := by
  unfold under
  rw [sketch, filter_foldl_grow, List.filter_nil]
  congr 1
  refine filter_flatMap_of_nodup h.distinct hstory fun other hother hne => ?_
  rw [List.filter_eq_nil_iff]
  intro x hx habove
  refine hne ?_
  rw [← (h.regular other hother).owner_of_mem hx, ← hp]
  exact (Entry.owner_above (of_decide_eq_true habove)).symm

/-- Spots that the story mentions by their names are there once each. -/
theorem under_spots (h : AllRegular stories) (hstory : story ∈ stories) {p : Spot}
    (hp : p.owner = story.subnet) {spot : String → Spot} (hinj : Function.Injective spot)
    {names : List String} (hnames : under (some p) (story.events.flatMap mentions) =
      names.map fun name => .spot (spot name)) :
    under (some p) (sketch stories) = (names.eraseDups.map spot).map .spot := by
  have hgrown := foldl_grow_spots (names.map spot)
  rw [eraseDups_map hinj, List.map_map] at hgrown
  rw [h.under_some hstory hp, hnames]
  exact hgrown

end AllRegular

/-- Spots are shown with what is under them. -/
theorem outlinesTo_spots {above : Option Spot} {ps : List Spot}
    (h : under above xs = ps.map .spot) (labels : Spot → Label) (depth : Nat) :
    outlinesTo xs labels (depth + 1) above =
      ps.map fun p => .mk (labels p) (some p.isOpen) (outlinesTo xs labels depth (some p)) := by
  unfold under at h
  rw [outlinesTo, h, List.map_map]
  rfl

/-- Walks are shown as leaves. -/
theorem outlinesTo_walks {above : Option Spot} {walks : List Event}
    (h : under above xs = walks.map fun e => .walk a host (.ofWalk e)) (labels : Spot → Label)
    (depth : Nat) : outlinesTo xs labels (depth + 1) above = walks.map walkOutline := by
  unfold under at h
  rw [outlinesTo, h, List.map_map]
  rfl

/-- In the end the spots of a story show its figures, its partitions and its hosts. -/
structure Labelled (labels : Spot → Label) (story : Story) : Prop where
  /-- The subnet shows its figures. -/
  subnet : Label.subnetDone (.subnetDone story.report) = .ok (labels (.subnet story.subnet))
  /-- The partitions show their numbers and members. -/
  partition : ∀ e ∈ partitionEvents story.subnet story.groups,
    labels (.partition story.subnet e.partition) =
      .numbered e.partitionIndex.value e.partition e.members.length
  /-- The hosts show their names. -/
  host : ∀ host, labels (.host story.subnet host) = .host host

namespace AllRegular

variable {labels : Spot → Label}

/-- Under a partition its hosts are shown. -/
theorem outlines_partition (h : AllRegular stories) (hstory : story ∈ stories)
    (hlabels : Labelled labels story) (name : String) (depth : Nat) :
    outlinesTo (sketch stories) labels (depth + 2) (some (.partition story.subnet name)) =
      (hostsIn story.walks name).map (hostOutline story.walks) := by
  have hregular := h.regular story hstory
  have hhosts : under (some (.partition story.subnet name)) (sketch stories) =
      ((hostsIn story.walks name).map fun host => Spot.host story.subnet host).map .spot := by
    have hinj : Function.Injective (Spot.host story.subnet) := fun _ _ heq => (Spot.host.inj heq).2
    exact h.under_spots hstory rfl hinj (hregular.under_partition name)
  rw [outlinesTo_spots hhosts, List.map_map]
  refine List.map_congr_left fun host _ => ?_
  have hwalks : under (some (.host story.subnet host)) (sketch stories) =
      (story.walks.filter fun e => e.source = host).map
        fun e => .walk story.subnet host (.ofWalk e) := by
    rw [h.under_some hstory rfl, hregular.under_host]
    exact foldl_grow_walks _ (fun _ _ => Entry.walk_ne_spot) _ []
  rw [Function.comp_apply, outlinesTo_walks hwalks, hlabels.host]
  rfl

/-- Under a subnet its partitions are shown, in some order. -/
theorem outlines_subnet (h : AllRegular stories) (hstory : story ∈ stories)
    (hlabels : Labelled labels story) (depth : Nat) :
    (outlinesTo (sketch stories) labels (depth + 3) (some (.subnet story.subnet))).Perm
      ((partitionEvents story.subnet story.groups).map (partitionOutline story.walks)) := by
  have hregular := h.regular story hstory
  have hnames : (partitionNames story).Perm
      ((partitionEvents story.subnet story.groups).map (·.partition)) := by
    rw [partition_partitionEvents]
    exact hregular.perm_partitionNames
  have hpartitions : under (some (.subnet story.subnet)) (sketch stories) =
      ((partitionNames story).map (Spot.partition story.subnet)).map .spot := by
    have hinj : Function.Injective (Spot.partition story.subnet) :=
      fun _ _ heq => (Spot.partition.inj heq).2
    exact h.under_spots hstory rfl hinj hregular.under_subnet
  rw [outlinesTo_spots hpartitions, List.map_map]
  refine (hnames.map _).trans (.of_eq ?_)
  rw [List.map_map]
  refine List.map_congr_left fun e he => ?_
  simp only [Function.comp_apply]
  rw [h.outlines_partition hstory hlabels, hlabels.partition e he]
  rfl

/-- A story is shown. -/
theorem shownAs (h : AllRegular stories) (hstory : story ∈ stories)
    (hlabels : Labelled labels story) (depth : Nat) :
    ShownAs story (.mk (labels (.subnet story.subnet)) (some true)
      (outlinesTo (sketch stories) labels (depth + 3) (some (.subnet story.subnet)))) := by
  have hregular := h.regular story hstory
  have hpartitions := h.outlines_subnet hstory hlabels depth
  refine ⟨hlabels.subnet, rfl, hpartitions, hregular.distinct, hregular.sources, ?_⟩
  refine ((hpartitions.flatMap_right _).flatMap_right _).trans ?_
  exact perm_leaves hregular.distinct hregular.sources

/-- All stories are shown, in their order. -/
theorem allShown (h : AllRegular stories)
    (hlabels : ∀ story ∈ stories, Labelled labels story) (depth : Nat) :
    List.Forall₂ ShownAs stories (outlinesTo (sketch stories) labels (depth + 4) none) := by
  rw [outlinesTo_spots h.under_top, List.map_map, List.forall₂_map_right_iff, List.forall₂_same]
  exact fun story hstory => h.shownAs hstory (hlabels story hstory) depth

end AllRegular

end Viewer

end FabricPaths
