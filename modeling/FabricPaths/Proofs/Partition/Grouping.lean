import Mathlib.Data.List.Induction
import FabricPaths.Proofs.Action
import FabricPaths.Proofs.Partition.Detect
import FabricPaths.Proofs.Partition.Members

/-!
# How hosts are grouped

The partitions that are found can be read off the hosts without going through them one by one:
there is one for each stem of a host name, in the order in which the stems appear first, and its
members are the hosts with this stem in their order. The number of a partition is the place of its
stem.
-/

namespace FabricPaths

variable {β : Type}

namespace Grouping

/-! ## Adding a host -/

section Adding

variable {name : String} {id : NodeId} {groups : Grouping}

/-- The number of a name is its place, where a new name comes last. -/
theorem number_add : (groups.add name id).2 = (groups.map (·.name)).idxOf name := by
  induction groups with
  | nil => rfl
  | cons p rest ih =>
    unfold add
    rw [List.map_cons, List.idxOf_cons]
    by_cases h : p.name = name
    · rw [if_pos h, h, BEq.rfl, cond_true]
    · rw [if_neg h, beq_eq_false_iff_ne.mpr h, cond_false, ← ih]

/-- A new name opens a partition behind the others. -/
theorem add_of_notMem (h : name ∉ groups.map (·.name)) :
    (groups.add name id).1 = groups ++ [⟨name, [id]⟩] := by
  induction groups with
  | nil => rfl
  | cons p rest ih =>
    obtain ⟨hp, hrest⟩ := not_or.mp (mt List.mem_cons.mpr h)
    unfold add
    rw [if_neg (Ne.symm hp)]
    dsimp only
    rw [ih hrest, List.cons_append]

/-- A host whose name is not new comes last in the partition of the name. -/
theorem add_of_mem (h : name ∈ groups.map (·.name)) (hnodup : (groups.map (·.name)).Nodup) :
    (groups.add name id).1 =
      groups.map fun p => if p.name = name then { p with members := p.members ++ [id] } else p := by
  induction groups with
  | nil => cases h
  | cons p rest ih =>
    obtain ⟨hp, hrest⟩ := List.nodup_cons.mp hnodup
    unfold add
    rw [List.map_cons]
    by_cases hname : p.name = name
    · subst hname
      have hothers : ∀ q ∈ rest, q.name ≠ p.name := by
        intro q hq heq
        exact hp (List.mem_map.mpr ⟨q, hq, heq⟩)
      have hsame : rest.map (fun q => if q.name = p.name then
          { q with members := q.members ++ [id] } else q) = rest :=
        (List.map_congr_left fun q hq => if_neg (hothers q hq)).trans (List.map_id' rest)
      rw [if_pos rfl, if_pos rfl, hsame]
    · have hlater := (List.mem_cons.mp h).resolve_left (Ne.symm hname)
      rw [if_neg hname, if_neg hname]
      dsimp only
      rw [ih hlater hrest]

end Adding

/-! ## The partitions of some hosts -/

/-- The stems of the names of some hosts, in the order of their first appearance. -/
def names (hosts : List (Node β)) : List String := (hosts.map Node.partitionName).eraseDups

/-- The hosts with a stem. -/
def withName (hosts : List (Node β)) (name : String) : List (Node β) :=
  hosts.filter fun n => n.partitionName = name

/-- One partition for each stem, with the hosts that have it. -/
def ofHosts (hosts : List (Node β)) : Grouping :=
  (names hosts).map fun name => ⟨name, (withName hosts name).map (·.id)⟩

variable {hosts : List (Node β)} {n : Node β} {name : String}

/-- The names of the partitions are the stems. -/
theorem map_name_ofHosts (hosts : List (Node β)) : (ofHosts hosts).map (·.name) = names hosts := by
  rw [ofHosts, List.map_map]
  exact List.map_id _

/-- A stem is that of one of the hosts. -/
theorem mem_names_iff : name ∈ names hosts ↔ ∃ n ∈ hosts, n.partitionName = name := by
  rw [names, List.mem_eraseDups, List.mem_map]

/-- A further host adds its stem at the end if no other host has it. -/
theorem names_concat (hosts : List (Node β)) (n : Node β) : names (hosts ++ [n]) =
    if n.partitionName ∈ names hosts then names hosts else names hosts ++ [n.partitionName] := by
  unfold names
  rw [List.map_append, List.map_cons, List.map_nil, eraseDups_concat]
  simp only [List.mem_eraseDups]

/-- No stem appears twice. -/
theorem nodup_names (hosts : List (Node β)) : (names hosts).Nodup := nodup_eraseDups _

/-- A stem keeps its place when further hosts come. -/
theorem idxOf_names_append (hosts more : List (Node β)) (h : name ∈ names hosts) :
    (names (hosts ++ more)).idxOf name = (names hosts).idxOf name := by
  unfold names at h ⊢
  rw [List.map_append, List.eraseDups_append, List.idxOf_append_of_mem h]

/-- Among the hosts with a stem, a further host comes last if it has it. -/
theorem withName_concat (hosts : List (Node β)) (n : Node β) (name : String) :
    withName (hosts ++ [n]) name =
      if n.partitionName = name then withName hosts name ++ [n] else withName hosts name := by
  unfold withName
  rw [List.filter_append]
  by_cases h : n.partitionName = name
  · rw [if_pos h, List.filter_singleton, decide_eq_true h, cond_true]
  · rw [if_neg h, List.filter_singleton, decide_eq_false h, cond_false, List.append_nil]

/-- A host has no stem that is not among those of the hosts. -/
theorem withName_eq_nil (h : name ∉ names hosts) : withName hosts name = [] := by
  rw [withName, List.filter_eq_nil_iff]
  intro n hn heq
  exact h (mem_names_iff.mpr ⟨n, hn, of_decide_eq_true heq⟩)

/-- Adding a host to the partitions of others gives the partitions of all. -/
theorem add_ofHosts (hosts : List (Node β)) (n : Node β) :
    ((ofHosts hosts).add n.partitionName n.id).1 = ofHosts (hosts ++ [n]) := by
  have hnames := map_name_ofHosts hosts
  by_cases h : n.partitionName ∈ names hosts
  · rw [add_of_mem (by rwa [hnames]) (by rw [hnames]; exact nodup_names hosts), ofHosts, ofHosts,
      names_concat, if_pos h, List.map_map]
    refine List.map_congr_left fun name _ => ?_
    rw [withName_concat, Function.comp_apply]
    dsimp only
    by_cases hname : n.partitionName = name
    · rw [if_pos hname, if_pos hname.symm, List.map_append, List.map_singleton]
    · rw [if_neg hname, if_neg (Ne.symm hname)]
  · rw [add_of_notMem (by rwa [hnames]), ofHosts, ofHosts, names_concat, if_neg h, List.map_append,
      List.map_singleton, withName_concat, if_pos rfl, withName_eq_nil h]
    congr 1
    refine List.map_congr_left fun name hname => ?_
    have hother : n.partitionName ≠ name := fun heq => h (heq.symm ▸ hname)
    rw [withName_concat, if_neg hother]

/-- The number that a host is given is the place of its stem among those of all hosts. -/
theorem number_ofHosts (hosts more : List (Node β)) (n : Node β) :
    ((ofHosts hosts).add n.partitionName n.id).2 =
      (names (hosts ++ [n] ++ more)).idxOf n.partitionName := by
  have hmem : n.partitionName ∈ names (hosts ++ [n]) :=
    mem_names_iff.mpr ⟨n, List.mem_append_right hosts List.mem_cons_self, rfl⟩
  rw [number_add, map_name_ofHosts, idxOf_names_append _ more hmem, names_concat]
  by_cases h : n.partitionName ∈ names hosts
  · rw [if_pos h]
  · rw [if_neg h, List.idxOf_append_of_notMem h, List.idxOf_cons_self, List.idxOf_eq_length h]
    rfl

/-- The first hosts of the partitions are in the order of the hosts. -/
theorem sublist_first (hosts : List (Node β)) :
    ((names hosts).filterMap fun name => (withName hosts name).head?).Sublist hosts := by
  induction hosts using List.reverseRecOn with
  | nil => exact .refl _
  | append_singleton hosts n ih =>
    have hkeep : ∀ name ∈ names hosts,
        (withName (hosts ++ [n]) name).head? = (withName hosts name).head? := by
      intro name hname
      obtain ⟨m, hm, heq⟩ := mem_names_iff.mp hname
      have hin : m ∈ withName hosts name := List.mem_filter.mpr ⟨hm, decide_eq_true heq⟩
      rw [withName_concat]
      by_cases h : n.partitionName = name
      · rw [if_pos h, List.head?_append_of_ne_nil _ (List.ne_nil_of_mem hin)]
      · rw [if_neg h]
    have hfirst := List.filterMap_congr hkeep
    rw [names_concat]
    by_cases h : n.partitionName ∈ names hosts
    · rw [if_pos h, hfirst]
      exact ih.trans (List.sublist_append_left hosts [n])
    · rw [if_neg h, List.filterMap_append, hfirst]
      have hnew : (withName (hosts ++ [n]) n.partitionName).head? = some n := by
        rw [withName_concat, if_pos rfl, withName_eq_nil h]
        rfl
      rw [List.filterMap_cons, hnew]
      exact ih.append (.refl [n])

end Grouping

/-- The node with the place of its stem as the number of its partition, if it is a host. -/
def Node.numbered (names : List String) (n : Node β) : Node β :=
  if n.isHost then n.inPartition (names.idxOf n.partitionName) else n

namespace Fabric

open Grouping

/-- Grouping nodes behind some hosts gives the partitions of all hosts, and numbers the nodes. -/
theorem groupNodes_ofHosts (hosts : List (Node β)) (es : List (NodeId × Node β)) :
    groupNodes (ofHosts hosts) es =
      (ofHosts (hosts ++ (es.map Prod.snd).filter (·.isHost)),
        es.map fun e =>
          (e.1, e.2.numbered (names (hosts ++ (es.map Prod.snd).filter (·.isHost))))) := by
  induction es generalizing hosts with
  | nil => rw [List.map_nil, List.filter_nil, List.append_nil]; rfl
  | cons e es ih =>
    obtain ⟨key, n⟩ := e
    unfold groupNodes
    cases hhost : n.isHost with
    | true =>
      have hall : hosts ++ (((key, n) :: es).map Prod.snd).filter (·.isHost) =
          hosts ++ [n] ++ (es.map Prod.snd).filter (·.isHost) := by
        rw [List.map_cons, List.filter_cons_of_pos hhost, List.append_assoc, List.singleton_append]
      have hadd : (ofHosts hosts).add n.partitionName n.id = (ofHosts (hosts ++ [n]),
          (names (hosts ++ [n] ++ (es.map Prod.snd).filter (·.isHost))).idxOf n.partitionName) :=
        Prod.ext (add_ofHosts hosts n) (number_ofHosts hosts _ n)
      rw [hall, List.map_cons, if_pos rfl, hadd]
      dsimp only
      rw [ih (hosts ++ [n]), Node.numbered, hhost, if_pos rfl]
      rfl
    | false =>
      have hnone : (((key, n) :: es).map Prod.snd).filter (·.isHost) =
          (es.map Prod.snd).filter (·.isHost) := by
        rw [List.map_cons, List.filter_cons_of_neg (Bool.not_eq_true _ ▸ hhost)]
      rw [hnone, List.map_cons, if_neg Bool.false_ne_true, ih hosts]
      rw [Node.numbered, hhost, if_neg Bool.false_ne_true]

/-- Grouping gives the partitions of the hosts, and numbers the nodes. -/
theorem grouped_eq (f : Fabric β) : f.grouped =
    ({ f with nodes := f.nodes.mapValues fun _ n => n.numbered (names f.hosts) },
      ofHosts f.hosts) := by
  have hgroup : groupNodes [] f.nodes.entries =
      (ofHosts f.hosts, f.nodes.entries.map fun e => (e.1, e.2.numbered (names f.hosts))) :=
    groupNodes_ofHosts [] f.nodes.entries
  refine Prod.ext ?_ (congrArg Prod.fst hgroup)
  unfold grouped
  dsimp only
  congr 1
  exact OrderedMap.ext (congrArg Prod.snd hgroup)

end Fabric

/-! ## What a grouping is -/

/-- The partitions group the hosts among the nodes, exactly and in order. -/
structure IsGrouping (nodes : List (Node β)) (partitions : List Partition) : Prop where
  /-- No two partitions have the same name. -/
  names_nodup : (partitions.map (·.name)).Nodup
  /-- Each host occurs once in all, and no switch. -/
  count_eq : ∀ n ∈ nodes,
    (partitions.flatMap (·.members)).count n.id = if n.isHost then 1 else 0
  /-- Nothing else occurs. -/
  mem_nodes : ∀ id ∈ partitions.flatMap (·.members), ∃ n ∈ nodes, n.id = id
  /-- Two hosts are in the same partition exactly if their names have the same stem. -/
  same_iff : ∀ n ∈ nodes, ∀ n' ∈ nodes, n.isHost = true → n'.isHost = true →
    ((∃ p ∈ partitions, n.id ∈ p.members ∧ n'.id ∈ p.members) ↔
      Hostname.stem n.hostname = Hostname.stem n'.hostname)
  /-- The stem is the name of the partition. -/
  name_eq : ∀ p ∈ partitions, ∀ n ∈ nodes, n.id ∈ p.members → Hostname.stem n.hostname = p.name
  /-- The partitions are in the order of their first hosts among the nodes. -/
  first_ordered : (partitions.filterMap (·.members.head?)).Sublist (nodes.map (·.id))
  /-- The members of a partition are in the order of the nodes. -/
  members_ordered : ∀ p ∈ partitions, p.members.Sublist (nodes.map (·.id))
  /-- No partition is empty. -/
  nonempty : ∀ p ∈ partitions, p.members ≠ []

namespace Grouping

variable {nodes hosts : List (Node β)}

/-- The members of the partitions are the hosts. -/
theorem perm_members_ofHosts (hosts : List (Node β)) :
    ((ofHosts hosts).flatMap (·.members)).Perm (hosts.map (·.id)) := by
  induction hosts using List.reverseRecOn with
  | nil => exact .refl _
  | append_singleton hosts n ih =>
    rw [← add_ofHosts, List.map_append]
    exact (members_add n.partitionName n.id (ofHosts hosts)).trans (ih.append_right [n.id])

/-- A partition is that of a stem of one of the hosts. -/
theorem mem_ofHosts_iff {p : Partition} : p ∈ ofHosts hosts ↔
    ∃ name ∈ names hosts, ⟨name, (withName hosts name).map (·.id)⟩ = p :=
  List.mem_map

/-- The partition of a stem is at the place of the stem. -/
theorem getElem?_ofHosts {n : Node β} (hn : n ∈ hosts) :
    (ofHosts hosts)[(names hosts).idxOf n.partitionName]? =
      some ⟨n.partitionName, (withName hosts n.partitionName).map (·.id)⟩ := by
  have hname : n.partitionName ∈ names hosts := mem_names_iff.mpr ⟨n, hn, rfl⟩
  rw [ofHosts, List.getElem?_map, List.getElem?_idxOf hname]
  rfl

/-- A host is listed by the partition whose number is the place of its stem. -/
theorem lists_ofHosts {n : Node β} (hn : n ∈ hosts) :
    (ofHosts hosts).Lists ((names hosts).idxOf n.partitionName) n.id := by
  have hmem : n ∈ withName hosts n.partitionName :=
    List.mem_filter.mpr ⟨hn, decide_eq_true rfl⟩
  exact ⟨_, getElem?_ofHosts hn, List.mem_map_of_mem hmem⟩

/-- A node is a member of the partition of a stem exactly if it is a host with the stem. -/
theorem mem_members_iff (hids : (nodes.map (·.id)).Nodup) {n : Node β} (hn : n ∈ nodes)
    {name : String} : n.id ∈ (withName (nodes.filter (·.isHost)) name).map (·.id) ↔
      n.isHost = true ∧ n.partitionName = name := by
  simp only [List.mem_map, withName, List.mem_filter, decide_eq_true_eq]
  constructor
  · rintro ⟨m, ⟨⟨hm, hhost⟩, hname⟩, hid⟩
    obtain rfl := List.inj_on_of_nodup_map hids hm hn hid
    exact ⟨hhost, hname⟩
  · rintro ⟨hhost, hname⟩
    exact ⟨n, ⟨⟨hn, hhost⟩, hname⟩, rfl⟩

/-- The partitions of the hosts among nodes with distinct identifiers are a grouping. -/
theorem isGrouping_ofHosts (hids : (nodes.map (·.id)).Nodup) :
    IsGrouping nodes (ofHosts (nodes.filter (·.isHost))) := by
  have hsublist : ((nodes.filter (·.isHost)).map (·.id)).Sublist (nodes.map (·.id)) :=
    List.filter_sublist.map _
  have hperm := perm_members_ofHosts (nodes.filter (·.isHost))
  constructor
  case names_nodup =>
    rw [map_name_ofHosts]
    exact nodup_names _
  case count_eq =>
    intro n hn
    rw [hperm.count_eq]
    cases hhost : n.isHost with
    | true =>
      have hmem := List.mem_map_of_mem (f := (·.id)) (List.mem_filter.mpr ⟨hn, hhost⟩)
      exact List.count_eq_one_of_mem (hsublist.nodup hids) hmem
    | false =>
      refine List.count_eq_zero.mpr fun hmem => ?_
      obtain ⟨m, hm, hid⟩ := List.mem_map.mp hmem
      obtain ⟨hm, hmhost⟩ := List.mem_filter.mp hm
      obtain rfl := List.inj_on_of_nodup_map hids hm hn hid
      exact absurd (hhost.symm.trans hmhost) Bool.false_ne_true
  case mem_nodes =>
    intro id hid
    exact List.mem_map.mp (hsublist.subset (hperm.mem_iff.mp hid))
  case same_iff =>
    intro n hn n' hn' hhost hhost'
    constructor
    · rintro ⟨p, hp, hmem, hmem'⟩
      obtain ⟨name, -, rfl⟩ := mem_ofHosts_iff.mp hp
      exact ((mem_members_iff hids hn).mp hmem).2.trans ((mem_members_iff hids hn').mp hmem').2.symm
    · intro hstem
      have hname : n.partitionName ∈ names (nodes.filter (·.isHost)) :=
        mem_names_iff.mpr ⟨n, List.mem_filter.mpr ⟨hn, hhost⟩, rfl⟩
      exact ⟨_, mem_ofHosts_iff.mpr ⟨_, hname, rfl⟩, (mem_members_iff hids hn).mpr ⟨hhost, rfl⟩,
        (mem_members_iff hids hn').mpr ⟨hhost', hstem.symm⟩⟩
  case name_eq =>
    intro p hp n hn hmem
    obtain ⟨name, -, rfl⟩ := mem_ofHosts_iff.mp hp
    exact ((mem_members_iff hids hn).mp hmem).2
  case first_ordered =>
    have hfirst : (ofHosts (nodes.filter (·.isHost))).filterMap (·.members.head?) =
        ((names (nodes.filter (·.isHost))).filterMap fun name =>
          (withName (nodes.filter (·.isHost)) name).head?).map (·.id) := by
      rw [ofHosts, List.filterMap_map, List.map_filterMap]
      exact List.filterMap_congr fun name _ => List.head?_map
    rw [hfirst]
    exact ((sublist_first _).map _).trans hsublist
  case members_ordered =>
    intro p hp
    obtain ⟨name, -, rfl⟩ := mem_ofHosts_iff.mp hp
    exact (List.filter_sublist.map _).trans hsublist
  case nonempty =>
    intro p hp
    obtain ⟨name, hname, rfl⟩ := mem_ofHosts_iff.mp hp
    obtain ⟨n, hn, heq⟩ := mem_names_iff.mp hname
    have hmem : n ∈ withName (nodes.filter (·.isHost)) name :=
      List.mem_filter.mpr ⟨hn, decide_eq_true heq⟩
    exact List.ne_nil_of_mem (List.mem_map_of_mem hmem)

end Grouping

/-- Finding the partitions of a fabric whose nodes have distinct identifiers succeeds. What is
found groups the hosts exactly and in order. Each host gets the number of the partition that lists
it; switches stay as they are, and so does all else. -/
theorem Fabric.findPartitions_isGrouping (f : Fabric β) (hids : (f.nodes.values.map (·.id)).Nodup) :
    ∃ (partitions : List Partition) (number : Node β → Nat),
      (findPartitions f).outcome = .ok partitions ∧
      (findPartitions f).state = { f with
        nodes := f.nodes.mapValues fun _ n => if n.isHost then n.inPartition (number n) else n } ∧
      IsGrouping f.nodes.values partitions ∧
      ∀ n ∈ f.hosts, Grouping.Lists partitions (number n) n.id := by
  have houtcome : (findPartitions f).outcome = .ok f.grouped.2 := rfl
  have hstate : (findPartitions f).state = f.grouped.1 := rfl
  rw [grouped_eq] at houtcome hstate
  refine ⟨Grouping.ofHosts f.hosts, fun n => (Grouping.names f.hosts).idxOf n.partitionName,
    houtcome, hstate, Grouping.isGrouping_ofHosts hids, fun n => Grouping.lists_ofHosts⟩

/-- A fabric of a switch and four hosts, one of which has a name without a stem. -/
def Fabric.fiveNodes : Fabric Unit where
  subnet := "fe80:0000:0000:0000"
  nodes := ⟨[
    (⟨"a"⟩, { id := ⟨"a"⟩, lid := 1, type := .host, description := "", hostname := "node-1" }),
    (⟨"b"⟩, { id := ⟨"b"⟩, lid := 2, type := .switch, description := "", hostname := "node-2" }),
    (⟨"c"⟩, { id := ⟨"c"⟩, lid := 3, type := .host, description := "", hostname := "gpu-a-7" }),
    (⟨"d"⟩, { id := ⟨"d"⟩, lid := 4, type := .host, description := "", hostname := "7" }),
    (⟨"e"⟩, { id := ⟨"e"⟩, lid := 5, type := .host, description := "", hostname := "node-3" })],
    by decide⟩

/-- Its partitions. -/
theorem Fabric.fiveNodes_grouped : (fiveNodes.nodes.values.map (·.id)).Nodup ∧
    IsGrouping fiveNodes.nodes.values
      [⟨"node", [⟨"a"⟩, ⟨"e"⟩]⟩, ⟨"gpu-a", [⟨"c"⟩]⟩, ⟨"", [⟨"d"⟩]⟩] := by
  have hids : (fiveNodes.nodes.values.map (·.id)).Nodup := by decide
  obtain ⟨partitions, -, houtcome, -, hgrouping, -⟩ := findPartitions_isGrouping fiveNodes hids
  have hfound : (findPartitions fiveNodes).outcome =
      .ok [⟨"node", [⟨"a"⟩, ⟨"e"⟩]⟩, ⟨"gpu-a", [⟨"c"⟩]⟩, ⟨"", [⟨"d"⟩]⟩] := by decide
  obtain rfl := Except.ok.inj (houtcome.symm.trans hfound)
  exact ⟨hids, hgrouping⟩

end FabricPaths
