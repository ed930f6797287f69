import FabricPaths.Proofs.Builder.Wiring
import FabricPaths.Proofs.Hostname
import FabricPaths.Proofs.Partition.Grouping

/-!
# What the hosts of a fabric are called

A builder names a node where the node is mentioned first, and no later record changes what a node
is called. Nodes are called by the host name in their description. A host whose description has
none is called by the number of such hosts before it. So the made-up names are in the order of the
nodes, and hosts with a made-up name form a partition of their own.
-/

namespace FabricPaths

variable {β : Type}

/-- What a node is called, and after what. -/
structure Naming where
  /-- What the node is. -/
  type : NodeType
  /-- The description under which the node was first seen. -/
  description : String
  /-- The host name. -/
  hostname : String

/-- Whether it is the naming of a host whose description has no host name. -/
def Naming.isNameless (a : Naming) : Bool := Builder.isNameless a.type a.description

/-- What the node is called. -/
def Node.naming (n : Node β) : Naming := ⟨n.type, n.description, n.hostname⟩

/-- Whether the description of a host has no host name. -/
def Node.isNameless (n : Node β) : Bool := n.naming.isNameless

/-- What the nodes are called, in their order. -/
def Fabric.namings (f : Fabric β) : OrderedMap NodeId Naming :=
  f.nodes.mapValues fun _ n => n.naming

/-- A node is nameless if it is a host with no host name in its description. -/
theorem Node.isNameless_iff {n : Node β} :
    n.isNameless = true ↔ n.isHost = true ∧ Hostname.ofDescription n.description = "" := by
  unfold Node.isNameless Naming.isNameless Builder.isNameless Node.isHost Node.naming
  rw [Bool.and_eq_true, String.isEmpty_iff]

/-- Namings in an order that fits a number of nameless hosts. -/
structure Numbered (count : ℕ) (as : List Naming) : Prop where
  /-- The nameless hosts have the made-up names in their order. -/
  nameless : (as.filter (·.isNameless)).map (·.hostname) =
    (List.range count).map Hostname.anonymous
  /-- All others are called by their description. -/
  named : ∀ a ∈ as, a.isNameless = false → a.hostname = Hostname.ofDescription a.description

namespace Numbered

/-- There is nothing to name without nodes. -/
theorem nil : Numbered 0 [] := ⟨rfl, fun _ h => nomatch h⟩

variable {count : ℕ} {as : List Naming} {a : Naming}

/-- A nameless host takes the next made-up name. -/
theorem concat_nameless (h : Numbered count as) (ha : a.isNameless = true)
    (hname : a.hostname = Hostname.anonymous count) : Numbered (count + 1) (as ++ [a]) where
  nameless := by
    rw [List.filter_append, List.filter_singleton, ha, cond_true, List.map_append, h.nameless,
      List.map_singleton, hname, List.range_succ, List.map_append, List.map_singleton]
  named := by
    intro a' ha' hnamed
    rcases List.mem_append.mp ha' with hold | hnew
    · exact h.named a' hold hnamed
    · rw [List.mem_singleton.mp hnew, ha] at hnamed
      cases hnamed

/-- Any other node takes none. -/
theorem concat_named (h : Numbered count as) (ha : a.isNameless = false)
    (hname : a.hostname = Hostname.ofDescription a.description) :
    Numbered count (as ++ [a]) where
  nameless := by
    rw [List.filter_append, List.filter_singleton, ha, cond_false, List.append_nil, h.nameless]
  named := by
    intro a' ha' hnamed
    rcases List.mem_append.mp ha' with hold | hnew
    · exact h.named a' hold hnamed
    · rw [List.mem_singleton.mp hnew]
      exact hname

end Numbered

namespace Builder

/-- The nodes are named, and the nameless hosts counted. -/
def Names (b : Builder β) : Prop := Numbered b.namelessHosts b.fabric.namings.values

namespace Names

variable {b : Builder β}

/-- A node that is mentioned is named if it is new. -/
theorem withNode (h : b.Names) (type : NodeType) (lid : Int) (guid description : String) :
    (b.withNode type lid guid description).Names := by
  unfold Builder.withNode
  cases hnew : b.fabric.nodes.get? (.ofGuid guid) with
  | some n => exact h
  | none =>
    have hvalues : ∀ n : Node β,
        ((b.fabric.nodes.insert (.ofGuid guid) n).mapValues fun _ n => n.naming).values =
          b.fabric.namings.values ++ [n.naming] := by
      intro n
      unfold Fabric.namings
      rw [OrderedMap.values_mapValues, OrderedMap.values_mapValues, OrderedMap.values,
        OrderedMap.entries_insert_of_new hnew, List.map_append, List.map_append]
      rfl
    unfold Names Fabric.namings
    dsimp only
    rw [hvalues]
    cases hnameless : isNameless type description with
    | true =>
      refine Numbered.concat_nameless h hnameless ?_
      simp only [newNode, Node.naming, hnameless, if_true]
    | false =>
      refine Numbered.concat_named h hnameless ?_
      simp only [newNode, Node.naming, hnameless, Bool.false_eq_true, if_false]

/-- The nodes of a record are named if they are new. -/
theorem withEnds (h : b.Names) (r : LinkRecord) : (b.withEnds r).Names :=
  (h.withNode _ _ _ _).withNode _ _ _ _

/-- Pairing the links names no node. -/
theorem finish (h : b.Names) : (Builder.finish b).state.Names := by
  obtain ⟨ls, k, hstate⟩ := finish_state_pairing b
  have hnodes : (b.fabric.pairing ls b.fabric).nodes = b.fabric.nodes :=
    b.fabric.pairing_frame (fun _ _ _ => rfl) ls b.fabric
  unfold Names Fabric.namings
  rw [hstate]
  dsimp only
  rw [hnodes]
  exact h

variable [Bandwidth β]

/-- Plugging a link names no node. -/
theorem plug (h : b.Names) {n : Node β} {l : Link β} (hn : b.fabric.nodes.get? l.parent = some n) :
    ({ b.numbered with fabric := b.fabric.plug n l } : Builder β).Names := by
  have hkept : (b.fabric.pluggedNode n l).naming = n.naming := by
    rw [b.fabric.rewired_pluggedNode n l]
    rfl
  have hfound : b.fabric.namings.get? l.parent = some n.naming := by
    rw [Fabric.namings, OrderedMap.get?_mapValues, hn]
    rfl
  have hsame : (b.fabric.plug n l).namings = b.fabric.namings := by
    rw [Fabric.namings, Fabric.plug_nodes, OrderedMap.mapValues_insert, hkept]
    exact OrderedMap.insert_eq_self hfound
  unfold Names
  rw [hsame]
  exact h

/-- Adding a link names its nodes if they are new. -/
theorem addLink [Memory] (h : b.Names) (r : LinkRecord) : (Builder.addLink r b).state.Names := by
  have hadding := addLink_adding r b
  generalize Builder.addLink r b = run at hadding
  cases hadding with
  | refused port => exact h
  | unmeasured port gbits => exact h.withEnds r
  | crowded port measured source room => exact h.withEnds r
  | plugged port measured source room => exact (h.withEnds r).plug source

end Names

variable [Memory] [Bandwidth β]

/-- Every history names the nodes and counts the nameless hosts. -/
theorem names_after (subnet : String) (calls : List Call) :
    (after subnet calls : Builder β).Names :=
  after_induction .nil (fun r _ h => h.addLink r) (fun _ _ h => h) (fun _ h => h.finish) calls

end Builder

namespace Fabric

variable {count : ℕ} {f : Fabric β} {n : Node β}

/-- The nameless hosts are among the hosts. -/
theorem hosts_filter_nameless (f : Fabric β) :
    f.hosts.filter (·.isNameless) = f.nodes.values.filter (·.isNameless) := by
  unfold hosts
  rw [List.filter_filter]
  refine List.filter_congr fun n _ => ?_
  cases hnameless : n.isNameless with
  | true => rw [(Node.isNameless_iff.mp hnameless).1]; rfl
  | false => rfl

/-- The nameless hosts have the made-up names in the order of the nodes. -/
theorem hostnames_nameless (h : Numbered count f.namings.values) :
    (f.hosts.filter (·.isNameless)).map (·.hostname) =
      (List.range count).map Hostname.anonymous := by
  have hnameless := h.nameless
  rw [namings, OrderedMap.values_mapValues, List.filter_map, List.map_map] at hnameless
  rw [hosts_filter_nameless]
  exact hnameless

/-- A nameless host has a made-up name. -/
theorem exists_anonymous (h : Numbered count f.namings.values) (hn : n ∈ f.hosts)
    (hnameless : n.isNameless = true) : ∃ k, n.hostname = Hostname.anonymous k := by
  have hmem : n.hostname ∈ (f.hosts.filter (·.isNameless)).map (·.hostname) :=
    List.mem_map_of_mem (List.mem_filter.mpr ⟨hn, hnameless⟩)
  rw [hostnames_nameless h] at hmem
  obtain ⟨k, -, hk⟩ := List.mem_map.mp hmem
  exact ⟨k, hk.symm⟩

/-- Any other host is called by its description. -/
theorem hostname_of_named (h : Numbered count f.namings.values) (hn : n ∈ f.hosts)
    (hnamed : n.isNameless = false) : n.hostname = Hostname.ofDescription n.description := by
  refine h.named n.naming ?_ hnamed
  rw [namings, OrderedMap.values_mapValues]
  exact List.mem_map_of_mem (List.mem_filter.mp hn).1

/-- The stem of a host is the made-up one exactly if the host is nameless. -/
theorem partitionName_eq_iff (h : Numbered count f.namings.values) (hn : n ∈ f.hosts) :
    n.partitionName = Hostname.anonymousStem ↔ n.isNameless = true := by
  unfold Node.partitionName
  cases hnameless : n.isNameless with
  | true =>
    obtain ⟨k, hk⟩ := exists_anonymous h hn hnameless
    rw [hk]
    exact ⟨fun _ => rfl, fun _ => Hostname.stem_anonymous k⟩
  | false =>
    rw [hostname_of_named h hn hnameless]
    exact ⟨fun heq => absurd heq (Hostname.stem_ofDescription_ne _), nofun⟩

/-- Every host has a name, and the names of nameless hosts are theirs alone. -/
structure NamesHosts (f : Fabric β) : Prop where
  /-- No name is empty. -/
  hostname_ne_empty : ∀ n ∈ f.hosts, n.hostname ≠ ""
  /-- The nameless hosts are numbered from zero in the order of the nodes. -/
  numbered : (f.hosts.filter (·.isNameless)).map (·.hostname) =
    (List.range (f.hosts.countP (·.isNameless))).map Hostname.anonymous
  /-- No two of them have the same name. -/
  distinct : ((f.hosts.filter (·.isNameless)).map (·.hostname)).Nodup
  /-- All other hosts are called by their description. -/
  named : ∀ n ∈ f.hosts, n.isNameless = false →
    n.hostname = Hostname.ofDescription n.description
  /-- None of them has the name of a nameless host. -/
  apart : ∀ n ∈ f.hosts, n.isNameless = false → ∀ k, n.hostname ≠ Hostname.anonymous k

/-- Finding the partitions succeeds, and the nameless hosts are those of one partition. -/
structure PartsNameless (f : Fabric β) (partitions : List Partition) : Prop where
  /-- The partitions are found. -/
  found : (findPartitions f).outcome = .ok partitions
  /-- The hosts that the partition lists are the nameless ones. -/
  listed : ∀ n ∈ f.hosts, (∃ p ∈ partitions, p.name = Hostname.anonymousStem ∧ n.id ∈ p.members) ↔
    Hostname.ofDescription n.description = ""
  /-- So are the hosts that have its number. -/
  assigned : ∀ n ∈ (findPartitions f).state.hosts,
    (∃ (i : ℕ) (p : Partition), n.mainPartition = i ∧ partitions[i]? = some p ∧
      p.name = Hostname.anonymousStem) ↔ Hostname.ofDescription n.description = ""

/-- In an order that fits, every host has a name. -/
theorem namesHosts_of_numbered (h : Numbered count f.namings.values) : f.NamesHosts := by
  have hnumbered := hostnames_nameless h
  have hcount : f.hosts.countP (·.isNameless) = count := by
    have hlength := congrArg List.length hnumbered
    rwa [List.length_map, List.length_map, List.length_range, ← List.countP_eq_length_filter]
      at hlength
  constructor
  case hostname_ne_empty =>
    intro n hn hempty
    cases hnameless : n.isNameless with
    | true =>
      obtain ⟨k, hk⟩ := exists_anonymous h hn hnameless
      exact Hostname.anonymous_ne_empty k (hk.symm.trans hempty)
    | false =>
      rw [hostname_of_named h hn hnameless] at hempty
      have hhost : n.isHost = true := (List.mem_filter.mp hn).2
      exact absurd (Node.isNameless_iff.mpr ⟨hhost, hempty⟩) (Bool.eq_false_iff.mp hnameless)
  case numbered =>
    rw [hcount]
    exact hnumbered
  case distinct =>
    rw [hnumbered]
    exact List.nodup_range.map Hostname.anonymous_injective
  case named => exact fun n hn hnamed => hostname_of_named h hn hnamed
  case apart =>
    intro n hn hnamed k
    rw [hostname_of_named h hn hnamed]
    exact Hostname.ofDescription_ne_anonymous _ k

/-- A host in a partition is a host that was numbered. -/
theorem exists_host_of_numbered {names : List String}
    (hn : n ∈
      ({ f with nodes := f.nodes.mapValues fun _ n => n.numbered names } : Fabric β).hosts) :
    ∃ m ∈ f.hosts, m.inPartition (names.idxOf m.partitionName) = n := by
  obtain ⟨hnode, hhost⟩ := List.mem_filter.mp hn
  rw [OrderedMap.values_mapValues] at hnode
  obtain ⟨m, hm, rfl⟩ := List.mem_map.mp hnode
  unfold Node.numbered at hhost ⊢
  cases hmhost : m.isHost with
  | true => exact ⟨m, List.mem_filter.mpr ⟨hm, hmhost⟩, rfl⟩
  | false =>
    rw [hmhost, if_neg Bool.false_ne_true] at hhost
    exact absurd (hmhost.symm.trans hhost) Bool.false_ne_true

/-- In an order that fits, the nameless hosts are those of one partition. -/
theorem partsNameless_of_numbered (h : Numbered count f.namings.values)
    (hids : (f.nodes.values.map (·.id)).Nodup) : f.PartsNameless (Grouping.ofHosts f.hosts) := by
  have hstate : (findPartitions f).state = f.grouped.1 := rfl
  have hfound : (findPartitions f).outcome = .ok f.grouped.2 := rfl
  rw [grouped_eq] at hstate hfound
  have hstem : ∀ n ∈ f.hosts, n.partitionName = Hostname.anonymousStem ↔
      Hostname.ofDescription n.description = "" := by
    intro n hn
    rw [partitionName_eq_iff h hn, Node.isNameless_iff]
    exact and_iff_right (List.mem_filter.mp hn).2
  constructor
  case found => exact hfound
  case listed =>
    intro n hn
    obtain ⟨hnode, hhost⟩ := List.mem_filter.mp hn
    rw [← hstem n hn]
    constructor
    · rintro ⟨p, hp, hname, hmem⟩
      obtain ⟨name, -, rfl⟩ := Grouping.mem_ofHosts_iff.mp hp
      exact ((Grouping.mem_members_iff hids hnode).mp hmem).2.trans hname
    · intro hname
      have hnames : n.partitionName ∈ Grouping.names f.hosts :=
        Grouping.mem_names_iff.mpr ⟨n, hn, rfl⟩
      exact ⟨_, Grouping.mem_ofHosts_iff.mpr ⟨_, hnames, rfl⟩, hname,
        (Grouping.mem_members_iff hids hnode).mpr ⟨hhost, rfl⟩⟩
  case assigned =>
    intro n hn
    obtain ⟨m, hm, rfl⟩ := exists_host_of_numbered (hstate ▸ hn)
    refine Iff.trans ?_ (hstem m hm)
    constructor
    · rintro ⟨i, p, hi, hp, hname⟩
      have hplace : (Grouping.names f.hosts).idxOf m.partitionName = i := Int.ofNat.inj hi
      rw [← hplace, Grouping.getElem?_ofHosts hm] at hp
      rw [← Option.some.inj hp] at hname
      exact hname
    · intro hname
      exact ⟨_, _, rfl, Grouping.getElem?_ofHosts hm, hname⟩

end Fabric

/-- After any calls on a builder, whatever the records say, every host has a name. The nameless
hosts are numbered in the order of the nodes, and no other host has a name like theirs. Finding
the partitions puts them, and no other hosts, into the partition of the made-up names. -/
theorem Builder.nameless_hosts_apart [Memory] [Bandwidth β] (subnet : String) (calls : List Call) :
    (after subnet calls : Builder β).fabric.NamesHosts ∧
      ∃ partitions, (after subnet calls : Builder β).fabric.PartsNameless partitions := by
  have h : (after subnet calls : Builder β).Names := names_after subnet calls
  have w : (after subnet calls : Builder β).fabric.Wired := (sound_after subnet calls).wired
  have hids : ((after subnet calls : Builder β).fabric.nodes.values.map (·.id)).Nodup := by
    rw [w.node_ids]
    exact OrderedMap.nodup_keys _
  exact ⟨Fabric.namesHosts_of_numbered h, _, Fabric.partsNameless_of_numbered h hids⟩

end FabricPaths
