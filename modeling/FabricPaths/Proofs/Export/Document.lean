import FabricPaths.Export.Document
import FabricPaths.Proofs.Fabric.FirstLink

/-!
# Documents of wired fabrics

In a wired fabric every slot that an edge lists exists and is occupied, no node is under
another, and links are indexed by ascending numbers. So there is a document of every wired
fabric, and it is known without a walk through failures and depths: the sheet of the fabric
has an entry for each node, for each edge with the links in the slots that the edge lists,
for each link in the order of the index, and for each path.
-/

namespace FabricPaths

open Export

variable {β : Type}

namespace Node

/-- The links in the slots at some positions, where these are occupied. -/
def linksAt (n : Node β) (positions : List Int) : List LinkId :=
  positions.filterMap fun p => n.linkIn? p.toNat

/-- An edge of the node as the document has it, if the slots that it lists are occupied. -/
def edgeSheet (n : Node β) (e : Edge β) : EdgeEntry β where
  dest := e.dest
  gbits := e.gbits
  links := n.linksAt e.linkPorts
  reverse := e.reverse
  partitions := e.marks.members

/-- The node as the document has it, if it has no subnodes and its edges list occupied slots. -/
def sheet (n : Node β) : NodeEntry β :=
  .mk n.id n.lid n.type n.hostname n.description n.mainPartition n.marks.members []
    (n.edges.values.map n.edgeSheet)

/-- A link is in the slot at a position, and the position is listed from the start of the list
of slots. -/
def Holds (n : Node β) (p : Int) (k : LinkId) : Prop :=
  n.listedLink p = .ok (some k) ∧ n.linkIn? p.toNat = some k

/-- Positions of occupied slots have their links. -/
theorem listedLinks_eq {n : Node β} {positions : List Int}
    (h : ∀ p ∈ positions, ∃ k, n.Holds p k) :
    n.listedLinks positions = .ok (n.linksAt positions) := by
  induction positions with
  | nil => rfl
  | cons p rest ih =>
    obtain ⟨k, hlisted, hslot⟩ := h p List.mem_cons_self
    have hrest := ih fun p hp => h p (List.mem_cons_of_mem _ hp)
    have hlinks : n.linksAt (p :: rest) = k :: n.linksAt rest := by
      rw [linksAt, List.filterMap_cons, hslot]
      rfl
    unfold listedLinks
    rw [hlisted, hrest, hlinks]
    rfl

/-- Positions of occupied slots have one link each. -/
theorem length_linksAt {n : Node β} {positions : List Int}
    (h : ∀ p ∈ positions, ∃ k, n.Holds p k) :
    (n.linksAt positions).length = positions.length := by
  rw [linksAt, List.length_filterMap_eq_countP, List.countP_eq_length]
  intro p hp
  obtain ⟨k, -, hslot⟩ := h p hp
  rw [hslot]
  rfl

end Node

namespace Fabric

/-- The document of the fabric, if the fabric is wired. -/
def sheet (f : Fabric β) : Document β where
  subnet := f.subnet
  hwlocDir := f.hwlocDir
  partitions := f.partitions
  nodes := f.nodes.values.map Node.sheet
  links := f.links.values.map linkEntry
  paths := f.paths.list.map fun (source, dest, links) => ⟨source, dest, links⟩

/-- Edges have their entries if the positions that they list are occupied. -/
theorem edgeEntries_eq {n : Node β} {es : List (Edge β)}
    (h : ∀ e ∈ es, ∀ p ∈ e.linkPorts, ∃ k, n.Holds p k) :
    edgeEntries n es = .ok (es.map n.edgeSheet) := by
  induction es with
  | nil => rfl
  | cons e rest ih =>
    have hlinks := Node.listedLinks_eq (h e List.mem_cons_self)
    have hrest := ih fun e he => h e (List.mem_cons_of_mem _ he)
    unfold edgeEntries edgeEntry
    rw [hlinks, hrest]
    rfl

/-- Nodes without subnodes have their entries if their edges have theirs. -/
theorem nodeEntries_eq {f : Fabric β} {depth : Nat} {ns : List (Node β)}
    (hleaf : ∀ n ∈ ns, n.subnodes.entries = [])
    (hedges : ∀ n ∈ ns, ∀ e ∈ n.edges.values, ∀ p ∈ e.linkPorts, ∃ k, n.Holds p k) :
    f.nodeEntries (depth + 1) ns = .ok (ns.map Node.sheet) := by
  rw [nodeEntries]
  induction ns with
  | nil => rfl
  | cons n rest ih =>
    have hentries := edgeEntries_eq (hedges n List.mem_cons_self)
    have hrest := ih (fun n hn => hleaf n (List.mem_cons_of_mem _ hn))
      fun n hn => hedges n (List.mem_cons_of_mem _ hn)
    have hsub : f.subnodesOf n = [] := by
      rw [subnodesOf, hleaf n List.mem_cons_self]
      rfl
    have hnone : f.nodeEntries depth [] = .ok [] := by
      cases depth with
      | zero => rfl
      | succ depth => rfl
    rw [nodeEntriesOver, hsub, hnone, hentries, hrest]
    rfl

namespace Wired

variable {f : Fabric β}

/-- Each position that an edge of a wired fabric lists has a link. -/
theorem holds_of_listed (w : f.Wired) {id : NodeId} {n : Node β} (hn : f.nodes.get? id = some n)
    {d : NodeId} {e : Edge β} (he : n.edges.get? d = some e) {p : Int} (hp : p ∈ e.linkPorts) :
    ∃ k, n.Holds p k := by
  obtain ⟨l, hl, rfl, rfl, hlisted⟩ := w.listed_occupied hn he hp
  have hslot := w.link_plugged hl
  rw [linkIn?_of_node hn] at hslot
  exact ⟨l.id, hlisted, hslot⟩

/-- The links that an edge of a wired fabric lists are found, one for each position. -/
theorem listedLinks_ok (w : f.Wired) {id : NodeId} {n : Node β} (hn : f.nodes.get? id = some n)
    {d : NodeId} {e : Edge β} (he : n.edges.get? d = some e) :
    ∃ links, n.listedLinks e.linkPorts = .ok links ∧ links.length = e.linkPorts.length :=
  ⟨_, Node.listedLinks_eq fun _ => w.holds_of_listed hn he,
    Node.length_linksAt fun _ => w.holds_of_listed hn he⟩

/-- The links of a wired fabric have their numbers in the order of the index. -/
theorem ids_values (w : f.Wired) : f.links.values.map (·.id) = f.links.keys :=
  OrderedMap.map_values w.link_id

/-- The links of a wired fabric are in the order of their numbers. -/
theorem sort_links (w : f.Wired) :
    (f.links.values.mergeSort fun a b => decide (a.id ≤ b.id)) = f.links.values := by
  have hascending : (f.links.values.map (·.id)).Pairwise (· < ·) := by
    rw [w.ids_values]
    exact w.ascending
  apply List.mergeSort_of_pairwise
  exact (List.pairwise_map.mp hascending).imp fun hlt => decide_eq_true (Nat.le_of_lt hlt)

/-- The document of a wired fabric is its sheet. -/
theorem document_eq (w : f.Wired) : f.document = .ok f.sheet := by
  have hnode : ∀ n ∈ f.nodes.values, f.nodes.get? n.id = some n :=
    fun n hn => w.get?_of_mem_values hn
  have hentries : f.nodeEntries f.greatestDepth f.nodes.values =
      .ok (f.nodes.values.map Node.sheet) := by
    refine nodeEntries_eq (fun n hn => (w.node_fit (hnode n hn)).subnodes_nil) ?_
    intro n hn e he p hp
    obtain ⟨d, hget⟩ := OrderedMap.mem_values_iff.mp he
    exact w.holds_of_listed (hnode n hn) hget hp
  unfold document
  rw [hentries, w.sort_links]
  rfl

/-- There is a document of a wired fabric. -/
theorem document_ok (w : f.Wired) : ∃ document, f.document = .ok document := ⟨_, w.document_eq⟩

end Wired

end Fabric

end FabricPaths
