import FabricPaths.Proofs.Path.Telling
import FabricPaths.Proofs.Path.Trail

/-!
# Recorded paths

A survey records the links of complete walks between hosts as paths, and nothing else. In a
wired fabric such a path is a chain: its first link leaves the source, each later link leaves
the node at which the one before it ends, and the last one ends at the destination.
-/

namespace FabricPaths

/-- Links lead from a node to another, each from where the one before it ends; `joins` tells
from where to where a link leads. -/
inductive Chain (joins : LinkId → NodeId → NodeId → Prop) :
    NodeId → List LinkId → NodeId → Prop
  /-- One link leads from where it starts to where it ends. -/
  | last {k : LinkId} {source dest : NodeId} (h : joins k source dest) :
    Chain joins source [k] dest
  /-- A link comes before others that start where it ends. -/
  | cons {k : LinkId} {source next dest : NodeId} {later : List LinkId}
    (h : joins k source next) (rest : Chain joins next later dest) :
    Chain joins source (k :: later) dest

variable {joins joins' : LinkId → NodeId → NodeId → Prop} {root : NodeId}

/-- Links lead from a node to another wherever those of the path do. -/
theorem Chain.imp_mem {source dest : NodeId} {path : List LinkId} (c : Chain joins source path dest)
    (h : ∀ k ∈ path, ∀ u v, joins k u v → joins' k u v) : Chain joins' source path dest := by
  induction c with
  | last hk => exact .last (h _ List.mem_cons_self _ _ hk)
  | cons hk _ ih =>
    exact .cons (h _ List.mem_cons_self _ _ hk) (ih fun k hin => h k (List.mem_cons_of_mem _ hin))

/-- Links lead from a node to another wherever they are known to lead as far. -/
theorem Chain.imp (h : ∀ k a b, joins k a b → joins' k a b) {source dest : NodeId}
    {path : List LinkId} (c : Chain joins source path dest) : Chain joins' source path dest :=
  c.imp_mem fun k _ => h k

/-- Links lead from a node to the root, and there are none where the node is the root. -/
def Descends (joins : LinkId → NodeId → NodeId → Prop) (root v : NodeId) (path : List LinkId) :
    Prop :=
  (v = root ∧ path = []) ∨ Chain joins v path root

namespace Descends

variable {u v : NodeId} {k : LinkId} {path : List LinkId}

/-- One more link, from further away, makes a chain. -/
theorem chain (hk : joins k u v) (h : Descends joins root v path) :
    Chain joins u (k :: path) root := by
  rcases h with ⟨rfl, rfl⟩ | h
  · exact .last hk
  · exact .cons hk h

/-- One more link leads from further away. -/
theorem hop (hk : joins k u v) (h : Descends joins root v path) :
    Descends joins root u (k :: path) := Or.inr (h.chain hk)

/-- Links lead to the root wherever those of the path do. -/
theorem imp_mem (d : Descends joins root v path)
    (h : ∀ k ∈ path, ∀ u v, joins k u v → joins' k u v) : Descends joins' root v path :=
  d.imp id fun c => c.imp_mem h

end Descends

namespace Fabric

variable {β σ : Type}

/-- An indexed link leads from a node to another. -/
def Joins (f : Fabric β) (k : LinkId) (source dest : NodeId) : Prop :=
  ∃ l, f.links.get? k = some l ∧ l.parent = source ∧ l.dest = dest

/-- A node short of the destination sends the traffic along a link. -/
def Relays (f : Fabric β) (dest : NodeId) (k : LinkId) (u v : NodeId) : Prop :=
  u ≠ dest ∧ ∃ l, f.egress? dest u = some l ∧ l.id = k ∧ l.dest = v

/-- The path consists of the links of a complete walk between two hosts. -/
def Recorded (f : Fabric β) (source dest : NodeId) (path : Path) : Prop :=
  ∃ a, f.Surveyed a ∧ a.isComplete = true ∧ a.source = source ∧ a.dest = dest ∧ a.links = path

variable {f : Fabric β}

/-- A survey records the links of complete walks between hosts, and nothing else. -/
theorem ensures_survey (f : Fabric β) (observe : Option (Attempt → Action σ Unit)) :
    Action.Ensures (fun s => s.paths.All f.Recorded) (f.survey observe) :=
  ensures_survey_all (fun a ha hcomplete => ⟨a, ha, hcomplete, rfl, rfl, rfl⟩) observe

/-- From where the first link of a complete walk lands, the others lead to the destination. -/
theorem Trail.descends {dest : NodeId} {visited : List NodeId} {ls : List (Link β)} {c : Course}
    (t : f.Trail dest visited ls c) (h : c.status = .complete) :
    ∀ first, ls.head? = some first →
      Descends (f.Relays dest) dest first.dest (ls.tail.map (·.id)) := by
  induction t with
  | repeated seen => cases h
  | arrived new there =>
    rintro first ⟨⟩
    exact Or.inl ⟨there, rfl⟩
  | stuck new short stalls =>
    cases h
    exact stalls.elim
  | @along visited link next later c new short hop rest ih =>
    rintro first ⟨⟩
    exact (ih h next rfl).hop ⟨short, next, hop, rfl, rfl⟩

namespace Wired

/-- A link along which a node of a wired fabric sends traffic leads from it. -/
theorem joins_of_relays (w : f.Wired) {dest : NodeId} {k : LinkId} {u v : NodeId}
    (h : f.Relays dest k u v) : f.Joins k u v := by
  obtain ⟨-, l, hop, rfl, rfl⟩ := h
  obtain ⟨hlink, hparent⟩ := w.egress?_spec hop
  exact ⟨l, hlink, hparent, rfl⟩

/-- A walk through a wired fabric that arrives went along a chain of links. -/
theorem follow_chain (w : f.Wired) (dst : Node β) (visited : List NodeId) (link : Link β)
    (hlink : f.links.get? link.id = some link)
    (h : (f.follow dst visited link).status = .complete) :
    Chain f.Joins link.parent (f.follow dst visited link).links dst.id := by
  obtain ⟨later, t⟩ := w.follow_trail dst visited link hlink
  have hdescends : Descends f.Joins dst.id link.dest (later.map (·.id)) :=
    (t.descends h link rfl).imp_mem fun k _ u v => w.joins_of_relays
  rw [t.numbers]
  exact hdescends.chain ⟨link, hlink, rfl, rfl⟩

/-- A path that is recorded in a wired fabric is a chain of links between two hosts. -/
theorem chain_of_recorded (w : f.Wired) {source dest : NodeId} {path : Path}
    (h : f.Recorded source dest path) :
    f.IsHost source ∧ f.IsHost dest ∧ Chain f.Joins source path dest := by
  obtain ⟨a, ⟨src, hsrc, dst, hdst, hedges, -, ha⟩, hcomplete, rfl, rfl, rfl⟩ := h
  have hs : f.nodes.get? src.id = some src := w.get?_of_mem_values (List.mem_filter.mp hsrc).1
  have hd : f.nodes.get? dst.id = some dst := w.get?_of_mem_values (List.mem_filter.mp hdst).1
  obtain ⟨p, hp⟩ := w.exists_firstPosition hs hedges
  obtain ⟨first, hfirst, hlink, hparent, -⟩ := w.firstLink?_of_position hs hp
  obtain ⟨detail, -, rfl⟩ := (trace_eq_ok_iff hfirst dst a).mp ha
  have hchain := w.follow_chain dst [src.id] first hlink (of_decide_eq_true hcomplete)
  rw [hparent] at hchain
  exact ⟨⟨src, hs, (List.mem_filter.mp hsrc).2⟩, ⟨dst, hd, (List.mem_filter.mp hdst).2⟩, hchain⟩

end Wired

end Fabric

end FabricPaths
