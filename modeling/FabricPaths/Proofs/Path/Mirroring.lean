import FabricPaths.Proofs.Path.Walk

/-!
# Walks through fabrics that answer alike

A walk asks its fabric for nodes and for what they do with traffic, and for
nothing else. Where a second fabric gives the same answers, but for the numbers of
its links, the walk takes the same course through it. The answers at which walks
stop need to be the same only for the ways to end that are to be kept.
-/

namespace FabricPaths

variable {β : Type}

/-- A cable in one direction, in another fabric and under another number. -/
structure Link.Mirrors (ρ : LinkId → LinkId) (l l' : Link β) : Prop where
  /-- The number is the other one. -/
  id_eq : l'.id = ρ l.id
  /-- The link leaves through the same port. -/
  srcPort_eq : l'.srcPort = l.srcPort
  /-- The link leaves the same node. -/
  parent_eq : l'.parent = l.parent
  /-- The link ends at the same node. -/
  dest_eq : l'.dest = l.dest

/-- The same is done with traffic, along links under other numbers. -/
inductive Forwarding.Mirrors (ρ : LinkId → LinkId) : Forwarding β → Forwarding β → Prop
  /-- There is no forwarding table. -/
  | noTable : Mirrors ρ .noTable .noTable
  /-- There is no entry for the destination. -/
  | noEntry : Mirrors ρ .noEntry .noEntry
  /-- The traffic is sent to one and the same port, without a link. -/
  | deadPort (port : Int) : Mirrors ρ (.deadPort port) (.deadPort port)
  /-- The traffic is sent along one cable. -/
  | along {l l' : Link β} (mirrors : l.Mirrors ρ l') : Mirrors ρ (.along l) (.along l')

/-- The walk with other numbers for its links. -/
def Attempt.renumbered (ρ : LinkId → LinkId) (a : Attempt) : Attempt :=
  { a with links := a.links.map ρ }

/-- A walk under the same numbers is the same walk. -/
@[simp] theorem Attempt.renumbered_id (a : Attempt) : a.renumbered id = a := by
  rw [renumbered, List.map_id]

namespace Fabric

/-- The course with other numbers for its links. -/
def Course.renumbered (ρ : LinkId → LinkId) (c : Course) : Course :=
  { c with links := c.links.map ρ }

/-- A fabric answers for another in walks to a destination. Where traffic would be
stuck it need not, unless walks that end in this way are to be kept. -/
structure Mirrors (ρ : LinkId → LinkId) (kept : PathStatus → Prop) (dest : NodeId)
    (f g : Fabric β) : Prop where
  /-- A known node is known, is called the same, and does the same with traffic. -/
  known : ∀ ⦃v n⦄, f.nodes.get? v = some n → ∃ n', g.nodes.get? v = some n' ∧
    n'.id = n.id ∧ n'.display = n.display ∧
    ((∀ status, (f.forwarding n dest).stall? = some status → kept status) →
      (f.forwarding n dest).Mirrors ρ (g.forwarding n' dest))
  /-- A node that is not known is not known. -/
  unknown : kept .deadPort → ∀ ⦃v⦄, f.nodes.get? v = none → g.nodes.get? v = none

variable {f g : Fabric β} {ρ : LinkId → LinkId} {kept : PathStatus → Prop}

/-- What a walk does once it has taken a link to a node that is not known. -/
theorem follow_unknown {dst : Node β} {visited : List NodeId} {link : Link β}
    (hn : f.nodes.get? link.dest = none) :
    f.follow dst visited link =
      .afterLink link.id (.stop .deadPort link.parent (unknownNode link)) := by
  rw [follow]
  congr 1
  split
  · rfl
  · rename_i current hsome
    rw [hn] at hsome
    cases hsome

/-- Walks to one destination take the same course through fabrics that answer alike. -/
theorem Mirrors.follow {dst dst' : Node β} (h : f.Mirrors ρ kept dst.id g)
    (hid : dst'.id = dst.id) (hname : dst'.display = dst.display) {visited : List NodeId}
    {link link' : Link β} (hlink : link.Mirrors ρ link')
    (hkept : kept (f.follow dst visited link).status) :
    g.follow dst' visited link' = (f.follow dst visited link).renumbered ρ := by
  induction visited, link using follow.induct f generalizing link' with
  | case1 visited link ih =>
    cases hn : f.nodes.get? link.dest with
    | none =>
      rw [follow_unknown hn] at hkept ⊢
      have hn' : g.nodes.get? link'.dest = none := by
        rw [hlink.dest_eq]
        exact h.unknown hkept hn
      have hreason : unknownNode link' = unknownNode link := by
        unfold unknownNode
        rw [hlink.srcPort_eq, hlink.dest_eq]
      rw [follow_unknown hn', hlink.id_eq, hlink.parent_eq, hreason]
      rfl
    | some current =>
      obtain ⟨current', hn', -, hdisplay, hforwarding⟩ := h.known hn
      rw [← hlink.dest_eq] at hn'
      rw [follow_known hn] at hkept ⊢
      rw [follow_known hn', hlink.id_eq, hlink.dest_eq, hid]
      by_cases hseen : link.dest ∈ visited
      · rw [if_pos hseen, if_pos hseen]
        rfl
      · rw [if_neg hseen] at hkept ⊢
        rw [if_neg hseen]
        by_cases harrived : link.dest = dst.id
        · rw [if_pos harrived, if_pos harrived]
          rfl
        · rw [if_neg harrived] at hkept ⊢
          rw [if_neg harrived]
          have hstops : ∀ status, (f.forwarding current dst.id).stall? = some status →
              kept status := by
            intro status hstall
            generalize f.forwarding current dst.id = answer at hstall hkept
            cases answer <;> cases hstall <;> exact hkept
          have hmirrors := hforwarding hstops
          generalize f.forwarding current dst.id = answer at hmirrors hkept ⊢
          generalize g.forwarding current' dst.id = answer' at hmirrors ⊢
          cases hmirrors with
          | noTable =>
            dsimp only
            rw [hdisplay]
            rfl
          | noEntry =>
            dsimp only
            rw [hdisplay, hname]
            rfl
          | deadPort port => rfl
          | @along next next' hnext =>
            have hrest := ih current hn hseen next hnext hkept
            dsimp only
            rw [hrest]
            rfl

/-- The first links of two nodes are one cable under other numbers, unless the first
node has none and walks that end so are not to be kept. -/
def FirstMirrors (ρ : LinkId → LinkId) (kept : PathStatus → Prop) :
    Option (Link β) → Option (Link β) → Prop
  | some l, first' => ∃ l', first' = some l' ∧ l.Mirrors ρ l'
  | none, first' => kept .deadPort → first' = none

/-- Walks between two nodes take the same course through fabrics that answer alike. -/
theorem Mirrors.courseFrom {src src' dst dst' : Node β} (h : f.Mirrors ρ kept dst.id g)
    (hsrc : src'.id = src.id) (hdst : dst'.id = dst.id) (hname : dst'.display = dst.display)
    {first first' : Option (Link β)} (hmirrors : FirstMirrors ρ kept first first')
    (hkept : kept (f.courseFrom src dst first).status) :
    g.courseFrom src' dst' first' = (f.courseFrom src dst first).renumbered ρ := by
  cases first with
  | none =>
    rw [hmirrors hkept, Fabric.courseFrom, Fabric.courseFrom, hsrc]
    rfl
  | some l =>
    obtain ⟨l', rfl, hl⟩ := hmirrors
    rw [Fabric.courseFrom, Fabric.courseFrom, hsrc]
    exact h.follow hdst hname hl hkept

/-- Walks between two nodes that are to be kept are reported alike. -/
theorem Mirrors.trace {src src' dst dst' : Node β} (h : f.Mirrors ρ kept dst.id g)
    (hsrc : src'.id = src.id) (hdst : dst'.id = dst.id) (hname : dst'.display = dst.display)
    {first first' : Option (Link β)} (hfirst : f.firstLink? src = .ok first)
    (hfirst' : g.firstLink? src' = .ok first') (hmirrors : FirstMirrors ρ kept first first')
    {a : Attempt} (hkept : kept a.status) (ha : f.trace src dst = .ok a) :
    g.trace src' dst' = .ok (a.renumbered ρ) := by
  obtain ⟨detail, hdetail, rfl⟩ := (trace_eq_ok_iff hfirst dst a).mp ha
  rw [trace_eq_ok_iff hfirst', hsrc, hdst, h.courseFrom hsrc hdst hname hmirrors hkept]
  exact ⟨detail, hdetail, rfl⟩

/-- Walks between two nodes end alike if all are to be kept, also where they are not reported. -/
theorem Mirrors.trace_eq {src src' dst dst' : Node β} (h : f.Mirrors ρ (fun _ => True) dst.id g)
    (hsrc : src'.id = src.id) (hdst : dst'.id = dst.id) (hname : dst'.display = dst.display)
    {first first' : Option (Link β)} (hfirst : f.firstLink? src = .ok first)
    (hfirst' : g.firstLink? src' = .ok first')
    (hmirrors : FirstMirrors ρ (fun _ => True) first first') :
    g.trace src' dst' = (f.trace src dst).map (·.renumbered ρ) := by
  have hcourse := h.courseFrom hsrc hdst hname hmirrors trivial
  rw [trace_of_firstLink? hfirst', trace_of_firstLink? hfirst, hcourse, hsrc, hdst]
  change (f.courseFrom src dst first).detail.map _ = _
  cases (f.courseFrom src dst first).detail with
  | ok detail => rfl
  | error e => rfl

end Fabric

end FabricPaths
