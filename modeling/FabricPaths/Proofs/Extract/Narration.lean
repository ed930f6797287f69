import FabricPaths.Extract.Narration
import FabricPaths.Proofs.Action
import FabricPaths.Proofs.Fabric.Agreement

/-!
# Walks can be told of

The event of a walk names its two ends and the port of each link that it took. In a wired
fabric all of these are found, so that there is an event for every walk along indexed links
between known nodes. What is missing in any other fabric can be put into words.
-/

namespace FabricPaths

variable {β : Type} {f : Fabric β}

/-- Each indexed link of a wired fabric makes a hop. -/
theorem Fabric.Wired.hops_ok (w : f.Wired) {links : List LinkId}
    (h : ∀ k ∈ links, ∃ l, f.links.get? k = some l) :
    ∃ texts, f.hops links = .ok texts ∧ texts.length = links.length := by
  induction links with
  | nil => exact ⟨[], rfl, rfl⟩
  | cons k rest ih =>
    obtain ⟨l, hl⟩ := h k List.mem_cons_self
    obtain ⟨parent, hparent⟩ := w.link_parent hl
    obtain ⟨texts, hrest, hlength⟩ := ih fun k hk => h k (List.mem_cons_of_mem _ hk)
    refine ⟨s!"{parent.display}:{l.srcPort}" :: texts, ?_, congrArg (· + 1) hlength⟩
    unfold Fabric.hops
    rw [link_eq_ok_iff.mpr hl]
    change (f.node l.parent >>= _) = _
    rw [node_eq_ok_iff.mpr hparent]
    change (f.hops rest >>= _) = _
    rw [hrest]
    rfl

/-- A walk along indexed links between known nodes of a wired fabric has an event, with a hop
for each link. -/
theorem Event.walked_ok (w : f.Wired) {a : Attempt} {src dst : Node β}
    (hsrc : f.nodes.get? a.source = some src) (hdst : f.nodes.get? a.dest = some dst)
    (hlinks : ∀ k ∈ a.links, ∃ l, f.links.get? k = some l) :
    ∃ e, Event.walked f a = .ok e ∧ e.hops.length = a.links.length := by
  obtain ⟨hops, hhops, hlength⟩ := w.hops_ok hlinks
  unfold walked
  rw [Fabric.node_eq_ok_iff.mpr hsrc, Fabric.node_eq_ok_iff.mpr hdst, hhops]
  exact ⟨_, rfl, hlength⟩

/-- A node that is not found can be named. -/
theorem Fabric.hasWords_of_node {id : NodeId} {e : Failure} (h : f.node id = .error e) :
    e.HasWords := by
  unfold node at h
  cases hn : f.nodes.get? id with
  | some n =>
    rw [hn] at h
    cases h
  | none =>
    rw [hn] at h
    cases h
    exact ⟨_, rfl⟩

/-- A link that is not found can be named. -/
theorem Fabric.hasWords_of_link {id : LinkId} {e : Failure} (h : f.link id = .error e) :
    e.HasWords := by
  unfold link at h
  cases hl : f.links.get? id with
  | some l =>
    rw [hl] at h
    cases h
  | none =>
    rw [hl] at h
    cases h
    exact ⟨_, rfl⟩

/-- What is missing for a hop can be named. -/
theorem Fabric.hasWords_of_hops {links : List LinkId} {e : Failure} (h : f.hops links = .error e) :
    e.HasWords := by
  induction links generalizing e with
  | nil => cases h
  | cons k rest ih =>
    unfold hops at h
    cases hl : f.link k with
    | error e' =>
      rw [hl] at h
      cases h
      exact hasWords_of_link hl
    | ok l =>
      rw [hl] at h
      change (f.node l.parent >>= _) = _ at h
      cases hn : f.node l.parent with
      | error e' =>
        rw [hn] at h
        cases h
        exact hasWords_of_node hn
      | ok n =>
        rw [hn] at h
        change (f.hops rest >>= _) = _ at h
        cases hrest : f.hops rest with
        | error e' =>
          rw [hrest] at h
          cases h
          exact ih hrest
        | ok texts =>
          rw [hrest] at h
          cases h

/-- What is missing for the event of a walk can be named. -/
theorem Event.hasWords_of_walked {a : Attempt} {e : Failure} (h : walked f a = .error e) :
    e.HasWords := by
  unfold walked at h
  cases hsrc : f.node a.source with
  | error e' =>
    rw [hsrc] at h
    cases h
    exact Fabric.hasWords_of_node hsrc
  | ok src =>
    rw [hsrc] at h
    cases hdst : f.node a.dest with
    | error e' =>
      rw [hdst] at h
      cases h
      exact Fabric.hasWords_of_node hdst
    | ok dst =>
      rw [hdst] at h
      cases hhops : f.hops a.links with
      | error e' =>
        rw [hhops] at h
        cases h
        exact Fabric.hasWords_of_hops hhops
      | ok hops =>
        rw [hhops] at h
        cases h

end FabricPaths
