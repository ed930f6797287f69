import FabricPaths.Extract.Subnet
import FabricPaths.Proofs.Extract.Narration
import FabricPaths.Proofs.Path.Counting
import FabricPaths.Proofs.Path.Observers
import FabricPaths.Proofs.Path.Survey
import FabricPaths.Proofs.Path.Undecorated
import FabricPaths.Proofs.World.Told

/-!
# What is told of walks

An observer of a survey is told of each walk, in the order of the hosts: none of the look-ups
that its event needs can fail. The walks are counted as they are told.
-/

namespace FabricPaths

variable {β : Type} {f : Fabric β}

/-- What the event of a walk says of it. -/
theorem Event.of_walked {a : Attempt} {src dst : Node β} {e : Event}
    (hsrc : f.nodes.get? a.source = some src) (hdst : f.nodes.get? a.dest = some dst)
    (he : Event.walked f a = .ok e) : e.kind = .path ∧ e.source = src.hostname ∧
      e.dest = dst.hostname ∧ e.status = some a.status := by
  unfold walked at he
  rw [Fabric.node_eq_ok_iff.mpr hsrc, Fabric.node_eq_ok_iff.mpr hdst] at he
  cases hhops : f.hops a.links with
  | error e' =>
    rw [hhops] at he
    cases he
  | ok hops =>
    rw [hhops] at he
    cases he
    exact ⟨rfl, rfl, rfl, rfl⟩

/-- The event of a walk is one of the subnet of the fabric. -/
theorem Event.subnet_of_walked {a : Attempt} {e : Event} (he : Event.walked f a = .ok e) :
    e.subnet = f.subnet := by
  unfold walked at he
  cases hsrc : f.node a.source with
  | error e' =>
    rw [hsrc] at he
    cases he
  | ok src =>
    cases hdst : f.node a.dest with
    | error e' =>
      rw [hsrc, hdst] at he
      cases he
    | ok dst =>
      cases hhops : f.hops a.links with
      | error e' =>
        rw [hsrc, hdst, hhops] at he
        cases he
      | ok hops =>
        rw [hsrc, hdst, hhops] at he
        cases he
        rfl

/-- There is something to tell of each walk of a survey of a wired fabric. -/
theorem Fabric.Wired.walkTold (w : f.Wired) {src dst : Node β} (hsrc : src ∈ f.hosts)
    (hdst : dst ∈ f.hosts) (hedges : src.edges.entries ≠ []) (hne : dst.id ≠ src.id) {a : Attempt}
    (ha : f.trace src dst = .ok a) :
    ∃ e, Event.walked f a = .ok e ∧ f.WalkTold (src, dst) e := by
  have hrecordable := w.recordable ⟨src, hsrc, dst, hdst, hedges, hne, ha⟩
  have hends := Fabric.trace_ends ha
  have hs : f.nodes.get? a.source = some src := by
    rw [hends.1]
    exact w.get?_of_mem_values (List.mem_filter.mp hsrc).1
  have hd : f.nodes.get? a.dest = some dst := by
    rw [hends.2]
    exact w.get?_of_mem_values (List.mem_filter.mp hdst).1
  obtain ⟨e, he, hhops⟩ := Event.walked_ok w hs hd hrecordable.links_indexed
  obtain ⟨hkind, hsource, hdest, hstatus⟩ := Event.of_walked hs hd he
  exact ⟨e, he, hkind, hsource, hdest, a, ha, he, hstatus, hhops⟩

/-- The event tells of a complete walk. -/
def Event.ofComplete (e : Event) : Bool := e.status == some .complete

/-- The walks that events tell of were counted on top of those that had been counted before. -/
structure Tallied (before after : StatusCounts) (es : List Event) : Prop where
  /-- The complete walks were counted as such. -/
  complete : after.complete = before.complete + es.countP Event.ofComplete
  /-- All others were counted as walks that stopped short. -/
  missing : after.missing = before.missing + es.countP (!Event.ofComplete ·)

namespace Tallied

variable {before between after : StatusCounts} {e : Event} {es es' : List Event}

/-- Nothing is counted where nothing is told. -/
theorem refl (c : StatusCounts) : Tallied c c [] := ⟨(Int.add_zero _).symm, (Int.add_zero _).symm⟩

/-- Walks can be counted in two goes. -/
theorem append (h : Tallied before between es) (h' : Tallied between after es') :
    Tallied before after (es ++ es') := by
  refine ⟨?_, ?_⟩
  · rw [h'.complete, h.complete, List.countP_append, Int.natCast_add, Int.add_assoc]
  · rw [h'.missing, h.missing, List.countP_append, Int.natCast_add, Int.add_assoc]

/-- One more walk is counted. -/
theorem count (c : StatusCounts) {status : PathStatus} (h : e.status = some status) :
    Tallied c (c.count status) [e] := by
  have hcomplete : e.ofComplete = decide (status = .complete) := by
    rw [Event.ofComplete, h]
    cases status <;> rfl
  refine ⟨?_, ?_⟩
  · rw [StatusCounts.complete_count, List.countP_singleton, hcomplete]
    by_cases hs : status = .complete <;> simp [hs]
  · rw [StatusCounts.missing_count, List.countP_singleton, hcomplete]
    by_cases hs : status = .complete <;> simp [hs]

end Tallied

namespace Extract

variable {c : Config} {f : Fabric Float}

/-- The event of a walk is told when the walk is announced. -/
theorem tells_announce (ho : c.observer = some Observer.recorder) {a : Attempt} {e : Event}
    (he : Event.walked f a = .ok e) :
    World.Tells (fun _ es => es = [e]) (Fabric.announce (walkObserver c f) a) := by
  rintro w ⟨⟩ -
  refine ⟨[e], ?_, rfl⟩
  unfold walkObserver
  rw [ho, Option.map_some, Fabric.announce_state, he]
  rfl

/-- Walks from one host are told of in the order of the other hosts. -/
theorem tells_surveyFrom (wired : f.Wired) (ho : c.observer = some Observer.recorder)
    {src : Node Float} (hsrc : src ∈ f.hosts) (hedges : src.edges.entries ≠ [])
    {dsts : List (Node Float)} (hdsts : ∀ n ∈ dsts, n ∈ f.hosts) (s : Survey) :
    World.Tells (fun s' es => Tallied s.counts s'.counts es ∧ List.Forall₂ f.WalkTold
      ((dsts.filter fun dst => decide (dst.id ≠ src.id)).map fun dst => (src, dst)) es)
      (f.surveyFrom (walkObserver c f) src s dsts) := by
  induction dsts generalizing s with
  | nil => exact .pure ⟨.refl _, .nil⟩
  | cons dst rest ih =>
    have hrest := ih fun n hn => hdsts n (List.mem_cons_of_mem _ hn)
    unfold Fabric.surveyFrom
    by_cases hself : dst.id = src.id
    · rw [if_pos hself, List.filter_cons_of_neg (by simpa using hself)]
      exact hrest s
    · rw [if_neg hself, List.filter_cons_of_pos (by simpa using hself)]
      refine .ofExcept_bind fun a ha => ?_
      obtain ⟨e, he, htold⟩ :=
        wired.walkTold hsrc (hdsts dst List.mem_cons_self) hedges hself ha
      obtain ⟨a', ha', -, hstatus, -⟩ := htold.walk
      cases ha.symm.trans ha'
      refine (tells_announce ho he).bind ?_
      rintro _ _ rfl
      refine (hrest (s.add a)).mono fun s' es h => ?_
      exact ⟨(Tallied.count s.counts hstatus).append h.1, .cons htold h.2⟩

/-- Walks from several hosts are told of in the order of these hosts. -/
theorem tells_surveyEach (wired : f.Wired) (ho : c.observer = some Observer.recorder)
    {srcs : List (Node Float)} (hsrcs : ∀ n ∈ srcs, n ∈ f.hosts) (s : Survey) :
    World.Tells (fun s' es => Tallied s.counts s'.counts es ∧ List.Forall₂ f.WalkTold
      ((srcs.filter fun src => !src.edges.entries.isEmpty).flatMap fun src =>
        (f.hosts.filter fun dst => decide (dst.id ≠ src.id)).map fun dst => (src, dst)) es)
      (f.surveyEach (walkObserver c f) s srcs) := by
  induction srcs generalizing s with
  | nil => exact .pure ⟨.refl _, .nil⟩
  | cons src rest ih =>
    have hrest := ih fun n hn => hsrcs n (List.mem_cons_of_mem _ hn)
    unfold Fabric.surveyEach
    by_cases hidle : src.edges.entries.isEmpty = true
    · rw [if_pos hidle, List.filter_cons_of_neg (by simpa using hidle)]
      exact hrest s
    · rw [if_neg hidle, List.filter_cons_of_pos (by simpa using hidle), List.flatMap_cons]
      have hedges : src.edges.entries ≠ [] := fun hnil => hidle (List.isEmpty_iff.mpr hnil)
      have hfrom := tells_surveyFrom wired ho (hsrcs src List.mem_cons_self) hedges
        (fun _ hn => hn) (s.startFrom src.id)
      refine hfrom.bind ?_
      rintro s' es ⟨htallied, htold⟩
      refine (hrest s').mono fun s'' es' h => ?_
      exact ⟨htallied.append h.1, List.rel_append htold h.2⟩

/-- A survey tells of the walk between each pair of hosts, and counts them all. -/
theorem tells_survey (wired : f.Wired) (ho : c.observer = some Observer.recorder) :
    World.Tells (fun s es => Tallied ∅ s.counts es ∧
      List.Forall₂ f.WalkTold (Fabric.hostPairs f.hosts) es) (f.survey (walkObserver c f)) := by
  rw [Fabric.survey_eq]
  refine (tells_surveyEach wired ho (fun _ hn => hn) {}).bind ?_
  rintro s es h
  refine World.Tells.after_any (fun _ _ hw => hw) fun _ => .pure ?_
  rw [List.append_nil]
  exact h

end Extract

end FabricPaths
