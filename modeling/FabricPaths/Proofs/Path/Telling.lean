import FabricPaths.Proofs.Path.Survey

/-!
# The walks of a survey

A survey makes walks between hosts and no others: each starts at a host that has an edge, and ends
up at another host or stops short of it. What announcing these walks leaves alone, the survey
leaves alone.
-/

namespace FabricPaths.Fabric

variable {β σ : Type}

variable {f : Fabric β} {I : σ → Prop} {observe : Option (Attempt → Action σ Unit)}

/-- Walks from one host keep what announcing them keeps. -/
theorem keeps_surveyFrom (h : ∀ a, f.Surveyed a → Action.Keeps I (announce observe a))
    {src : Node β} (hsrc : src ∈ f.hosts) (hedges : src.edges.entries ≠ [])
    {dsts : List (Node β)} (hdsts : ∀ n ∈ dsts, n ∈ f.hosts) (s : Survey) :
    Action.Keeps I (f.surveyFrom observe src s dsts) := by
  have hC := Action.Keeps.compositional (I := I)
  induction dsts generalizing s with
  | nil => exact hC.pure _
  | cons dst rest ih =>
    obtain ⟨hdst, hrest⟩ := List.forall_mem_cons.mp hdsts
    unfold surveyFrom
    by_cases hself : dst.id = src.id
    · rw [if_pos hself]
      exact ih hrest s
    · rw [if_neg hself]
      refine Action.Keeps.ofExcept_bind fun a ha => ?_
      exact hC.bind (h a ⟨src, hsrc, dst, hdst, hedges, hself, ha⟩) fun _ => ih hrest _

/-- Walks from several hosts keep what announcing them keeps. -/
theorem keeps_surveyEach (h : ∀ a, f.Surveyed a → Action.Keeps I (announce observe a))
    {srcs : List (Node β)} (hsrcs : ∀ n ∈ srcs, n ∈ f.hosts) (s : Survey) :
    Action.Keeps I (f.surveyEach observe s srcs) := by
  have hC := Action.Keeps.compositional (I := I)
  induction srcs generalizing s with
  | nil => exact hC.pure _
  | cons src rest ih =>
    obtain ⟨hsrc, hrest⟩ := List.forall_mem_cons.mp hsrcs
    unfold surveyEach
    by_cases hidle : src.edges.entries.isEmpty = true
    · rw [if_pos hidle]
      exact ih hrest s
    · rw [if_neg hidle]
      have hedges : src.edges.entries ≠ [] := fun hnil => hidle (List.isEmpty_iff.mpr hnil)
      exact hC.bind (keeps_surveyFrom h hsrc hedges (fun _ hn => hn) _) fun _ => ih hrest _

/-- A survey keeps what announcing its walks keeps. -/
theorem keeps_survey (h : ∀ a, f.Surveyed a → Action.Keeps I (announce observe a)) :
    Action.Keeps I (f.survey observe) := by
  have hC := Action.Keeps.compositional (I := I)
  rw [survey_eq]
  refine hC.bind (keeps_surveyEach h (fun _ hn => hn) {}) fun s => ?_
  exact hC.bind (hC.say _ _ _) fun _ => hC.pure _

/-! ## What the walks of a wired fabric come to -/

/-- The walk stopped at a node that sends the traffic to a port without a link. -/
def StopsAtPort (f : Fabric β) (dest : NodeId) (stalledAt : Option NodeId) (detail : String) :
    Prop :=
  ∃ v n port, stalledAt = some v ∧ f.nodes.get? v = some n ∧
    f.forwarding n dest = .deadPort port ∧ deadEnd port v = .ok detail

/-- A walk along the links of a wired fabric comes to a dead port in one way only. -/
theorem Wired.follow_deadPort (w : f.Wired) {dst : Node β} {visited : List NodeId} {link : Link β}
    (hlink : f.links.get? link.id = some link)
    {detail : String} (hdetail : (f.follow dst visited link).detail = .ok detail)
    (h : (f.follow dst visited link).status = .deadPort) :
    f.StopsAtPort dst.id (f.follow dst visited link).stalledAt detail := by
  induction visited, link using follow.induct f with
  | case1 visited link ih =>
    obtain ⟨current, hn⟩ := w.link_dest hlink
    rw [follow_known hn] at h hdetail ⊢
    by_cases hseen : link.dest ∈ visited
    · rw [if_pos hseen] at h
      cases h
    · rw [if_neg hseen] at h hdetail ⊢
      by_cases harrived : link.dest = dst.id
      · rw [if_pos harrived] at h
        cases h
      · rw [if_neg harrived] at h hdetail ⊢
        cases hf : f.forwarding current dst.id with
        | noTable =>
          rw [hf] at h
          cases h
        | noEntry =>
          rw [hf] at h
          cases h
        | deadPort port =>
          rw [hf] at hdetail
          exact ⟨link.dest, current, port, rfl, hn, hf, hdetail⟩
        | along next =>
          rw [hf] at h hdetail
          have hid : current.id = link.dest := (w.node_fit hn).id_eq
          have hnext := (egress?_eq_some_iff hn hid next).mpr hf
          exact ih current hn hseen next (w.egress?_indexed hnext) hdetail h

/-- The links of a walk along the links of a wired fabric are indexed and end at known nodes. -/
theorem Wired.follow_links_known (w : f.Wired) (dst : Node β) (visited : List NodeId)
    {link : Link β} (hlink : f.links.get? link.id = some link) :
    ∀ k ∈ (f.follow dst visited link).links,
      ∃ l n, f.links.get? k = some l ∧ f.nodes.get? l.dest = some n := by
  intro k hk
  obtain ⟨steps, hwalked⟩ := w.follow_walked dst visited link hlink
  obtain ⟨l, hl⟩ := w.walked_indexed hwalked hlink hk
  obtain ⟨n, hn⟩ := w.link_dest hl
  exact ⟨l, n, hl, hn⟩

/-- What a walk that leaves through a link of a wired fabric comes to. -/
structure WellWalked (f : Fabric β) (first : Link β) (a : Attempt) : Prop where
  /-- The walk takes the link first. -/
  first_link : a.links.head? = some first.id
  /-- Every link that it takes is indexed and ends at a known node. -/
  link_known : ∀ k ∈ a.links, ∃ l n, f.links.get? k = some l ∧ f.nodes.get? l.dest = some n
  /-- It comes to a dead port at a node that sends the traffic to a port without a link. -/
  dead_port : a.status = .deadPort → f.StopsAtPort a.dest a.stalledAt a.detail

/-- A walk that is reported from a node with an edge leaves through its first link. -/
theorem Wired.trace_wellWalked (w : f.Wired) {src : Node β} (hsrc : f.nodes.get? src.id = some src)
    (hedges : src.edges.entries ≠ []) (dst : Node β) :
    ∃ first, f.firstLink? src = .ok (some first) ∧ ∀ a, f.trace src dst = .ok a →
      a.source = src.id ∧ a.dest = dst.id ∧ f.WellWalked first a := by
  obtain ⟨p, hp⟩ := w.exists_firstPosition hsrc hedges
  obtain ⟨first, hfirst, hlink, -, -⟩ := w.firstLink?_of_position hsrc hp
  refine ⟨first, hfirst, fun a ha => ?_⟩
  obtain ⟨detail, hdetail, rfl⟩ := (trace_eq_ok_iff hfirst dst a).mp ha
  refine ⟨rfl, rfl, ?_, ?_, ?_⟩
  · change (f.follow dst [src.id] first).links.head? = _
    rw [follow]
    rfl
  · exact w.follow_links_known dst [src.id] hlink
  · exact fun hdead => w.follow_deadPort hlink hdetail hdead

/-- A walk of a survey leaves through the first link of its source. -/
theorem Wired.surveyed_wellWalked (w : f.Wired) {a : Attempt} (h : f.Surveyed a) :
    ∃ src dst first, f.nodes.get? a.source = some src ∧ f.nodes.get? a.dest = some dst ∧
      f.firstLink? src = .ok (some first) ∧ f.WellWalked first a := by
  obtain ⟨src, hsrc, dst, hdst, hedges, -, ha⟩ := h
  have hs := w.get?_of_mem_values (List.mem_filter.mp hsrc).1
  have hd := w.get?_of_mem_values (List.mem_filter.mp hdst).1
  obtain ⟨first, hfirst, hwalked⟩ := w.trace_wellWalked hs hedges dst
  obtain ⟨hsource, hdest, hwell⟩ := hwalked a ha
  rw [hsource, hdest]
  exact ⟨src, dst, first, hs, hd, hfirst, hwell⟩

end FabricPaths.Fabric
