import FabricPaths.Proofs.Path.Fate
import FabricPaths.Proofs.Path.Onlookers

/-!
# What a survey records

A survey records the links of complete walks between hosts, and in a wired fabric these are
indexed. It fails only where a walk between two hosts is not reported, or for want of words of
its onlooker.
-/

namespace FabricPaths

variable {β σ : Type}

namespace Fabric

/-- A node of the fabric is a host. -/
def IsHost (f : Fabric β) (id : NodeId) : Prop :=
  ∃ n, f.nodes.get? id = some n ∧ n.isHost = true

/-- A path leads between hosts along indexed links. -/
structure Recordable (f : Fabric β) (source dest : NodeId) (path : Path) : Prop where
  /-- The source is a host. -/
  source_host : f.IsHost source
  /-- The destination is a host. -/
  dest_host : f.IsHost dest
  /-- The links are indexed. -/
  links_indexed : ∀ id ∈ path, ∃ l, f.links.get? id = some l

end Fabric

/-- All recorded paths have a property. -/
def Paths.All (p : Paths) (R : NodeId → NodeId → Path → Prop) : Prop :=
  ∀ source dests, p.get? source = some dests → ∀ dest path, dests.get? dest = some path →
    R source dest path

/-- The paths that are recorded can be. -/
def Paths.Within (p : Paths) (f : Fabric β) : Prop :=
  ∀ source dests, p.get? source = some dests → ∀ dest path, dests.get? dest = some path →
    f.Recordable source dest path

namespace Survey

variable {R : NodeId → NodeId → Path → Prop} {s : Survey}

/-- A host from which no path is known yet adds no path. -/
theorem startFrom_all (h : s.paths.All R) (source : NodeId) : (s.startFrom source).paths.All R := by
  intro source' dests hdests dest path hpath
  change (s.paths.insert source ∅).get? source' = some dests at hdests
  rw [OrderedMap.get?_insert] at hdests
  by_cases hsource : source' = source
  · rw [if_pos hsource] at hdests
    cases hdests
    cases hpath
  · rw [if_neg hsource] at hdests
    exact h source' dests hdests dest path hpath

/-- A complete walk adds its links as a path, and any other walk adds none. -/
theorem add_all (h : s.paths.All R) {a : Attempt}
    (ha : a.isComplete = true → R a.source a.dest a.links) : (s.add a).paths.All R := by
  intro source dests hdests dest path hpath
  unfold Survey.add Survey.keep Survey.count at hdests
  dsimp only at hdests
  by_cases hcomplete : a.isComplete
  · rw [if_pos hcomplete, OrderedMap.get?_modify] at hdests
    by_cases hsource : source = a.source
    · rw [if_pos hsource] at hdests
      obtain ⟨old, hold, rfl⟩ := Option.map_eq_some_iff.mp hdests
      rw [OrderedMap.get?_insert] at hpath
      by_cases hdest : dest = a.dest
      · rw [if_pos hdest] at hpath
        cases hpath
        rw [hsource, hdest]
        exact ha hcomplete
      · rw [if_neg hdest] at hpath
        exact h source old hold dest path hpath
    · rw [if_neg hsource] at hdests
      exact h source dests hdests dest path hpath
  · rw [if_neg hcomplete] at hdests
    exact h source dests hdests dest path hpath

end Survey

namespace Fabric

variable {f : Fabric β}

/-- The links of a walk through a wired fabric are indexed. -/
theorem Wired.walked_indexed (w : f.Wired) {dest : NodeId} {visited : List NodeId} {link : Link β}
    {n : Nat} {c : Course} (h : f.Walked dest visited link n c)
    (hlink : f.links.get? link.id = some link) {k : LinkId} (hk : k ∈ c.links) :
    ∃ l, f.links.get? k = some l := by
  have hin : some k ∈ c.links.map some := List.mem_map_of_mem hk
  rw [h.links] at hin
  rcases List.mem_cons.mp hin with hfirst | hlater
  · cases hfirst
    exact ⟨link, hlink⟩
  · obtain ⟨j, -, hj⟩ := List.mem_map.mp hlater
    obtain ⟨l, hl, hid⟩ := Option.map_eq_some_iff.mp hj
    obtain ⟨v, -, hegress⟩ := Option.bind_eq_some_iff.mp hl
    rw [← hid]
    exact ⟨l, w.egress?_indexed hegress⟩

/-- The walk is one from a host that has an edge to another host. -/
def Surveyed (f : Fabric β) (a : Attempt) : Prop :=
  ∃ src ∈ f.hosts, ∃ dst ∈ f.hosts, src.edges.entries ≠ [] ∧ dst.id ≠ src.id ∧
    f.trace src dst = .ok a

/-- The walk from a host that has an edge to another host is not reported. -/
def Unsurveyed (f : Fabric β) (e : Failure) : Prop :=
  ∃ src ∈ f.hosts, ∃ dst ∈ f.hosts, src.edges.entries ≠ [] ∧ dst.id ≠ src.id ∧
    f.trace src dst = .error e

/-- A walk of a survey of a wired fabric that is not reported comes to a number that is too long to
be written. -/
theorem Wired.eq_numberTooLong (w : f.Wired) {e : Failure} (h : f.Unsurveyed e) :
    e = .numberTooLong := by
  obtain ⟨src, hsrc, dst, -, -, -, he⟩ := h
  exact w.eq_numberTooLong_of_trace (w.get?_of_mem_values (List.mem_filter.mp hsrc).1) he

/-- A walk of a survey of a wired fabric leads along indexed links between hosts. -/
theorem Wired.recordable (w : f.Wired) {a : Attempt} (h : f.Surveyed a) :
    f.Recordable a.source a.dest a.links := by
  obtain ⟨src, hsrc, dst, hdst, -, -, ha⟩ := h
  have hhost : ∀ {n : Node β}, n ∈ f.hosts → f.nodes.get? n.id = some n ∧ n.isHost = true := by
    intro n hn
    obtain ⟨hin, htype⟩ := List.mem_filter.mp hn
    exact ⟨w.get?_of_mem_values hin, htype⟩
  obtain ⟨hs, hsh⟩ := hhost hsrc
  obtain ⟨hd, hdh⟩ := hhost hdst
  have hends : ∀ {path : Path}, (∀ id ∈ path, ∃ l, f.links.get? id = some l) →
      f.Recordable src.id dst.id path := fun hpath => ⟨⟨src, hs, hsh⟩, ⟨dst, hd, hdh⟩, hpath⟩
  rcases w.firstLink?_cases hs with hnone | ⟨first, hsome, hfirst, -⟩
  · obtain ⟨detail, -, rfl⟩ := (trace_eq_ok_iff hnone dst a).mp ha
    exact hends nofun
  · obtain ⟨detail, -, rfl⟩ := (trace_eq_ok_iff hsome dst a).mp ha
    obtain ⟨n, hwalked⟩ := w.follow_walked dst [src.id] first hfirst
    exact hends fun k hk => w.walked_indexed hwalked hfirst hk

/-! ## Paths that are recorded -/

/-- Walks from one host record what complete walks of a survey record. -/
theorem ensures_surveyFrom {R : NodeId → NodeId → Path → Prop}
    (hR : ∀ a, f.Surveyed a → a.isComplete = true → R a.source a.dest a.links)
    (observe : Option (Attempt → Action σ Unit)) {src : Node β} (hsrc : src ∈ f.hosts)
    (hedges : src.edges.entries ≠ []) {dsts : List (Node β)} (hdsts : ∀ n ∈ dsts, n ∈ f.hosts)
    {s : Survey} (hs : s.paths.All R) :
    Action.Ensures (fun s => s.paths.All R) (f.surveyFrom observe src s dsts) := by
  induction dsts generalizing s with
  | nil => exact .pure hs
  | cons dst rest ih =>
    obtain ⟨hdst, hrest⟩ := List.forall_mem_cons.mp hdsts
    unfold surveyFrom
    by_cases hself : dst.id = src.id
    · rw [if_pos hself]
      exact ih hrest hs
    · rw [if_neg hself]
      refine Action.Ensures.ofExcept_bind fun a ha => Action.Ensures.bind_last fun _ => ?_
      exact ih hrest (Survey.add_all hs (hR a ⟨src, hsrc, dst, hdst, hedges, hself, ha⟩))

/-- Walks from several hosts record what complete walks of a survey record. -/
theorem ensures_surveyEach {R : NodeId → NodeId → Path → Prop}
    (hR : ∀ a, f.Surveyed a → a.isComplete = true → R a.source a.dest a.links)
    (observe : Option (Attempt → Action σ Unit)) {srcs : List (Node β)}
    (hsrcs : ∀ n ∈ srcs, n ∈ f.hosts) {s : Survey} (hs : s.paths.All R) :
    Action.Ensures (fun s => s.paths.All R) (f.surveyEach observe s srcs) := by
  induction srcs generalizing s with
  | nil => exact .pure hs
  | cons src rest ih =>
    obtain ⟨hsrc, hrest⟩ := List.forall_mem_cons.mp hsrcs
    unfold surveyEach
    by_cases hidle : src.edges.entries.isEmpty = true
    · rw [if_pos hidle]
      exact ih hrest hs
    · rw [if_neg hidle]
      have hedges : src.edges.entries ≠ [] := fun hnil => hidle (List.isEmpty_iff.mpr hnil)
      have hfrom := ensures_surveyFrom hR observe hsrc hedges (fun _ hn => hn)
        (Survey.startFrom_all hs src.id)
      exact Action.Ensures.bind hfrom fun _ hs' => ih hrest hs'

/-- A survey records what complete walks of a survey record. -/
theorem ensures_survey_all {R : NodeId → NodeId → Path → Prop}
    (hR : ∀ a, f.Surveyed a → a.isComplete = true → R a.source a.dest a.links)
    (observe : Option (Attempt → Action σ Unit)) :
    Action.Ensures (fun s => s.paths.All R) (f.survey observe) := by
  rw [survey_eq]
  have hempty : ({} : Survey).paths.All R := fun _ _ hdests => nomatch hdests
  refine Action.Ensures.bind (ensures_surveyEach hR observe (fun _ hn => hn) hempty) fun s hs => ?_
  exact Action.Ensures.bind_last fun _ => .pure hs

/-- A survey of a wired fabric records paths along indexed links between hosts. -/
theorem Wired.ensures_survey_within (w : f.Wired) (observe : Option (Attempt → Action σ Unit)) :
    Action.Ensures (fun s => s.paths.Within f) (f.survey observe) :=
  ensures_survey_all (fun _ ha _ => w.recordable ha) observe

/-! ## Surveys that fail -/

variable {P : Failure → Prop} {observe : Option (Attempt → Action σ Unit)}

/-- Announcing a walk fails only for want of words. -/
theorem risks_announce (hP : ∀ e, Stammers observe e → P e) (a : Attempt) :
    Action.Risks P (announce observe a) := by
  intro s e he
  rcases announce_cases observe a s with hok | ⟨e', hstammers, herror⟩
  · exact nomatch hok.symm.trans he
  · cases herror.symm.trans he
    exact hP e hstammers

/-- Walks from one host fail as one of them does, or for want of words. -/
theorem risks_surveyFrom (hP : ∀ e, Stammers observe e → P e) (hQ : ∀ e, f.Unsurveyed e → P e)
    {src : Node β} (hsrc : src ∈ f.hosts) (hedges : src.edges.entries ≠ [])
    {dsts : List (Node β)} (hdsts : ∀ n ∈ dsts, n ∈ f.hosts) (s : Survey) :
    Action.Risks P (f.surveyFrom observe src s dsts) := by
  induction dsts generalizing s with
  | nil => exact .pure s
  | cons dst rest ih =>
    obtain ⟨hdst, hrest⟩ := List.forall_mem_cons.mp hdsts
    unfold surveyFrom
    by_cases hself : dst.id = src.id
    · rw [if_pos hself]
      exact ih hrest s
    · rw [if_neg hself]
      refine .ofExcept_bind (fun e he => hQ e ⟨src, hsrc, dst, hdst, hedges, hself, he⟩) ?_
      exact fun a _ => (risks_announce hP a).bind fun _ => ih hrest _

/-- Walks from several hosts fail as one of them does, or for want of words. -/
theorem risks_surveyEach (hP : ∀ e, Stammers observe e → P e) (hQ : ∀ e, f.Unsurveyed e → P e)
    {srcs : List (Node β)} (hsrcs : ∀ n ∈ srcs, n ∈ f.hosts) (s : Survey) :
    Action.Risks P (f.surveyEach observe s srcs) := by
  induction srcs generalizing s with
  | nil => exact .pure s
  | cons src rest ih =>
    obtain ⟨hsrc, hrest⟩ := List.forall_mem_cons.mp hsrcs
    unfold surveyEach
    by_cases hidle : src.edges.entries.isEmpty = true
    · rw [if_pos hidle]
      exact ih hrest s
    · rw [if_neg hidle]
      have hedges : src.edges.entries ≠ [] := fun hnil => hidle (List.isEmpty_iff.mpr hnil)
      exact (risks_surveyFrom hP hQ hsrc hedges (fun _ hn => hn) _).bind fun _ => ih hrest _

/-- A survey fails as one of its walks does, or for want of words. -/
theorem risks_survey (hP : ∀ e, Stammers observe e → P e) (hQ : ∀ e, f.Unsurveyed e → P e) :
    Action.Risks P (f.survey observe) := by
  rw [survey_eq]
  refine (risks_surveyEach hP hQ (fun _ hn => hn) {}).bind fun s => ?_
  exact (Action.Risks.say _ _ _).bind fun _ => .pure s

end Fabric

end FabricPaths
