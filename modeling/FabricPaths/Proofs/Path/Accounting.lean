import Mathlib.Data.List.Flatten
import Mathlib.Data.List.Forall2
import Mathlib.Data.List.Nodup
import FabricPaths.Proofs.Builder.Wiring
import FabricPaths.Proofs.Path.Counting
import FabricPaths.Proofs.Path.Observers
import FabricPaths.Proofs.Path.Survey
import FabricPaths.Proofs.Path.Trail
import FabricPaths.Proofs.Path.Undecorated

/-!
# Surveys account for all pairs of hosts

A survey goes from host to host, and from each host that has an edge it makes a round of walks
to all others. What it comes to is what adding these rounds one after another comes to, whoever
observes it, and an observer is told of each walk of each round in turn. A round adds one row to
the paths, with the complete walks of the round in order, and every walk to the counts.
-/

namespace FabricPaths

/-- The walks from one host. -/
structure Round where
  /-- The host. -/
  source : NodeId
  /-- The walks, in order. -/
  attempts : List Attempt

namespace Round

/-- The ends and links of the complete walks. -/
def found (attempts : List Attempt) : List (NodeId × Path) :=
  (attempts.filter (·.isComplete)).map fun a => (a.dest, a.links)

/-- The walks all start at the host, and each ends elsewhere than the others. -/
structure Orderly (r : Round) : Prop where
  /-- The walks start at the host. -/
  source_eq : ∀ a ∈ r.attempts, a.source = r.source
  /-- They lead to distinct nodes. -/
  nodup_dests : (r.attempts.map (·.dest)).Nodup

/-- One more walk, if it is complete, is found before the others. -/
theorem found_cons (a : Attempt) (as : List Attempt) :
    found (a :: as) = (if a.isComplete then [(a.dest, a.links)] else []) ++ found as := by
  unfold found
  rw [List.filter_cons]
  cases a.isComplete with
  | true => rfl
  | false => rfl

/-- What is found in all rounds is what is found in each. -/
theorem found_flatMap (rs : List Round) :
    found (rs.flatMap (·.attempts)) = rs.flatMap fun r => found r.attempts := by
  unfold found
  rw [List.filter_flatMap, List.map_flatMap]

/-- As many paths are found as walks are complete. -/
theorem length_found (attempts : List Attempt) :
    (found attempts).length = (attempts.map (·.status)).count .complete := by
  unfold found
  rw [List.length_map, ← List.countP_eq_length_filter, List.count_eq_countP, List.countP_map]
  rfl

end Round

/-- The paths row by row: a source with the ends and links of its paths. -/
def Paths.rows (p : Paths) : List (NodeId × List (NodeId × Path)) :=
  p.entries.map fun e => (e.1, e.2.entries)

namespace Paths

variable {p : Paths}

/-- The sources in order. -/
theorem keys_eq_rows (p : Paths) : p.keys = p.rows.map (·.1) := by
  unfold OrderedMap.keys rows
  rw [List.map_map]
  rfl

/-- The paths are as many as there are in all rows. -/
theorem pathCount_eq_rows {β : Type} (f : Fabric β) (p : Paths) :
    (f.withPaths p).pathCount = (p.rows.flatMap (·.2)).length := by
  unfold Fabric.pathCount Fabric.withPaths OrderedMap.values rows
  rw [List.length_flatMap, List.map_map, List.map_map]
  rfl

/-- A path is known just if it is in the row of its source. -/
theorem get?_bind_iff {source dest : NodeId} {path : Path} :
    ((p.get? source).bind fun dests => dests.get? dest) = some path ↔
      ∃ row ∈ p.rows, row.1 = source ∧ (dest, path) ∈ row.2 := by
  constructor
  · intro h
    obtain ⟨dests, hdests, hpath⟩ := Option.bind_eq_some_iff.mp h
    exact ⟨_, List.mem_map_of_mem (OrderedMap.mem_entries_iff.mpr hdests), rfl,
      OrderedMap.mem_entries_iff.mpr hpath⟩
  · rintro ⟨row, hrow, rfl, hpath⟩
    obtain ⟨⟨source, dests⟩, hentry, rfl⟩ := List.mem_map.mp hrow
    exact Option.bind_eq_some_iff.mpr
      ⟨dests, OrderedMap.mem_entries_iff.mp hentry, OrderedMap.mem_entries_iff.mp hpath⟩

end Paths

namespace Survey

/-- Adds walks one after another. -/
def addAll (s : Survey) (attempts : List Attempt) : Survey := attempts.foldl add s

/-- Adds a host and the walks from it. -/
def addRound (s : Survey) (r : Round) : Survey := (s.startFrom r.source).addAll r.attempts

/-- Adds rounds one after another. -/
def addRounds (s : Survey) (rs : List Round) : Survey := rs.foldl addRound s

/-! ## Counts -/

/-- All walks are counted. -/
theorem addAll_counts (s : Survey) (attempts : List Attempt) :
    (s.addAll attempts).counts = s.counts.countAll (attempts.map (·.status)) := by
  induction attempts generalizing s with
  | nil => rfl
  | cons a rest ih => exact ih (s.add a)

/-- The walks of all rounds are counted. -/
theorem addRounds_counts (s : Survey) (rs : List Round) : (s.addRounds rs).counts =
    s.counts.countAll ((rs.flatMap (·.attempts)).map (·.status)) := by
  induction rs generalizing s with
  | nil => rfl
  | cons r rest ih =>
    refine (ih (s.addRound r)).trans ?_
    rw [addRound, addAll_counts, List.flatMap_cons, List.map_append]
    unfold StatusCounts.countAll
    rw [List.foldl_append]
    rfl

/-! ## Paths -/

variable {s : Survey} {es : List (NodeId × OrderedMap NodeId Path)} {m : OrderedMap NodeId Path}

/-- A walk from the last host is added to the row of this host, and to no other row. -/
theorem add_entries {a : Attempt} (h : s.paths.entries = es ++ [(a.source, m)]) :
    (s.add a).paths.entries =
      es ++ [(a.source, if a.isComplete then m.insert a.dest a.links else m)] := by
  unfold add keep
  cases a.isComplete with
  | false => exact h
  | true => exact OrderedMap.entries_modify_of_last h fun dests => dests.insert a.dest a.links

/-- The complete walks of a round are added to the row of the last host, in order. -/
theorem addAll_entries {source : NodeId} {attempts : List Attempt}
    (h : s.paths.entries = es ++ [(source, m)]) (hsource : ∀ a ∈ attempts, a.source = source)
    (hnodup : (attempts.map (·.dest)).Nodup) (hnew : ∀ a ∈ attempts, m.get? a.dest = none) :
    ∃ m', (s.addAll attempts).paths.entries = es ++ [(source, m')] ∧
      m'.entries = m.entries ++ Round.found attempts := by
  induction attempts generalizing s m with
  | nil => exact ⟨m, h, (List.append_nil _).symm⟩
  | cons a rest ih =>
    obtain ⟨ha, hrest⟩ := List.forall_mem_cons.mp hsource
    obtain ⟨hanew, hrestnew⟩ := List.forall_mem_cons.mp hnew
    obtain ⟨hdest, hdests⟩ := List.nodup_cons.mp hnodup
    rw [← ha] at h
    have hadd := add_entries h
    rw [ha] at hadd
    have hstill : ∀ b ∈ rest,
        (if a.isComplete then m.insert a.dest a.links else m).get? b.dest = none := by
      intro b hb
      have hne : b.dest ≠ a.dest := by
        intro heq
        exact hdest (List.mem_map.mpr ⟨b, hb, heq⟩)
      cases a.isComplete with
      | false => exact hrestnew b hb
      | true =>
        rw [if_pos rfl, OrderedMap.get?_insert, if_neg hne]
        exact hrestnew b hb
    obtain ⟨m', hentries, hm'⟩ := ih hadd hrest hdests hstill
    refine ⟨m', hentries, hm'.trans ?_⟩
    rw [Round.found_cons]
    cases a.isComplete with
    | false => rfl
    | true =>
      rw [if_pos rfl, if_pos rfl, OrderedMap.entries_insert_of_new hanew, List.append_assoc]

/-- A round adds a row with what is found in it. -/
theorem addRound_rows {r : Round} (h : r.Orderly) (hnew : r.source ∉ s.paths.keys) :
    (s.addRound r).paths.rows = s.paths.rows ++ [(r.source, Round.found r.attempts)] := by
  have hstart : (s.startFrom r.source).paths.entries = s.paths.entries ++ [(r.source, ∅)] :=
    OrderedMap.place_of_notMem hnew
  obtain ⟨m, hentries, hm⟩ := addAll_entries hstart h.source_eq h.nodup_dests fun _ _ => rfl
  unfold Paths.rows addRound
  rw [hentries, List.map_append, List.map_cons, List.map_nil, hm]
  rfl

/-- Rounds from distinct hosts add a row each. -/
theorem addRounds_rows {rs : List Round} (h : ∀ r ∈ rs, r.Orderly)
    (hnodup : (rs.map (·.source)).Nodup) (hnew : ∀ r ∈ rs, r.source ∉ s.paths.keys) :
    (s.addRounds rs).paths.rows =
      s.paths.rows ++ rs.map fun r => (r.source, Round.found r.attempts) := by
  induction rs generalizing s with
  | nil => exact (List.append_nil _).symm
  | cons r rest ih =>
    obtain ⟨hr, hrest⟩ := List.forall_mem_cons.mp h
    obtain ⟨hrnew, hrestnew⟩ := List.forall_mem_cons.mp hnew
    obtain ⟨hdistinct, hsources⟩ := List.nodup_cons.mp hnodup
    have hround := addRound_rows (s := s) hr hrnew
    have hstill : ∀ r' ∈ rest, r'.source ∉ (s.addRound r).paths.keys := by
      intro r' hr' hin
      rw [Paths.keys_eq_rows, hround, List.map_append, ← Paths.keys_eq_rows] at hin
      rcases List.mem_append.mp hin with hin | hin
      · exact hrestnew r' hr' hin
      · rw [List.map_cons, List.map_nil, List.mem_singleton] at hin
        exact hdistinct (List.mem_map.mpr ⟨r', hr', hin⟩)
    refine (ih hrest hsources hstill).trans ?_
    rw [hround, List.append_assoc]
    rfl

end Survey

namespace Fabric

variable {β σ : Type}

/-! ## A survey makes its rounds -/

/-- What telling of a walk, if anyone is told, leaves of a state. -/
def heard (observe : Option (Attempt → Action σ Unit)) (t : σ) (a : Attempt) : σ :=
  match observe with
  | none => t
  | some tell => (tell a t).state

/-- What announcing a walk leaves is what telling of it leaves, if anyone is told. -/
theorem announce_heard (observe : Option (Attempt → Action σ Unit)) (a : Attempt) (t : σ) :
    (announce observe a t).state = heard observe t a := by
  cases observe with
  | some tell => exact announce_state tell a t
  | none => exact announce_none a t

/-- The hosts that have an edge. -/
def sources (f : Fabric β) : List (Node β) :=
  f.hosts.filter fun src => !src.edges.entries.isEmpty

/-- The walks of a round lead from a host to the others, in order. -/
structure Rounded (f : Fabric β) (src : Node β) (r : Round) : Prop where
  /-- The round is one from the host. -/
  source_eq : r.source = src.id
  /-- It walks to each other host. -/
  walks : List.Forall₂ (fun dst a => f.trace src dst = .ok a)
    (f.hosts.filter fun dst => decide (dst.id ≠ src.id)) r.attempts

variable {f : Fabric β} {observe : Option (Attempt → Action σ Unit)}

/-- There is one round from a host. -/
theorem Rounded.unique {src : Node β} {r r' : Round} (h : f.Rounded src r) (h' : f.Rounded src r') :
    r = r' := by
  have htrace : Relator.RightUnique fun (dst : Node β) (a : Attempt) => f.trace src dst = .ok a :=
    fun _ _ _ ha ha' => Except.ok.inj (ha.symm.trans ha')
  have hattempts := List.right_unique_forall₂' htrace h.walks h'.walks
  have hsource := h.source_eq.trans h'.source_eq.symm
  cases r
  cases r'
  cases hattempts
  cases hsource
  rfl

/-- Walks from one host to others that are all reported are added one after another, and told of
in turn. -/
theorem surveyFrom_run {src : Node β} {dsts : List (Node β)} {s s' : Survey} {t : σ}
    (h : (f.surveyFrom observe src s dsts t).outcome = .ok s') : ∃ attempts,
      List.Forall₂ (fun dst a => f.trace src dst = .ok a)
        (dsts.filter fun dst => decide (dst.id ≠ src.id)) attempts ∧
      s' = s.addAll attempts ∧
      (f.surveyFrom observe src s dsts t).state = attempts.foldl (heard observe) t := by
  induction dsts generalizing s t with
  | nil =>
    cases h
    exact ⟨[], .nil, rfl, rfl⟩
  | cons dst rest ih =>
    unfold surveyFrom at h ⊢
    by_cases hself : dst.id = src.id
    · rw [if_pos hself] at h ⊢
      rw [List.filter_cons_of_neg (by simpa using hself)]
      exact ih h
    · rw [if_neg hself] at h ⊢
      rw [List.filter_cons_of_pos (by simpa using hself)]
      obtain ⟨a, ha, hrest⟩ := Action.bind_outcome_eq_ok_iff.mp h
      obtain ⟨⟨⟩, htold, hrest⟩ := Action.bind_outcome_eq_ok_iff.mp hrest
      obtain ⟨attempts, hwalks, hs', hstate⟩ := ih hrest
      refine ⟨a :: attempts, .cons ha hwalks, hs', ?_⟩
      rw [Action.bind_of_outcome ha, Action.bind_of_outcome htold, List.foldl_cons,
        ← announce_heard]
      exact hstate

/-- Walks from several hosts that are all reported are added round by round, and told of in
turn. -/
theorem surveyEach_run {srcs : List (Node β)} {s s' : Survey} {t : σ}
    (h : (f.surveyEach observe s srcs t).outcome = .ok s') : ∃ rs,
      List.Forall₂ f.Rounded (srcs.filter fun src => !src.edges.entries.isEmpty) rs ∧
      s' = s.addRounds rs ∧ (f.surveyEach observe s srcs t).state =
        (rs.flatMap (·.attempts)).foldl (heard observe) t := by
  induction srcs generalizing s t with
  | nil =>
    cases h
    exact ⟨[], .nil, rfl, rfl⟩
  | cons src rest ih =>
    unfold surveyEach at h ⊢
    by_cases hidle : src.edges.entries.isEmpty = true
    · rw [if_pos hidle] at h ⊢
      rw [List.filter_cons_of_neg (by simpa using hidle)]
      exact ih h
    · rw [if_neg hidle] at h ⊢
      rw [List.filter_cons_of_pos (by simpa using hidle)]
      obtain ⟨between, hfrom, hrest⟩ := Action.bind_outcome_eq_ok_iff.mp h
      obtain ⟨attempts, hwalks, hbetween, hstate⟩ := surveyFrom_run hfrom
      obtain ⟨rs, hrounds, hs', hlast⟩ := ih hrest
      rw [hbetween] at hs'
      refine ⟨⟨src.id, attempts⟩ :: rs, .cons ⟨rfl, hwalks⟩ hrounds, hs', ?_⟩
      rw [Action.bind_of_outcome hfrom, List.flatMap_cons, List.foldl_append, ← hstate]
      exact hlast

/-- A survey that returns adds the rounds of its hosts. -/
theorem survey_run {s : Survey} {t : σ} (h : (f.survey observe t).outcome = .ok s) :
    ∃ rs, List.Forall₂ f.Rounded f.sources rs ∧ s = ({} : Survey).addRounds rs ∧
      (f.survey observe t).state = (rs.flatMap (·.attempts)).foldl (heard observe) t := by
  rw [survey_eq] at h ⊢
  obtain ⟨s', heach, hsaid⟩ := Action.bind_outcome_eq_ok_iff.mp h
  cases hsaid
  obtain ⟨rs, hrounds, hs', hstate⟩ := surveyEach_run heach
  refine ⟨rs, hrounds, hs', ?_⟩
  rw [Action.bind_of_outcome heach, ← hstate]
  rfl

/-- The pairs are those of two different hosts of which the first has an edge. -/
theorem mem_hostPairs {hosts : List (Node β)} {src dst : Node β} :
    (src, dst) ∈ hostPairs hosts ↔
      src ∈ hosts ∧ dst ∈ hosts ∧ dst.id ≠ src.id ∧ src.edges.entries ≠ [] := by
  unfold hostPairs
  simp only [List.mem_flatMap, List.mem_map, List.mem_filter, Prod.mk.injEq, decide_eq_true_eq,
    Bool.not_eq_true', List.isEmpty_eq_false_iff]
  constructor
  · rintro ⟨_, ⟨hsrc, hedges⟩, _, ⟨hdst, hne⟩, rfl, rfl⟩
    exact ⟨hsrc, hdst, hne, hedges⟩
  · rintro ⟨hsrc, hdst, hne, hedges⟩
    exact ⟨src, ⟨hsrc, hedges⟩, dst, ⟨hdst, hne⟩, rfl, rfl⟩

/-- The pairs come in the order of the hosts. -/
theorem hostPairs_sublist (hosts : List (Node β)) :
    (hostPairs hosts).Sublist (hosts.product hosts) := by
  have hdsts : ∀ src : Node β, List.Sublist
      ((hosts.filter fun dst => decide (dst.id ≠ src.id)).map fun dst => (src, dst))
      (hosts.map (Prod.mk src)) := fun src => List.filter_sublist.map _
  exact (List.Sublist.flatMap_right _ fun src _ => hdsts src).trans
    (List.filter_sublist.flatMap _)

/-- Parts of one length are together as long as one of them times their number. -/
theorem length_flatMap_of_forall {α γ : Type} {xs : List α} {f : α → List γ} {n : Nat}
    (h : ∀ x ∈ xs, (f x).length = n) : (xs.flatMap f).length = xs.length * n := by
  induction xs with
  | nil => exact (Nat.zero_mul n).symm
  | cons x xs ih =>
    obtain ⟨hx, hxs⟩ := List.forall_mem_cons.mp h
    rw [List.flatMap_cons, List.length_append, hx, ih hxs, List.length_cons, Nat.succ_mul,
      Nat.add_comm]

/-- Each host that has an edge is paired with all hosts but itself. -/
theorem length_hostPairs {hosts : List (Node β)} (h : (hosts.map (·.id)).Nodup) :
    (hostPairs hosts).length =
      (hosts.filter fun src => !src.edges.entries.isEmpty).length * (hosts.length - 1) := by
  have hothers : ∀ src ∈ hosts,
      (hosts.filter fun dst => decide (dst.id ≠ src.id)).length = hosts.length - 1 := by
    intro src hsrc
    have hid : src.id ∈ hosts.map (·.id) := List.mem_map_of_mem hsrc
    have hrest := List.length_erase_of_mem hid
    rw [h.erase_eq_filter, List.filter_map, List.length_map, List.length_map] at hrest
    rw [← hrest]
    congr 2
    funext dst
    rw [Function.comp_apply, bne, decide_not, beq_eq_decide]
  refine length_flatMap_of_forall fun src hsrc => ?_
  rw [List.length_map]
  exact hothers src (List.mem_filter.mp hsrc).1

/-- The number of pairs of hosts of a wired fabric. -/
theorem Wired.length_pairs {f : Fabric β} (w : f.Wired) : ((hostPairs f.hosts).length : Int) =
    f.sources.length * ((f.hosts.length : Int) - 1) := by
  rw [length_hostPairs w.nodup_host_ids]
  change ((f.sources.length * (f.hosts.length - 1) : Nat) : Int) = _
  cases hhosts : f.hosts with
  | nil =>
    have hnone : f.sources = [] := by
      rw [sources, hhosts]
      rfl
    rw [hnone]
    rfl
  | cons n rest =>
    have hothers : (((n :: rest).length : Nat) : Int) - 1 = (rest.length : Nat) := by
      rw [List.length_cons]
      omega
    rw [hothers, Int.natCast_mul]
    rfl

/-! ## What the rounds come to -/

/-- The survey accounts for the walks between all pairs of hosts. -/
structure Accounts (f : Fabric β) (s : Survey) (attempts : List Attempt) : Prop where
  /-- The pairs are those of two distinct hosts of which the first has an edge. -/
  pairs : ∀ src dst, (src, dst) ∈ hostPairs f.hosts ↔
    src ∈ f.hosts ∧ dst ∈ f.hosts ∧ src ≠ dst ∧ src.edges.entries ≠ []
  /-- No pair comes twice. -/
  once : (hostPairs f.hosts).Nodup
  /-- The pairs come in the order of the nodes. -/
  ordered : (hostPairs f.hosts).Sublist (f.hosts.product f.hosts)
  /-- There is one walk for each pair, in order. -/
  walks : List.Forall₂ (fun ends a => f.trace ends.1 ends.2 = .ok a) (hostPairs f.hosts) attempts
  /-- Each way to end has the number of walks that ended so, if any did. -/
  counted : ∀ status, s.counts.get? status =
    if (attempts.map (·.status)).count status = 0 then none
    else some ((attempts.map (·.status)).count status : Int)
  /-- The counts add up to the number of pairs. -/
  total : s.counts.total = f.sources.length * ((f.hosts.length : Int) - 1)
  /-- There is a row of paths for each host that has an edge, in order. -/
  rows : s.paths.keys = f.sources.map (·.id)
  /-- The paths are the links of the complete walks. -/
  recorded : ∀ source dest path, (f.withPaths s.paths).path? source dest = some path ↔
    ∃ src dst a, (src, dst) ∈ hostPairs f.hosts ∧ src.id = source ∧ dst.id = dest ∧
      f.trace src dst = .ok a ∧ a.status = .complete ∧ a.links = path
  /-- The paths are as many as the walks that were counted as complete. -/
  path_count : ((f.withPaths s.paths).pathCount : Int) = s.counts.complete

/-- Members of the second list are related to members of the first. -/
theorem exists_of_forall₂ {α γ : Type} {R : α → γ → Prop} {xs : List α} {ys : List γ}
    (h : List.Forall₂ R xs ys) {y : γ} (hy : y ∈ ys) : ∃ x ∈ xs, R x y := by
  induction h with
  | nil => cases hy
  | cons hxy _ ih =>
    rcases List.mem_cons.mp hy with rfl | hy
    · exact ⟨_, List.mem_cons_self, hxy⟩
    · obtain ⟨x, hx, hxy⟩ := ih hy
      exact ⟨x, List.mem_cons_of_mem _ hx, hxy⟩

/-- What related members tell alike, the lists tell alike. -/
theorem map_eq_of_forall₂ {α γ δ : Type} {R : α → γ → Prop} {xs : List α} {ys : List γ}
    {p : α → δ} {q : γ → δ} (h : List.Forall₂ R xs ys) (hR : ∀ x y, R x y → q y = p x) :
    ys.map q = xs.map p := by
  induction h with
  | nil => rfl
  | cons hxy _ ih => rw [List.map_cons, List.map_cons, hR _ _ hxy, ih]

namespace Wired

variable {f : Fabric β} {rs : List Round}

/-- A round of a wired fabric walks from its host to distinct nodes. -/
theorem orderly (w : f.Wired) {src : Node β} {r : Round} (h : f.Rounded src r) : r.Orderly where
  source_eq := by
    intro a ha
    obtain ⟨dst, -, htrace⟩ := exists_of_forall₂ h.walks ha
    rw [h.source_eq]
    exact (trace_ends htrace).1
  nodup_dests := by
    have hdests : r.attempts.map (·.dest) =
        (f.hosts.filter fun dst => decide (dst.id ≠ src.id)).map (·.id) :=
      map_eq_of_forall₂ h.walks fun dst a htrace => (trace_ends htrace).2
    rw [hdests]
    exact (List.filter_sublist.map _).nodup w.nodup_host_ids

/-- The rounds of all hosts give a row for each. -/
theorem rows_of_rounds (w : f.Wired) (h : List.Forall₂ f.Rounded f.sources rs) :
    (({} : Survey).addRounds rs).paths.rows =
      rs.map fun r => (r.source, Round.found r.attempts) := by
  have hsources : rs.map (·.source) = f.sources.map (·.id) :=
    map_eq_of_forall₂ h fun src r hr => hr.source_eq
  refine Survey.addRounds_rows (s := {}) ?_ ?_ fun _ _ => List.not_mem_nil
  · intro r hr
    obtain ⟨src, -, hrounded⟩ := exists_of_forall₂ h hr
    exact w.orderly hrounded
  · rw [hsources]
    exact (List.filter_sublist.map _).nodup w.nodup_host_ids

/-- The walks of the rounds of all hosts are those between the pairs. -/
theorem walks_of_rounds (h : List.Forall₂ f.Rounded f.sources rs) :
    List.Forall₂ (fun ends a => f.trace ends.1 ends.2 = .ok a) (hostPairs f.hosts)
      (rs.flatMap (·.attempts)) :=
  List.rel_flatMap h fun _ _ hr => List.forall₂_map_left_iff.mpr hr.walks

/-- A path is recorded just if the walk between its ends is complete, and has its links. -/
theorem recorded_of_rounds (w : f.Wired) (h : List.Forall₂ f.Rounded f.sources rs)
    (source dest : NodeId) (path : Path) :
    (f.withPaths (({} : Survey).addRounds rs).paths).path? source dest = some path ↔
      ∃ src dst a, (src, dst) ∈ hostPairs f.hosts ∧ src.id = source ∧ dst.id = dest ∧
        f.trace src dst = .ok a ∧ a.status = .complete ∧ a.links = path := by
  have hrows : (f.withPaths (({} : Survey).addRounds rs).paths).paths.rows =
      rs.map fun r => (r.source, Round.found r.attempts) := w.rows_of_rounds h
  refine Paths.get?_bind_iff.trans ?_
  rw [hrows]
  have hwalks := walks_of_rounds h
  constructor
  · rintro ⟨row, hrow, hsource, hpath⟩
    obtain ⟨r, hr, rfl⟩ := List.mem_map.mp hrow
    obtain ⟨a, ha, hfound⟩ := List.mem_map.mp hpath
    obtain ⟨ha, hcomplete⟩ := List.mem_filter.mp ha
    cases hfound
    obtain ⟨⟨src, dst⟩, hpair, htrace⟩ :=
      exists_of_forall₂ hwalks (List.mem_flatMap.mpr ⟨r, hr, ha⟩)
    obtain ⟨shost, -, hrounded⟩ := exists_of_forall₂ h hr
    obtain ⟨hs, hd⟩ := trace_ends htrace
    refine ⟨src, dst, a, hpair, ?_, hd.symm, htrace, of_decide_eq_true hcomplete, rfl⟩
    rw [← hs, ← hsource]
    exact (w.orderly hrounded).source_eq a ha
  · rintro ⟨src, dst, a, hpair, rfl, rfl, htrace, hcomplete, rfl⟩
    obtain ⟨a', ha', htrace'⟩ := exists_of_forall₂ hwalks.flip hpair
    cases htrace.symm.trans htrace'
    obtain ⟨r, hr, ha⟩ := List.mem_flatMap.mp ha'
    obtain ⟨shost, -, hrounded⟩ := exists_of_forall₂ h hr
    obtain ⟨hs, hd⟩ := trace_ends htrace
    refine ⟨_, List.mem_map_of_mem hr, ?_, ?_⟩
    · rw [← hs]
      exact ((w.orderly hrounded).source_eq a ha).symm
    · rw [← hd]
      exact List.mem_map.mpr ⟨a, List.mem_filter.mpr ⟨ha, decide_eq_true hcomplete⟩, rfl⟩

/-- The rounds of all hosts account for the walks between all pairs of hosts. -/
theorem accounts (w : f.Wired) (h : List.Forall₂ f.Rounded f.sources rs) :
    f.Accounts (({} : Survey).addRounds rs) (rs.flatMap (·.attempts)) := by
  have hwalks := walks_of_rounds h
  have hcounts := Survey.addRounds_counts {} rs
  constructor
  case pairs =>
    intro src dst
    rw [mem_hostPairs]
    constructor
    · rintro ⟨hsrc, hdst, hne, hedges⟩
      refine ⟨hsrc, hdst, ?_, hedges⟩
      rintro rfl
      exact hne rfl
    · rintro ⟨hsrc, hdst, hne, hedges⟩
      refine ⟨hsrc, hdst, fun hid => hne ?_, hedges⟩
      exact (List.inj_on_of_nodup_map w.nodup_host_ids hdst hsrc hid).symm
  case once =>
    have hnodup := w.nodup_host_ids.of_map
    exact (hostPairs_sublist f.hosts).nodup (hnodup.product hnodup)
  case ordered => exact hostPairs_sublist f.hosts
  case walks => exact hwalks
  case counted =>
    intro status
    rw [hcounts, StatusCounts.get?_countAll]
    split
    · rfl
    · exact congrArg some (Int.zero_add _)
  case total =>
    rw [hcounts, StatusCounts.total_countAll, List.length_map, ← hwalks.length_eq, w.length_pairs]
    exact Int.zero_add _
  case rows =>
    rw [Paths.keys_eq_rows, w.rows_of_rounds h, List.map_map]
    exact map_eq_of_forall₂ h fun src r hr => hr.source_eq
  case recorded => exact w.recorded_of_rounds h
  case path_count =>
    have hfound : (rs.map fun r => (r.source, Round.found r.attempts)).flatMap (·.2) =
        Round.found (rs.flatMap (·.attempts)) := by
      rw [List.flatMap_map, Round.found_flatMap]
    rw [Paths.pathCount_eq_rows, w.rows_of_rounds h, hfound, Round.length_found, hcounts,
      StatusCounts.complete, StatusCounts.getD_countAll]
    exact (Int.zero_add _).symm

end Wired

/-- A survey of a wired fabric accounts for the walks between all pairs of hosts. -/
theorem Wired.exists_accounts {f : Fabric β} (w : f.Wired)
    {observe : Option (Attempt → Action σ Unit)} {s : Survey} {t : σ}
    (h : (f.survey observe t).outcome = .ok s) : ∃ attempts, f.Accounts s attempts := by
  obtain ⟨rs, hrounds, rfl, -⟩ := survey_run h
  exact ⟨_, w.accounts hrounds⟩

section Building

variable [Memory] [Bandwidth β]

end Building

end Fabric

end FabricPaths
