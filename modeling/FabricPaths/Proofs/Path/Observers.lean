import FabricPaths.Proofs.Action.Parallel
import FabricPaths.Proofs.Path.Onlookers

/-!
# Surveys whoever observes them

Two surveys of one fabric come to the same if what is done with each walk does, so it makes no
difference who is shown the walks, as long as the observers fail in words only and leave the paths
alone that the walks give.
-/

namespace FabricPaths

variable {β σ τ : Type}

/-- The path that a walk gives: its ends and its links, if it is complete. -/
def Attempt.path? (a : Attempt) : Option (NodeId × NodeId × List LinkId) :=
  if a.isComplete then some (a.source, a.dest, a.links) else none

/-- The observer leaves the paths alone that the walks give, and fails in words only. -/
structure WalkObserver.Discreet (observer : WalkObserver σ) : Prop where
  /-- A failure of the observer can be put into words. -/
  words : ∀ s a e, (observer (s, a)).outcome = .error e → e.HasWords
  /-- A walk gives the path that it gave before it was shown. -/
  leaves : ∀ s a, (observer (s, a)).state.2.path? = a.path?

/-- Two walks give the same path. -/
def Attempt.SamePath (a b : Attempt) : Prop := a.path? = b.path?

/-- Walks that give the same path are kept as the same path. -/
theorem Survey.keep_congr {a b : Attempt} (h : a.SamePath b) (s : Survey) (source dest : NodeId) :
    s.keep source dest a = s.keep source dest b := by
  unfold Attempt.SamePath Attempt.path? at h
  unfold Survey.keep
  cases ha : a.isComplete with
  | true =>
    cases hb : b.isComplete with
    | true =>
      rw [ha, hb, if_pos rfl, if_pos rfl, Option.some.injEq, Prod.mk.injEq, Prod.mk.injEq] at h
      rw [h.2.2]
    | false =>
      rw [ha, hb] at h
      cases h
  | false =>
    cases hb : b.isComplete with
    | true =>
      rw [ha, hb] at h
      cases h
    | false => rfl

namespace Fabric

open FabricPaths.Action (Parallel)

variable {R : σ → τ → Prop} {loose : Prop}

/-- What a discreet observer leaves of a walk gives the path of the walk. -/
theorem showTo_outcome {observer : WalkObserver σ} (h : observer.Discreet) (a : Attempt) (s : σ) :
    ∃ left, (showTo observer a s).outcome = .ok left ∧ left.SamePath a := by
  refine ⟨(observer (s, a)).state.2, ?_, h.leaves s a⟩
  unfold showTo
  have hshown : (observer.shown a s).outcome =
      .ok ((observer (s, a)).outcome, (observer (s, a)).state.2) := rfl
  rw [Action.bind_of_outcome hshown]
  cases houtcome : (observer (s, a)).outcome with
  | ok _ => rfl
  | error e =>
    obtain ⟨text, htext⟩ := h.words s a e houtcome
    dsimp only
    rw [htext]
    rfl

/-- What discreet observers leave of a walk gives the path of the walk. -/
theorem present_outcome {observe : Option (WalkObserver σ)} (h : ∀ o ∈ observe, o.Discreet)
    (a : Attempt) (s : σ) : ∃ left, (present observe a s).outcome = .ok left ∧ left.SamePath a := by
  unfold present
  cases observe with
  | none =>
    cases a.isComplete with
    | true => exact ⟨a, rfl, rfl⟩
    | false => exact ⟨a, rfl, rfl⟩
  | some observer =>
    have hshown := showTo_outcome (h observer rfl) a s
    cases a.isComplete with
    | true => exact hshown
    | false => exact hshown

/-- Walks from one host come to the same if what is done with each does. -/
theorem parallel_walkFrom (f : Fabric β) {observe : Option (WalkObserver σ)}
    {observe' : Option (WalkObserver τ)}
    (h : ∀ a, Parallel R loose Attempt.SamePath (present observe a) (present observe' a))
    (src : Node β) (s : Survey) (dsts : List (Node β)) :
    Parallel R loose Eq (f.walkFrom observe src s dsts) (f.walkFrom observe' src s dsts) := by
  induction dsts generalizing s with
  | nil => exact .pure rfl
  | cons dst rest ih =>
    unfold walkFrom
    by_cases hself : dst.id = src.id
    · rw [if_pos hself, if_pos hself]
      exact ih s
    · rw [if_neg hself, if_neg hself]
      refine (Parallel.ofExcept (f.trace src dst)).bind ?_
      rintro a _ rfl
      refine (h a).bind fun left left' hleft => ?_
      rw [Survey.keep_congr hleft]
      exact ih _

/-- Walks from several hosts come to the same if what is done with each does. -/
theorem parallel_walkEach (f : Fabric β) {observe : Option (WalkObserver σ)}
    {observe' : Option (WalkObserver τ)}
    (h : ∀ a, Parallel R loose Attempt.SamePath (present observe a) (present observe' a))
    (s : Survey) (srcs : List (Node β)) :
    Parallel R loose Eq (f.walkEach observe s srcs) (f.walkEach observe' s srcs) := by
  induction srcs generalizing s with
  | nil => exact .pure rfl
  | cons src rest ih =>
    unfold walkEach
    by_cases hidle : src.edges.entries.isEmpty = true
    · rw [if_pos hidle, if_pos hidle]
      exact ih s
    · rw [if_neg hidle, if_neg hidle]
      refine (f.parallel_walkFrom h src (s.startFrom src.id) f.hosts).bind ?_
      rintro s' _ rfl
      exact ih s'

/-- All walks come to the same if what is done with each does, whatever the walkers had counted
before. -/
theorem parallel_walkAll (f : Fabric β) {observe : Option (WalkObserver σ)}
    {observe' : Option (WalkObserver τ)}
    (h : ∀ a, Parallel R loose Attempt.SamePath (present observe a) (present observe' a))
    (kept kept' : StatusCounts) :
    Parallel R loose Eq (f.walkAll observe kept) (f.walkAll observe' kept') := by
  unfold walkAll
  refine (f.parallel_walkEach h { counts := kept.clear } f.hosts).bind ?_
  rintro s _ rfl
  have hsay : ∀ text, Parallel R loose Eq (Action.say .info Log.walker text : Action σ Unit)
      (Action.say .info Log.walker text : Action τ Unit) := fun _ _ _ hst => .ok rfl hst
  exact (hsay _).bind fun _ _ _ => .pure rfl

/-- A survey comes to the same if announcing its walks does. -/
theorem parallel_survey (f : Fabric β) {observe : Option (Attempt → Action σ Unit)}
    {observe' : Option (Attempt → Action τ Unit)}
    (h : ∀ a, Parallel R loose Eq (announce observe a) (announce observe' a)) :
    Parallel R loose Eq (f.survey observe) (f.survey observe') := by
  refine f.parallel_walkAll (fun a => ?_) ∅ ∅
  rw [present_onlooker, present_onlooker]
  exact (h a).bind fun _ _ _ => .pure (Eq.refl a.path?)

/-- All walks come to the same, whichever discreet observer is shown them and in whatever state,
and whatever the walkers had counted before. -/
theorem walkAll_outcome (f : Fabric β) {observe : Option (WalkObserver σ)}
    {observe' : Option (WalkObserver τ)} (h : ∀ o ∈ observe, o.Discreet)
    (h' : ∀ o ∈ observe', o.Discreet) (kept kept' : StatusCounts) (s : σ) (t : τ) :
    (f.walkAll observe kept s).outcome = (f.walkAll observe' kept' t).outcome := by
  have hpresent : ∀ a, Parallel (fun _ _ => True) False Attempt.SamePath (present observe a)
      (present observe' a) := by
    intro a s t _
    obtain ⟨left, hleft, hsame⟩ := present_outcome h a s
    obtain ⟨left', hleft', hsame'⟩ := present_outcome h' a t
    exact .of_outcomes hleft hleft' (hsame.trans hsame'.symm) trivial
  exact (f.parallel_walkAll hpresent kept kept' s t trivial).outcome_eq

/-- Walks from one host that are all made and told of come to what they come to untold. -/
theorem surveyFrom_untold {f : Fabric β} {observe : Option (Attempt → Action σ Unit)}
    {src : Node β} {dsts : List (Node β)} {s s' : Survey} {t : σ}
    (h : (f.surveyFrom observe src s dsts t).outcome = .ok s') (u : τ) :
    (f.surveyFrom none src s dsts u).outcome = .ok s' := by
  have hnone : Articulate (none : Option (Attempt → Action τ Unit)) :=
    fun tell htell => absurd htell (Option.not_mem_none tell)
  induction dsts generalizing s t u with
  | nil => exact h
  | cons dst rest ih =>
    unfold surveyFrom at h ⊢
    by_cases hself : dst.id = src.id
    · rw [if_pos hself] at h ⊢
      exact ih h u
    · rw [if_neg hself] at h ⊢
      obtain ⟨a, ha, hrest⟩ := Action.bind_outcome_eq_ok_iff.mp h
      obtain ⟨⟨⟩, -, hrest⟩ := Action.bind_outcome_eq_ok_iff.mp hrest
      refine Action.bind_outcome_eq_ok_iff.mpr ⟨a, ha, Action.bind_outcome_eq_ok_iff.mpr ?_⟩
      exact ⟨(), announce_outcome hnone a _, ih hrest _⟩

/-- Walks from several hosts that are all made and told of come to what they come to untold. -/
theorem surveyEach_untold {f : Fabric β} {observe : Option (Attempt → Action σ Unit)}
    {srcs : List (Node β)} {s s' : Survey} {t : σ}
    (h : (f.surveyEach observe s srcs t).outcome = .ok s') (u : τ) :
    (f.surveyEach none s srcs u).outcome = .ok s' := by
  induction srcs generalizing s t u with
  | nil => exact h
  | cons src rest ih =>
    unfold surveyEach at h ⊢
    by_cases hidle : src.edges.entries.isEmpty = true
    · rw [if_pos hidle] at h ⊢
      exact ih h u
    · rw [if_neg hidle] at h ⊢
      obtain ⟨between, hfrom, hrest⟩ := Action.bind_outcome_eq_ok_iff.mp h
      exact Action.bind_outcome_eq_ok_iff.mpr
        ⟨between, surveyFrom_untold hfrom u, ih hrest _⟩

/-- A survey that returns comes to what it comes to when nobody is told of it. -/
theorem survey_untold {f : Fabric β} {observe : Option (Attempt → Action σ Unit)} {s : Survey}
    {t : σ} (h : (f.survey observe t).outcome = .ok s) (u : τ) :
    (f.survey none u).outcome = .ok s := by
  rw [survey_eq] at h ⊢
  obtain ⟨s', heach, hsaid⟩ := Action.bind_outcome_eq_ok_iff.mp h
  exact Action.bind_outcome_eq_ok_iff.mpr ⟨s', surveyEach_untold heach u, hsaid⟩

end Fabric

end FabricPaths
