import FabricPaths.Path.AllPairs
import FabricPaths.Proofs.Action
import FabricPaths.Proofs.Path.Walk

/-!
# Surveys before onlookers

An onlooker is told of the walks of a survey and leaves them alone. So a survey before an onlooker
goes from host to host, announces each walk and adds it to what it has come to. It is stopped
by a walk that cannot be told, and by an onlooker that fails without words.
-/

namespace FabricPaths

variable {β σ : Type}

/-- Counts a walk and, if it is complete, keeps its links as a path. -/
def Survey.add (s : Survey) (a : Attempt) : Survey := (s.count a.status).keep a.source a.dest a

namespace Fabric

/-- Tells an onlooker of a walk; a failure of the onlooker is logged. -/
def tellOf (tell : Attempt → Action σ Unit) (a : Attempt) : Action σ Unit :=
  Action.reporting .debug Log.walker (fun text => s!"Path callback error: {text}") (tell a)

/-- Tells the onlooker of a walk, if there is one. -/
def tellAny (observe : Option (Attempt → Action σ Unit)) (a : Attempt) : Action σ Unit :=
  match observe with
  | none => pure ()
  | some tell => tellOf tell a

/-- Reports a walk and tells the onlooker of it, if there is one. -/
def announce (observe : Option (Attempt → Action σ Unit)) (a : Attempt) : Action σ Unit := do
  if !a.isComplete then Action.say .debug Log.walker (shortfall a)
  tellAny observe a

/-- The onlooker, if there is one, fails in words only. -/
def Articulate (observe : Option (Attempt → Action σ Unit)) : Prop :=
  ∀ tell ∈ observe, ∀ a s e, (tell a s).outcome = .error e → e.HasWords

/-- The onlooker may fail without words, and this is what comes of asking for them. -/
def Stammers (observe : Option (Attempt → Action σ Unit)) (e : Failure) : Prop :=
  ∃ tell ∈ observe, ∃ a s failure, (tell a s).outcome = .error failure ∧
    failure.words = .error e

/-- Walks from one host to others before an onlooker. -/
def surveyFrom (f : Fabric β) (observe : Option (Attempt → Action σ Unit)) (src : Node β)
    (s : Survey) : List (Node β) → Action σ Survey
  | [] => pure s
  | dst :: rest =>
    if dst.id = src.id then f.surveyFrom observe src s rest
    else do
      let a ← Action.ofExcept (f.trace src dst)
      announce observe a
      f.surveyFrom observe src (s.add a) rest

/-- Walks from several hosts to all other hosts before an onlooker. -/
def surveyEach (f : Fabric β) (observe : Option (Attempt → Action σ Unit)) (s : Survey) :
    List (Node β) → Action σ Survey
  | [] => pure s
  | src :: rest =>
    if src.edges.entries.isEmpty then f.surveyEach observe s rest
    else do
      f.surveyEach observe (← f.surveyFrom observe src (s.startFrom src.id) f.hosts) rest

/-- An onlooker who is told of a walk leaves the walk as it was. -/
theorem showTo_onlooker (tell : Attempt → Action σ Unit) (a : Attempt) :
    showTo (.onlooker tell) a = tellOf tell a >>= fun _ => pure a := by
  funext s
  rcases hr : tell a s with ⟨outcome, t, log⟩
  have hshown : (WalkObserver.onlooker tell).shown a s = ⟨.ok (outcome, a), t, log⟩ := by
    change (⟨.ok ((tell a s).outcome, a), (tell a s).state, (tell a s).log⟩ : Run σ _) = _
    rw [hr]
  have hattempt : Action.attempt (tell a) s = ⟨.ok outcome, t, log⟩ := by
    change (⟨.ok (tell a s).outcome, (tell a s).state, (tell a s).log⟩ : Run σ _) = _
    rw [hr]
  unfold showTo tellOf Action.reporting
  rw [Action.bind_bind, Action.bind_of_ok hshown, Action.bind_of_ok hattempt]
  cases outcome with
  | ok _ => rfl
  | error e =>
    dsimp only
    cases e.words with
    | ok text => rfl
    | error e' => rfl

/-- An onlooker leaves a walk as it was announced. -/
theorem present_onlooker (observe : Option (Attempt → Action σ Unit)) (a : Attempt) :
    present (observe.map .onlooker) a = announce observe a >>= fun _ => pure a := by
  have hsaid := Action.bind_bind (Action.say .debug Log.walker (shortfall a))
    (fun _ => tellAny observe a) (fun _ => pure a)
  unfold present announce
  cases observe with
  | none =>
    cases a.isComplete with
    | true => rfl
    | false => exact hsaid.symm
  | some tell =>
    have hshown := showTo_onlooker tell a
    cases a.isComplete with
    | true => exact hshown
    | false =>
      refine Eq.trans ?_ hsaid.symm
      exact congrArg (fun x => Action.say .debug Log.walker (shortfall a) >>= fun _ => x) hshown

/-- Announcing a walk is to report it and to tell of it. -/
theorem announce_run (observe : Option (Attempt → Action σ Unit)) (a : Attempt) (s : σ) :
    (announce observe a s).outcome = (tellAny observe a s).outcome ∧
      (announce observe a s).state = (tellAny observe a s).state := by
  unfold announce
  cases a.isComplete with
  | true => exact ⟨rfl, rfl⟩
  | false => exact ⟨rfl, rfl⟩

/-- Announcing a walk ends well unless the onlooker fails without words. -/
theorem announce_cases (observe : Option (Attempt → Action σ Unit)) (a : Attempt) (s : σ) :
    (announce observe a s).outcome = .ok () ∨
      ∃ e, Stammers observe e ∧ (announce observe a s).outcome = .error e := by
  rw [(announce_run observe a s).1]
  cases observe with
  | none => exact .inl rfl
  | some tell =>
    refine (Action.reporting_run _ _ _ (tell a) s).2.imp id ?_
    rintro ⟨failure, e, htell, hwords, houtcome⟩
    exact ⟨e, ⟨tell, rfl, a, s, failure, htell, hwords⟩, houtcome⟩

/-- An onlooker who fails in words only never stammers. -/
theorem Articulate.not_stammers {observe : Option (Attempt → Action σ Unit)}
    (h : Articulate observe) {e : Failure} : ¬ Stammers observe e := by
  rintro ⟨tell, htell, a, s, failure, houtcome, hwords⟩
  obtain ⟨text, htext⟩ := h tell htell a s failure houtcome
  rw [hwords] at htext
  cases htext

/-- Announcing a walk ends well before an onlooker who fails in words only. -/
theorem announce_outcome {observe : Option (Attempt → Action σ Unit)} (h : Articulate observe)
    (a : Attempt) (s : σ) : (announce observe a s).outcome = .ok () := by
  rcases announce_cases observe a s with hok | ⟨e, hstammers, -⟩
  · exact hok
  · exact absurd hstammers h.not_stammers

/-- Announcing a walk leaves what telling of it leaves. -/
theorem announce_state (tell : Attempt → Action σ Unit) (a : Attempt) (s : σ) :
    (announce (some tell) a s).state = (tell a s).state :=
  (announce_run (some tell) a s).2.trans (Action.reporting_run _ _ _ (tell a) s).1

/-- Announcing a walk to nobody leaves everything. -/
theorem announce_none (a : Attempt) (s : σ) : (announce none a s).state = s :=
  (announce_run none a s).2

/-- Walks from one host before an onlooker are announced and added. -/
theorem walkFrom_onlooker (f : Fabric β) (observe : Option (Attempt → Action σ Unit))
    (src : Node β) (s : Survey) (dsts : List (Node β)) :
    f.walkFrom (observe.map .onlooker) src s dsts = f.surveyFrom observe src s dsts := by
  induction dsts generalizing s with
  | nil => rfl
  | cons dst rest ih =>
    unfold walkFrom surveyFrom
    by_cases hself : dst.id = src.id
    · rw [if_pos hself, if_pos hself, ih]
    · rw [if_neg hself, if_neg hself]
      cases htrace : f.trace src dst with
      | error e => rfl
      | ok a =>
        obtain ⟨hsource, hdest⟩ := trace_ends htrace
        funext t
        rw [Action.ofExcept_ok_bind, Action.ofExcept_ok_bind, present_onlooker, Action.bind_bind,
          Survey.add, hsource, hdest]
        exact congrArg (fun later => (announce observe a >>= later) t) (funext fun _ => ih _)

/-- Walks from several hosts before an onlooker are announced and added. -/
theorem walkEach_onlooker (f : Fabric β) (observe : Option (Attempt → Action σ Unit))
    (s : Survey) (srcs : List (Node β)) :
    f.walkEach (observe.map .onlooker) s srcs = f.surveyEach observe s srcs := by
  induction srcs generalizing s with
  | nil => rfl
  | cons src rest ih =>
    unfold walkEach surveyEach
    rw [walkFrom_onlooker, ih]
    congr 2
    funext s'
    exact ih s'

/-- A survey announces and adds its walks. -/
theorem survey_eq (f : Fabric β) (observe : Option (Attempt → Action σ Unit)) :
    f.survey observe = (do
      let s ← f.surveyEach observe {} f.hosts
      let complete := s.counts.complete
      Action.say .info Log.walker
        s!"{complete} paths reconstructed, {s.counts.total - complete} without a route"
      return s) := by
  unfold survey walkAll
  rw [walkEach_onlooker]
  rfl

end Fabric

end FabricPaths
