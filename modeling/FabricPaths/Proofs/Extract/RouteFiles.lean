import FabricPaths.Extract.Subnet
import FabricPaths.Proofs.Routing.Completed
import FabricPaths.Proofs.World.Frame

/-!
# Reading route dumps

The route dumps of a subnet are read one after another. While this goes on nothing is written but
the log, so that each dump has the lines that it had before, unless the log is written to it. A
reading that succeeds takes in each dump once, and it succeeds if all dumps can be taken in.
-/

namespace FabricPaths

open Storage

namespace World

variable {v w : World} {p : String}

/-- The places of the files of the log. -/
def logPlaces (w : World) (l : Location) : Prop :=
  ∃ h ∈ w.handlers, ∃ offset, h.sink = .file l offset

/-- The path leads to a file of the log. -/
def LogsInto (w : World) (p : String) : Prop :=
  ∃ l, w.storage.fileAt? w.workingDir p = some l ∧ w.logPlaces l

/-- The world is as another was, but for the files of its log. -/
def LoggedSince (v w : World) : Prop := Calm ⟨v.logPlaces, False⟩ v.storage v.workingDir w

/-- At first nothing is logged. -/
theorem loggedSince_self (w : World) : w.LoggedSince w :=
  ⟨.refl _ _, rfl, fun h hh _ offset hsink => ⟨h, hh, offset, hsink⟩⟩

/-- A file that the log is not written to has the lines that it had. -/
theorem readLines_of_loggedSince (h : v.LoggedSince w) (hp : ¬ v.LogsInto p) :
    (readLines p w).outcome = v.storage.readLines v.workingDir p := by
  have hfind : w.storage.find w.workingDir p = v.storage.find v.workingDir p := by
    have hfinds := h.storage.finds v.workingDir p
    rw [h.workingDir]
    generalize hx : v.storage.find v.workingDir p = x at hfinds ⊢
    generalize w.storage.find v.workingDir p = y at hfinds ⊢
    cases hfinds with
    | same => rfl
    | @onto l _ _ differs =>
      refine absurd ⟨l, ?_, differs⟩ hp
      unfold Tree.fileAt?
      rw [hx]
    | filled differs loose => exact loose.elim
    | barred loose => exact loose.elim
  change w.storage.readLines w.workingDir p = _
  unfold Tree.readLines Tree.read
  rw [hfind]

/-- Work on another state comes to its result and its last state. -/
theorem apart_outcome_eq_ok_iff {σ α : Type} {start last : σ} {x : Action σ α} {a : α} :
    (apart start x w).outcome = .ok (a, last) ↔
      (x start).outcome = .ok a ∧ (x start).state = last := by
  change (x start).outcome.map (fun a => (a, (x start).state)) = _ ↔ _
  cases (x start).outcome with
  | error e => exact iff_of_false nofun fun h => by cases h.1
  | ok b => simp only [Except.map, Except.ok.injEq, Prod.mk.injEq]

end World

namespace Extract

open Loader

variable {v w : World} {path : String} {names : List String} {loader loader' : Loader}

/-- Dumps were read since a world was as it was, and taken in one after another. -/
structure TakesIn (v : World) (loader : Loader) (dumps : List Dump) (loader' : Loader) :
    Prop where
  /-- Their lines were there, unless the log was written to them. -/
  lines : ∀ d ∈ dumps, ¬ v.LogsInto d.source →
    v.storage.readLines v.workingDir d.source = .ok d.lines
  /-- The report on each dump is filed. -/
  files : loader'.files.map (·.path) = loader.files.map (·.path) ++ dumps.map (·.source)
  /-- What the dumps name and hold is added. -/
  gathers : ∀ switches entries, Gathers loader switches entries →
    Gathers loader' (switches ++ dumps.flatMap Dump.named) (entries ++ dumps.flatMap Dump.added)

/-- A file can be taken in as a dump: the log is not written to it, it can be read, and no line
that is looked at is refused. -/
structure CanTakeIn (v : World) (source : String) : Prop where
  /-- The log is not written to it. -/
  quiet : ¬ v.LogsInto source
  /-- It can be read, and no line that is looked at is refused. -/
  read : ∃ lines, v.storage.readLines v.workingDir source = .ok lines ∧
    ∀ raw ∈ lookedAt lines, ¬ Route.Overlong raw

/-- A reading that succeeds takes in each file once, in their order. -/
theorem takesIn_readRouteFiles (hsince : v.LoggedSince w)
    (hok : (readRouteFiles path loader names w).outcome = .ok loader') :
    ∃ dumps : List Dump, dumps.map (·.source) = names.map (PathText.child path) ∧
      TakesIn v loader dumps loader' := by
  induction names generalizing loader w with
  | nil =>
    cases hok
    refine ⟨[], rfl, nofun, (List.append_nil _).symm, fun switches entries h => ?_⟩
    simpa only [List.flatMap_nil, List.append_nil] using h
  | cons name rest ih =>
    unfold readRouteFiles at hok
    obtain ⟨lines, hlines, hok⟩ := Action.bind_outcome_eq_ok_iff.mp hok
    obtain ⟨⟨report, next⟩, hnext, hok⟩ := Action.bind_outcome_eq_ok_iff.mp hok
    obtain ⟨hreport, rfl⟩ := World.apart_outcome_eq_ok_iff.mp hnext
    have hafter := (World.aloof_calm _ _ _).keeps_apart loader
      (ingestLines (PathText.child path name) lines) w hsince
    obtain ⟨dumps, hsources, htaken⟩ := ih hafter hok
    refine ⟨⟨PathText.child path name, lines⟩ :: dumps, congrArg (_ :: ·) hsources, ?_, ?_, ?_⟩
    · refine List.forall_mem_cons.mpr ⟨fun hquiet => ?_, htaken.lines⟩
      rw [← World.readLines_of_loggedSince hsince hquiet]
      exact hlines
    · rw [htaken.files, paths_ingestLines _ _ _ hreport, List.append_assoc]
      rfl
    · intro switches entries h
      rw [List.flatMap_cons, List.flatMap_cons, ← List.append_assoc, ← List.append_assoc]
      exact htaken.gathers _ _
        (gathers_ingestLines h ⟨PathText.child path name, lines⟩ hreport)

/-- The reading succeeds if all files can be taken in. -/
theorem readRouteFiles_succeeds (loader : Loader) (hsince : v.LoggedSince w)
    (h : ∀ name ∈ names, CanTakeIn v (PathText.child path name)) :
    ∃ loader', (readRouteFiles path loader names w).outcome = .ok loader' := by
  induction names generalizing loader w with
  | nil => exact ⟨loader, rfl⟩
  | cons name rest ih =>
    obtain ⟨⟨hquiet, lines, hlines, hreadable⟩, hrest⟩ := List.forall_mem_cons.mp h
    rw [← World.readLines_of_loggedSince hsince hquiet] at hlines
    have hnext : ∃ report,
        (ingestLines (PathText.child path name) lines loader).outcome = .ok report := by
      cases reads_ingestLines (PathText.child path name) lines loader with
      | ok succeeds readable => exact ⟨_, succeeds⟩
      | error mem refused fails =>
        have hentry := RouteLine.read_eq_error_iff.mp refused
        exact absurd (Route.refused_iff_overlong.mp ⟨_, hentry⟩) (hreadable _ mem)
    obtain ⟨report, hreport⟩ := hnext
    have hafter := (World.aloof_calm _ _ _).keeps_apart loader
      (ingestLines (PathText.child path name) lines) w hsince
    obtain ⟨loader', hok⟩ := ih (ingestLines _ lines loader).state hafter hrest
    refine ⟨loader', ?_⟩
    unfold readRouteFiles
    refine Action.bind_outcome_eq_ok_iff.mpr ⟨lines, hlines, ?_⟩
    exact Action.bind_outcome_eq_ok_iff.mpr
      ⟨_, World.apart_outcome_eq_ok_iff.mpr ⟨hreport, rfl⟩, hok⟩

end Extract

end FabricPaths
