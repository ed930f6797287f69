import FabricPaths.Extract.Narration
import FabricPaths.Proofs.Event
import FabricPaths.Proofs.World.Frame

/-!
# What is told on the way

Before a run is over it tells of subnets, partitions and walks. A property of the world that is
kept in telling of such events is kept by all that a run does before it tells of its end.
-/

namespace FabricPaths

variable {β : Type}

/-- The event tells of something on the way: not of the end of a run, of a walk only together with
the way it ended, and no figures that are too long to be written. -/
structure Event.Underway (e : Event) : Prop where
  /-- It is not the end of a run. -/
  not_done : e.kind ≠ .runDone
  /-- A walk is told of with the way it ended. -/
  status : e.kind = .path → e.status.isSome
  /-- Its figures can be written. -/
  legible : e.Legible

namespace Event

/-- The beginning of a subnet is on the way. -/
theorem underway_subnetStarts (subnet file : String) : (subnetStarts subnet file).Underway :=
  ⟨nofun, nofun, by simp [Legible, subnetFigures, subnetStarts]⟩

/-- A partition is on the way. -/
theorem underway_partitionFound (subnet name : String) (index : Nat) (members : List String) :
    (partitionFound subnet name index members).Underway :=
  ⟨nofun, nofun, by simp [Legible, subnetFigures, partitionFound]⟩

/-- The end of a subnet is on the way. -/
theorem underway_subnetDone (report : SubnetReport) : (subnetDone report).Underway :=
  ⟨nofun, nofun, by simp [Legible, subnetFigures, subnetDone]⟩

/-- A walk is on the way. -/
theorem underway_walked {f : Fabric β} {a : Attempt} {e : Event} (h : walked f a = .ok e) :
    e.Underway := by
  unfold walked at h
  cases hsrc : f.node a.source with
  | error e' =>
    rw [hsrc] at h
    cases h
  | ok src =>
    rw [hsrc] at h
    cases hdst : f.node a.dest with
    | error e' =>
      rw [hdst] at h
      cases h
    | ok dst =>
      rw [hdst] at h
      cases hhops : f.hops a.links with
      | error e' =>
        rw [hhops] at h
        cases h
      | ok hops =>
        rw [hhops] at h
        cases h
        exact ⟨nofun, fun _ => rfl, by simp [Legible, subnetFigures]⟩

end Event

namespace World

/-- The property has nothing to do with what is shown and logged, and it is kept when an observer
is told of something on the way. -/
structure Attends (observer : Option Observer) (I : World → Prop) : Prop extends Quiet I where
  /-- Telling of something on the way keeps it. -/
  tells : ∀ e : Event, e.Underway → Action.Keeps I (World.notify observer e)

/-- What has nothing to do with what is told is kept in telling. -/
theorem Aloof.attends {I : World → Prop} (hI : Aloof I) (observer : Option Observer) :
    Attends observer I :=
  ⟨hI.toQuiet, fun e _ => hI.keeps_notify observer e⟩

/-- An event on the way keeps the property. -/
theorem Attends.keeps_configNotify {c : Extract.Config} {I : World → Prop}
    (hI : Attends c.observer I) {e : Event} (he : e.Underway) : Action.Keeps I (c.notify e) :=
  hI.keeps_logging (hI.tells e he)

end World

end FabricPaths
