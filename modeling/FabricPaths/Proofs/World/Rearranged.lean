import FabricPaths.Proofs.Action.Parallel
import FabricPaths.Proofs.Storage.Rearranged
import FabricPaths.World

/-!
# Worlds with storages in another order

Two runs go on in worlds that differ in the order of their storages alone. They read the same
lines and write the same log, and the worlds still differ in nothing else.
-/

namespace FabricPaths

open Storage
open FabricPaths.Action (Parallel)

namespace Log

/-- What an entry is written to by one handler differs in the order of the storage alone. -/
theorem emitWith_rearranged (e : Entry) (out : Output) {t : Tree} (h : out.storage.Rearranged t)
    (handler : Handler) : ∃ t', (emitWith e out handler).1.storage.Rearranged t' ∧
      emitWith e { out with storage := t } handler =
        ({ (emitWith e out handler).1 with storage := t' }, (emitWith e out handler).2) := by
  unfold emitWith
  split
  · exact ⟨t, h, rfl⟩
  · split
    · exact ⟨t, h, rfl⟩
    · exact ⟨t, h, rfl⟩
    · exact ⟨_, h.writeAt _ _ _, rfl⟩

/-- What an entry is written to by handlers differs in the order of the storage alone. -/
theorem emitAll_rearranged (e : Entry) (out : Output) {t : Tree} (h : out.storage.Rearranged t)
    (hs : List Handler) : ∃ t', (emitAll e out hs).1.storage.Rearranged t' ∧
      emitAll e { out with storage := t } hs =
        ({ (emitAll e out hs).1 with storage := t' }, (emitAll e out hs).2) := by
  induction hs generalizing out t with
  | nil => exact ⟨t, h, rfl⟩
  | cons handler rest ih =>
    obtain ⟨t', ht', hfirst⟩ := emitWith_rearranged e out h handler
    obtain ⟨t'', ht'', hrest⟩ := ih (emitWith e out handler).1 ht'
    refine ⟨t'', ht'', ?_⟩
    rw [emitAll, hfirst]
    dsimp only
    rw [hrest]
    rfl

/-- What an entry is written to differs in the order of the storage alone. -/
theorem emit_rearranged (e : Entry) (out : Output) {t : Tree} (h : out.storage.Rearranged t)
    (hs : List Handler) : ∃ t', (emit hs out e).1.storage.Rearranged t' ∧
      emit hs { out with storage := t } e =
        ({ (emit hs out e).1 with storage := t' }, (emit hs out e).2) := by
  unfold emit
  split
  · exact emitAll_rearranged e out h hs
  · unfold emitBare
    split
    · exact ⟨t, h, rfl⟩
    · exact ⟨t, h, rfl⟩

end Log

namespace World

/-- The worlds differ in the order of their storages alone. -/
def Rearranged (v w : World) : Prop :=
  ∃ t, v.storage.Rearranged t ∧ w = { v with storage := t }

variable {v w : World}

namespace Rearranged

/-- An entry is written to both logs. -/
theorem afterEntry (h : v.Rearranged w) (e : Log.Entry) :
    (v.afterEntry e).Rearranged (w.afterEntry e) := by
  obtain ⟨t, ht, rfl⟩ := h
  obtain ⟨t', ht', hemit⟩ := Log.emit_rearranged e
    ⟨v.clock.start.clockText, v.storage, v.errors⟩ ht v.handlers
  refine ⟨t', ht', ?_⟩
  unfold World.afterEntry
  dsimp only
  rw [hemit]

/-- Entries are written to both logs. -/
theorem entries (h : v.Rearranged w) (log : List Log.Entry) :
    (log.foldl World.afterEntry v).Rearranged (log.foldl World.afterEntry w) := by
  induction log generalizing v w with
  | nil => exact h
  | cons e rest ih => exact ih (h.afterEntry e)

end Rearranged

/-! ## Runs in both worlds -/

variable {σ α : Type}

/-- The same message is logged. -/
theorem rearranged_say (level : Log.Level) (channel text : String) :
    Parallel Rearranged False Eq (say level channel text) (say level channel text) :=
  fun _ _ h => .ok rfl (h.entries _)

/-- Work on another state comes to the same, and the same is logged. -/
theorem rearranged_apart (start : σ) (x : Action σ α) :
    Parallel Rearranged False Eq (apart start x) (apart start x) :=
  .of_outcome fun _ _ h => ⟨rfl, h.entries _⟩

/-- The same lines are read. -/
theorem rearranged_readLines (p : String) :
    Parallel Rearranged False Eq (readLines p) (readLines p) := by
  refine .get_bind fun v w h => ?_
  obtain ⟨t, ht, rfl⟩ := h
  dsimp only
  rw [ht.readLines_eq]
  exact Parallel.ofExcept _ _ _ ⟨t, ht, rfl⟩

/-- The same names are listed, perhaps in another order. -/
theorem rearranged_list (p : String) :
    Parallel Rearranged False List.Perm (list p) (list p) := by
  refine .get_bind fun v w h => ?_
  obtain ⟨t, ht, rfl⟩ := h
  dsimp only
  rw [Tree.list_eq, Tree.list_eq, ht.directory_eq]
  cases t.directory v.workingDir p with
  | ok dir => exact .ok (ht.names_perm dir) ⟨t, ht, rfl⟩
  | error e => exact .error ⟨t, ht, rfl⟩

end World

end FabricPaths
