import FabricPaths.Proofs.Action.Parallel
import FabricPaths.Proofs.Storage.ReadBack
import FabricPaths.Proofs.World.Frame

/-!
# Worlds side by side

Two runs go on in two worlds whose storages differ in some files. What they log, show and tell
may differ altogether, and so may their clocks, if the comparison is a loose one. What one run
reads and writes, the other one reads and writes too, unless a path leads to one of these
files or is barred by it.
-/

namespace FabricPaths.World

open Storage

/-- The worlds are the same but for some files, the log, and what was shown and told. -/
structure Beside (m : Slack) (v w : World) : Prop where
  /-- The storages differ in some files. -/
  storage : Overlaid m v.storage w.storage
  /-- The working directories are the same. -/
  workingDir : v.workingDir = w.workingDir
  /-- The log of the first is among these files. -/
  logsLeft : v.LogsTo m.places
  /-- The log of the second is among these files. -/
  logsRight : w.LogsTo m.places
  /-- Clocks and reports are the same, if that is asked for. -/
  exact : ¬ m.loose → v.clock = w.clock ∧ v.report = w.report

/-- The worlds are the same in this sense, and still have the storages and the directory that
they had, but for the same files. -/
structure Abreast (m : Slack) (t t' : Tree) (dir : Location) (v w : World) : Prop
    extends Beside m v w where
  /-- The first world has its storage. -/
  left : Overlaid ⟨m.places, False⟩ t v.storage
  /-- The second world has its storage. -/
  right : Overlaid ⟨m.places, False⟩ t' w.storage
  /-- The second world has its directory. -/
  atDir : w.workingDir = dir

/-- The relation between worlds has nothing to do with what is shown, told and logged, and
allows for clocks that go on. -/
structure Companions (loose : Prop) (R : World → World → Prop) : Prop where
  /-- What the first shows, tells and logs makes no difference. -/
  left : ∀ w, Aloof (R · w)
  /-- What the second shows, tells and logs makes no difference. -/
  right : ∀ v, Aloof (R v ·)
  /-- The clocks are the same, if that is asked for. -/
  clock : ∀ {v w}, R v w → ¬ loose → v.clock = w.clock
  /-- The clocks may go on. -/
  tick : ∀ {v w}, R v w → ∀ c c', (¬ loose → c = c') →
    R { v with clock := c } { w with clock := c' }

variable {m : Slack} {t t' : Tree}

/-- Worlds stay the same, whatever is shown, told and logged, and while their clocks go on. -/
theorem companions_beside (m : Slack) : Companions m.loose (Beside m) where
  left := by
    intro w
    refine .of_core ?_ ?_
    · intro v e h
      have hentry := afterEntry_calm h.logsLeft e
      refine ⟨?_, h.workingDir, hentry.logsTo, h.logsRight, h.exact⟩
      exact hentry.storage.symm.of_files.trans h.storage
    · intro v v' hcore h
      obtain ⟨hstorage, hdir, hclock, hhandlers, hreport⟩ := of_core_eq hcore
      refine ⟨by rw [hstorage]; exact h.storage, hdir.trans h.workingDir, ?_, h.logsRight, ?_⟩
      · unfold LogsTo
        rw [hhandlers]
        exact h.logsLeft
      · rw [hclock, hreport]
        exact h.exact
  right := by
    intro v
    refine .of_core ?_ ?_
    · intro w e h
      have hentry := afterEntry_calm h.logsRight e
      exact ⟨h.storage.trans hentry.storage.of_files, h.workingDir, h.logsLeft, hentry.logsTo,
        h.exact⟩
    · intro w w' hcore h
      obtain ⟨hstorage, hdir, hclock, hhandlers, hreport⟩ := of_core_eq hcore
      refine ⟨by rw [hstorage]; exact h.storage, h.workingDir.trans hdir.symm, h.logsLeft, ?_, ?_⟩
      · unfold LogsTo
        rw [hhandlers]
        exact h.logsRight
      · rw [hclock, hreport]
        exact h.exact
  clock := fun h hl => (h.exact hl).1
  tick := fun h _ _ hc =>
    ⟨h.storage, h.workingDir, h.logsLeft, h.logsRight, fun hl => ⟨hc hl, (h.exact hl).2⟩⟩

/-- Worlds keep their storages, whatever is shown, told and logged, and while their clocks
go on. -/
theorem companions_abreast (m : Slack) (t t' : Tree) (dir : Location) :
    Companions m.loose (Abreast m t t' dir) where
  left := by
    intro w
    refine .of_core ?_ ?_
    · intro v e h
      refine ⟨((companions_beside m).left w).entry v e h.toBeside, ?_, h.right, h.atDir⟩
      exact h.left.trans (afterEntry_calm h.logsLeft e).storage
    · intro v v' hcore h
      refine ⟨((companions_beside m).left w).core v v' hcore h.toBeside, ?_, h.right, h.atDir⟩
      rw [(of_core_eq hcore).1]
      exact h.left
  right := by
    intro v
    refine .of_core ?_ ?_
    · intro w e h
      refine ⟨((companions_beside m).right v).entry w e h.toBeside, h.left, ?_, h.atDir⟩
      exact h.right.trans (afterEntry_calm h.logsRight e).storage
    · intro w w' hcore h
      obtain ⟨hstorage, hdir, -⟩ := of_core_eq hcore
      refine ⟨((companions_beside m).right v).core w w' hcore h.toBeside, h.left, ?_,
        hdir.trans h.atDir⟩
      rw [hstorage]
      exact h.right
  clock := fun h hl => (h.exact hl).1
  tick := fun h c c' hc =>
    ⟨(companions_beside m).tick h.toBeside c c' hc, h.left, h.right, h.atDir⟩

/-! ## Logging, showing, telling and reading the clock -/

open FabricPaths.Action (Parallel)

namespace Companions

variable {loose : Prop} {R : World → World → Prop} {α γ σ : Type} {Q : α → γ → Prop}

/-- What is logged makes no difference. -/
theorem logging (hR : Companions loose R) {x : Action World α} {y : Action World γ}
    (h : Parallel R loose Q x y) : Parallel R loose Q (World.logging x) (World.logging y) := by
  intro v w hvw
  have hxy := h v w hvw
  unfold World.logging
  dsimp only
  generalize x v = r at hxy ⊢
  generalize y w = r' at hxy ⊢
  have hstates : ∀ {v' w' : World}, R v' w' → ∀ log log' : List Log.Entry,
      R (log.foldl afterEntry v') (log'.foldl afterEntry w') := by
    intro v' w' h' log log'
    have hleft : R (log.foldl afterEntry v') w' := (hR.left w').entries h' log
    exact (hR.right _).entries hleft log'
  cases hxy with
  | ok results states => exact .ok results (hstates states _ _)
  | error states => exact .error (hstates states _ _)
  | failed hl => exact .failed hl
  | lateLeft hl => exact .lateLeft hl
  | lateRight hl => exact .lateRight hl

/-- Actions that come to one outcome, and leave alone all that is related, are parallel. -/
theorem of_keeps (hR : Companions loose R) {x y : Action World α}
    (houtcome : ∀ v w, (x v).outcome = (y w).outcome)
    (hx : ∀ I, Aloof I → Action.Keeps I x) (hy : ∀ I, Aloof I → Action.Keeps I y) :
    Parallel R loose Eq x y := by
  refine Parallel.of_outcome fun v w hvw => ⟨houtcome v w, ?_⟩
  have hleft : R (x v).state w := hx (R · w) (hR.left w) v hvw
  exact hy (R (x v).state) (hR.right _) w hleft

/-- Messages make no difference. -/
theorem say (hR : Companions loose R) (level : Log.Level) (channel text : String) :
    Parallel R loose Eq (World.say level channel text) (World.say level channel text) :=
  hR.of_keeps (fun _ _ => rfl) (fun _ hI => hI.keeps_say _ _ _) fun _ hI => hI.keeps_say _ _ _

/-- Work on another state comes to the same. -/
theorem apart (hR : Companions loose R) (start : σ) (x : Action σ α) :
    Parallel R loose Eq (World.apart start x) (World.apart start x) :=
  hR.of_keeps (fun _ _ => rfl) (fun _ hI => hI.keeps_apart _ _) fun _ hI => hI.keeps_apart _ _

/-- Events make no difference to observers who fail in words only. -/
theorem notify (hR : Companions loose R) {c c' : Extract.Config} (h : Articulate c.observer)
    (h' : Articulate c'.observer) (e e' : Event) :
    Parallel R loose Eq (c.notify e) (c'.notify e') := by
  refine hR.of_keeps (fun v w => ?_) (fun _ hI => hI.keeps_configNotify _ _)
    fun _ hI => hI.keeps_configNotify _ _
  rw [configNotify_outcome h, configNotify_outcome h']

/-- Showing the progress makes no difference. -/
theorem showProgress (hR : Companions loose R) (c c' : Extract.Config) (s s' : String) :
    Parallel R loose Eq (c.showProgress s) (c'.showProgress s') := by
  refine hR.of_keeps (fun v w => ?_) (fun _ hI => hI.keeps_showProgress _ _)
    fun _ hI => hI.keeps_showProgress _ _
  rw [showProgress_outcome, showProgress_outcome]

/-- Clocks show the same, if that is asked for. -/
theorem now (hR : Companions loose R) :
    Parallel R loose (fun m m' => ¬ loose → m = m') World.now World.now := by
  intro v w hvw
  have hclock := hR.clock hvw
  have hstates : R { v with clock := v.clock.read.2 } { w with clock := w.clock.read.2 } :=
    hR.tick hvw _ _ fun hl => by rw [hclock hl]
  by_cases hl : loose
  · rcases now_cases v with ⟨x, hv⟩ | hv
    · rcases now_cases w with ⟨y, hw⟩ | hw
      · rw [hv, hw]
        exact .ok (fun h => absurd hl h) hstates
      · rw [hw]
        exact .lateRight hl
    · rw [hv]
      exact .lateLeft hl
  · have hsame : v.clock.read.1 = w.clock.read.1 := by rw [hclock hl]
    rw [now_run, now_run, hsame]
    cases w.clock.read.1 with
    | ok x => exact .ok (fun _ => rfl) hstates
    | error e => exact .error hstates

end Companions

/-! ## Reading and writing -/

/-- Puts a file where its path leads; its place is returned. -/
def putFile (p : String) (bytes : ByteArray) : Action World Location := fun w =>
  match w.storage.placeToWrite w.workingDir p with
  | .ok l => ⟨.ok l, { w with storage := w.storage.put l (.file bytes) }, []⟩
  | .error e => ⟨.error e, w, []⟩

/-- A file is put if there is a place for it. -/
theorem putFile_of_place {p : String} {w : World} {l : Location}
    (h : w.storage.placeToWrite w.workingDir p = .ok l) (bytes : ByteArray) :
    putFile p bytes w = ⟨.ok l, { w with storage := w.storage.put l (.file bytes) }, []⟩ := by
  unfold putFile
  rw [h]

/-- A file is not put if there is no place for it. -/
theorem putFile_of_error {p : String} {w : World} {e : Failure}
    (h : w.storage.placeToWrite w.workingDir p = .error e) (bytes : ByteArray) :
    putFile p bytes w = ⟨.error e, w, []⟩ := by
  unfold putFile
  rw [h]

/-- To open a file is to put an empty one. -/
theorem create_eq (p : String) : World.create p = putFile p .empty := by
  funext w
  unfold World.create putFile
  rw [Action.get_bind]
  unfold Tree.create
  cases w.storage.placeToWrite w.workingDir p with
  | ok l => rfl
  | error e => rfl

/-- To write a file is to put it. -/
theorem write_eq (p text : String) :
    World.write p text = putFile p text.toUTF8 >>= fun _ => pure () := by
  funext w
  unfold World.write
  rw [Action.get_bind]
  unfold Tree.write
  cases hplace : w.storage.placeToWrite w.workingDir p with
  | ok l =>
    rw [Action.bind_of_ok (putFile_of_place hplace text.toUTF8)]
    rfl
  | error e =>
    rw [Action.bind_of_error (putFile_of_error hplace text.toUTF8)]
    rfl

/-- Files are put at the same places. -/
theorem parallel_putFile (p : String) (bytes : ByteArray) :
    Parallel (Beside m) m.loose Eq (putFile p bytes) (putFile p bytes) := by
  intro v w h
  unfold putFile
  rw [h.workingDir]
  rcases h.storage.placeToWrite w.workingDir p with hsame | ⟨hl, ⟨e, he⟩, ⟨e', he'⟩⟩
  · rw [hsame]
    cases w.storage.placeToWrite w.workingDir p with
    | ok l =>
      exact .ok rfl ⟨h.storage.put l bytes, rfl, h.logsLeft, h.logsRight, h.exact⟩
    | error e => exact .error h
  · rw [he, he']
    exact .failed hl

/-- Files are opened at the same places. -/
theorem parallel_create (p : String) :
    Parallel (Beside m) m.loose Eq (World.create p) (World.create p) := by
  rw [create_eq]
  exact parallel_putFile p .empty

/-- Files are written at the same places. -/
theorem parallel_write (p text : String) :
    Parallel (Beside m) m.loose Eq (World.write p text) (World.write p text) := by
  rw [write_eq]
  exact (parallel_putFile p text.toUTF8).bind fun _ _ _ => .pure rfl

namespace Abreast

variable {dir : Location} {v w : World}

/-- A path that leads to one of the files in question did so before. -/
theorem found_before (h : Abreast m t t' dir v w) {p : String} {l : Location} {bytes : ByteArray}
    (hfound : w.storage.find w.workingDir p = .ok (l, .file bytes)) :
    ∃ bytes, t'.find dir p = .ok (l, .file bytes) := by
  have hfinds := h.right.finds w.workingDir p
  rw [hfound, h.atDir] at hfinds
  generalize t'.find dir p = x at hfinds ⊢
  cases hfinds with
  | same => exact ⟨bytes, rfl⟩
  | onto differs => exact ⟨_, rfl⟩
  | filled differs loose => exact loose.elim

/-- The same paths are barred as before in the first world. -/
theorem isBarred_left (h : Abreast m t t' dir v w) (p : String) :
    v.storage.isBarred w.workingDir p = t.isBarred dir p := by
  rw [h.atDir]
  exact (h.left.isBarred_eq dir p).symm

/-- The same paths are barred as before in the second world. -/
theorem isBarred_right (h : Abreast m t t' dir v w) (p : String) :
    w.storage.isBarred w.workingDir p = t'.isBarred dir p := by
  rw [h.atDir]
  exact (h.right.isBarred_eq dir p).symm

end Abreast

/-- A file that is none of those in question is read as it is. -/
theorem parallel_readLines {dir : Location} {p : String}
    (h : ∀ l bytes, t'.find dir p = .ok (l, .file bytes) → ¬ m.places l) :
    Parallel (Abreast m t t' dir) m.loose Eq (World.readLines p) (World.readLines p) := by
  refine Parallel.get_bind fun v w hvw => ?_
  have hfinds := hvw.storage.finds w.workingDir p
  unfold Tree.readLines Tree.read
  rw [hvw.workingDir]
  generalize hx : v.storage.find w.workingDir p = x at hfinds ⊢
  generalize hy : w.storage.find w.workingDir p = y at hfinds ⊢
  cases hfinds with
  | same => exact Parallel.ofExcept _ v w hvw
  | onto differs =>
    obtain ⟨bytes, hfound⟩ := hvw.found_before hy
    exact absurd differs (h _ bytes hfound)
  | filled differs loose =>
    obtain ⟨bytes, hfound⟩ := hvw.found_before hy
    exact absurd differs (h _ bytes hfound)
  | barred loose => exact .failed loose

end FabricPaths.World
