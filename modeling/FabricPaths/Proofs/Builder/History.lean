import FabricPaths.Proofs.Builder.Adding
import FabricPaths.Proofs.Builder.Finishing

/-!
# Histories of a builder

A builder lives through a sequence of calls: records, lines of a dump, and
pairings of links, in any order. A call that stops leaves what it did until
then. What adding a link, filing a report and pairing links keep is kept by
every history.
-/

namespace FabricPaths.Builder

/-- A call on a builder. -/
inductive Call
  /-- Takes a record in. -/
  | ingest (record : DiscoveryRecord)
  /-- Takes in the lines of a source. -/
  | ingestLines (source : String) (lines : List String)
  /-- Pairs the links. -/
  | finish
deriving DecidableEq

variable {β : Type}

/-- Passing over a line is no more than to report it. -/
theorem compositional_passOver {C : (α : Type) → Action (Builder β) α → Prop}
    (hC : Action.Compositional C) (report : FileReport) (l : SourceLine) (skipped : LineReport)
    (message : Option String) : C _ (passOver report l skipped message) := by
  have hwarn : ∀ text : String, C _ (do
      Action.say .warning Log.ingest text
      return report.skip skipped) := fun text => hC.bind (hC.say _ _ _) fun _ => hC.pure _
  cases message with
  | none => exact hwarn _
  | some text => exact hC.bind (hC.say _ _ _) fun _ => hwarn _

variable [Memory] [Bandwidth β]

/-- The builder after a call, whether the call succeeds or stops. -/
def Call.apply : Call → Builder β → Builder β
  | .ingest r, b => (Builder.ingest r b).state
  | .ingestLines source lines, b => (Builder.ingestLines source lines b).state
  | .finish, b => (Builder.finish b).state

/-- The builder after calls one after another. -/
def run (b : Builder β) (calls : List Call) : Builder β := calls.foldl (fun b c => c.apply b) b

/-- The builder of a subnet after calls one after another. -/
def after (subnet : String) (calls : List Call) : Builder β := (start subnet).run calls

/-- The last call comes after all others. -/
theorem after_concat (subnet : String) (calls : List Call) (c : Call) :
    after (β := β) subnet (calls ++ [c]) = c.apply (after subnet calls) := by
  simp only [after, run, List.foldl_append, List.foldl_cons, List.foldl_nil]

/-! ## What goes from adding links to calls -/

section Compositional

variable {C : (α : Type) → Action (Builder β) α → Prop}

/-- Taking in a record is like adding a link. -/
theorem compositional_ingest (hC : Action.Compositional C) (hadd : ∀ r, C _ (addLink r))
    (r : DiscoveryRecord) : C _ (ingest r) := by
  cases r with
  | link r => exact hC.bind (hadd r) fun l => hC.pure _
  | port r =>
    refine hC.bind (hC.ofExcept _) fun _ => ?_
    exact hC.bind (hC.say _ _ _) fun _ => hC.pure _

/-- Taking in the record of a line is like adding a link. -/
theorem compositional_takeIn (hC : Action.Compositional C) (hadd : ∀ r, C _ (addLink r))
    (report : FileReport) (l : SourceLine) (r : DiscoveryRecord) : C _ (takeIn report l r) := by
  refine hC.bind (hC.attempt (compositional_ingest hC hadd r)) fun outcome => ?_
  cases outcome with
  | ok _ => exact hC.pure _
  | error e =>
    dsimp only
    split
    · exact hC.bind (hC.say _ _ _) fun _ => hC.pure _
    · exact hC.fail e

/-- Taking in a line is like adding a link. -/
theorem compositional_ingestLine (hC : Action.Compositional C) (hadd : ∀ r, C _ (addLink r))
    (report : FileReport) (l : SourceLine) : C _ (ingestLine report l) := by
  unfold ingestLine
  dsimp only
  split
  · exact hC.pure _
  · split
    · exact compositional_passOver hC _ _ _ _
    · exact compositional_takeIn hC hadd _ _ _

/-- Taking in lines is like adding links. -/
theorem compositional_ingestEach (hC : Action.Compositional C) (hadd : ∀ r, C _ (addLink r))
    (report : FileReport) (ls : List SourceLine) : C _ (ingestEach report ls) := by
  induction ls generalizing report with
  | nil => exact hC.pure _
  | cons l ls ih => exact hC.bind (compositional_ingestLine hC hadd report l) ih

/-- Taking in a source is like adding links and filing a report. -/
theorem compositional_ingestLines (hC : Action.Compositional C) (hadd : ∀ r, C _ (addLink r))
    (hfile : ∀ report, C _ (Action.modify fun b => { b with files := b.files ++ [report] }))
    (source : String) (lines : List String) : C _ (ingestLines source lines) := by
  refine hC.bind (compositional_ingestEach hC hadd _ _) fun report => ?_
  exact hC.bind (hfile report) fun _ => hC.pure _

end Compositional

variable {I : Builder β → Prop}

/-- A property of the builder that has read nothing, kept by adding a link, by
filing a report and by pairing the links, is one of every history. -/
theorem after_induction {subnet : String} (hstart : I (start subnet))
    (hadd : ∀ r b, I b → I (addLink r b).state) (hfile : ∀ b files, I b → I { b with files })
    (hfinish : ∀ b, I b → I (finish b).state) (calls : List Call) : I (after subnet calls) := by
  have hcall : ∀ (c : Call) (b : Builder β), I b → I (c.apply b) := by
    intro c b hb
    have hC : Action.Compositional (σ := Builder β) fun _ => Action.Keeps I :=
      Action.Keeps.compositional
    cases c with
    | ingest r => exact compositional_ingest hC hadd r b hb
    | ingestLines source lines =>
      exact compositional_ingestLines hC hadd (fun _ b hb => hfile b _ hb) source lines b hb
    | finish => exact hfinish b hb
  have hrun : ∀ b : Builder β, I b → I (b.run calls) := by
    induction calls with
    | nil => exact fun b hb => hb
    | cons c calls ih => exact fun b hb => ih (c.apply b) (hcall c b hb)
  exact hrun _ hstart

end FabricPaths.Builder
