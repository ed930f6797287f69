import FabricPaths.Fabric.Resolve
import FabricPaths.Proofs.Action
import FabricPaths.Proofs.Fabric.Decoration

/-!
# How pairing ends

The links of a builder are paired one after another, and each link without a way
back is reported. A link whose ports are too long to be written cannot be
reported: pairing breaks off there, and the links behind it stay as they were.
`Pairing` says what either way of ending leaves, and `finishes_iff` when pairing
does not break off.
-/

namespace FabricPaths

/-- The ports of a link can be written. -/
def Link.Reportable {β : Type} (l : Link β) : Prop :=
  Text.IsWritable l.srcPort ∧ Text.IsWritable l.destPort

namespace Builder

variable {β : Type} {f : Fabric β} {ls : List (Link β)} {b : Builder β}

/-- The links of a list without a way back. -/
def missed (f : Fabric β) (ls : List (Link β)) : List (Link β) :=
  ls.filter fun l => (f.returnId? l).isNone

/-- The paired links without a way back. -/
def unreturned (f : Fabric β) : List (Link β) := missed f f.pairedLinks

/-- The text about a link without a way back. -/
def unpairedText (l : Link β) : String :=
  s!"[{l.parent.text}] port {l.srcPort} → {l.dest.text}:{l.destPort} has no reverse link"

/-- The messages about the links of a list without a way back. -/
def complaints (f : Fabric β) (ls : List (Link β)) : List Log.Entry :=
  (missed f ls).map fun l => ⟨.debug, Log.ingest, unpairedText l⟩

/-- The message about the sizes of a fabric. -/
def sizesMessage (f : Fabric β) : String :=
  s!"Subnet {f.subnet}: {f.nodes.size} nodes, {f.links.size} links"

/-- The builder once some links are paired as they are in a fabric. -/
def paired (f : Fabric β) (ls : List (Link β)) (b : Builder β) : Builder β :=
  { b with
    fabric := f.pairing ls b.fabric
    unresolved := b.unresolved + (missed f ls).length }

/-- A link is reported if its ports can be written. -/
theorem unpairedMessage_of_reportable {l : Link β} (h : l.Reportable) :
    unpairedMessage l = .ok (unpairedText l) := by
  unfold unpairedMessage
  rw [Text.writeNumeral_of_isWritable h.1, Text.writeNumeral_of_isWritable h.2]
  rfl

/-- A link whose ports are too long cannot be reported. -/
theorem unpairedMessage_of_not_reportable {l : Link β} (h : ¬ l.Reportable) :
    unpairedMessage l = .error .numberTooLong := by
  unfold unpairedMessage
  by_cases hsrc : Text.IsWritable l.srcPort
  · have hdest : ¬ Text.IsWritable l.destPort := fun hdest => h ⟨hsrc, hdest⟩
    rw [Text.writeNumeral_of_isWritable hsrc, Text.writeNumeral_of_not_isWritable hdest]
    rfl
  · rw [Text.writeNumeral_of_not_isWritable hsrc]
    rfl

/-- How pairing some links one after another ends. -/
inductive Pairing (f : Fabric β) (ls : List (Link β)) (b : Builder β) :
    Run (Builder β) Unit → Prop
  /-- All of them are paired. -/
  | whole (told : ∀ l ∈ missed f ls, l.Reportable) :
    Pairing f ls b ⟨.ok (), b.paired f ls, complaints f ls⟩
  /-- A link without a way back cannot be reported, and no link behind it is paired. -/
  | brokenOff {done rest : List (Link β)} {l : Link β} (split : ls = done ++ l :: rest)
    (told : ∀ x ∈ missed f done, x.Reportable) (lost : f.returnId? l = none)
    (untold : ¬ l.Reportable) :
    Pairing f ls b ⟨.error .numberTooLong, b.paired f (done ++ [l]), complaints f done⟩

/-- Links can be paired in two parts. -/
theorem paired_append (f : Fabric β) (ls ls' : List (Link β)) (b : Builder β) :
    b.paired f (ls ++ ls') = (b.paired f ls).paired f ls' := by
  unfold paired Fabric.pairing missed
  rw [List.foldl_append, List.filter_append, List.length_append, Nat.add_assoc]

/-- A link with a way back is not missed. -/
theorem missed_singleton_of_some {l : Link β} {other : LinkId} (h : f.returnId? l = some other) :
    missed f [l] = [] := by
  rw [missed, List.filter_singleton, h]
  rfl

/-- A link without a way back is missed. -/
theorem missed_singleton_of_none {l : Link β} (h : f.returnId? l = none) :
    missed f [l] = [l] := by
  rw [missed, List.filter_singleton, h]
  rfl

/-- A link without a way back is paired with none and counted. -/
theorem paired_singleton_of_none {l : Link β} (h : f.returnId? l = none) (b : Builder β) :
    b.paired f [l] =
      { b with
        fabric := b.fabric.modifyLink l.id (·.pairedWith none)
        unresolved := b.unresolved + 1 } := by
  unfold paired
  rw [missed_singleton_of_none h, ← h]
  rfl

/-- Pairing a link that has a way back goes on. -/
theorem pairEach_cons_of_some {l : Link β} {other : LinkId} (h : f.returnId? l = some other)
    (ls : List (Link β)) (b : Builder β) :
    pairEach f (l :: ls) b = pairEach f ls (b.paired f [l]) := by
  have hpaired : b.paired f [l] =
      { b with fabric := b.fabric.modifyLink l.id (·.pairedWith (some other)) } := by
    unfold paired
    rw [missed_singleton_of_some h, ← h]
    rfl
  rw [hpaired]
  change (Action.bind _ _) b = _
  rw [Action.bind, h]
  rfl

/-- Pairing a link without a way back goes on if it can be reported. -/
theorem pairEach_cons_of_reportable {l : Link β} (h : f.returnId? l = none)
    (hl : l.Reportable) (ls : List (Link β)) (b : Builder β) :
    pairEach f (l :: ls) b =
      ⟨(pairEach f ls (b.paired f [l])).outcome, (pairEach f ls (b.paired f [l])).state,
        ⟨.debug, Log.ingest, unpairedText l⟩ :: (pairEach f ls (b.paired f [l])).log⟩ := by
  rw [paired_singleton_of_none h]
  change (Action.bind _ _) b = _
  rw [Action.bind, h]
  unfold missReturn
  rw [unpairedMessage_of_reportable hl]
  rfl

/-- Pairing breaks off at a link without a way back that cannot be reported. -/
theorem pairEach_cons_of_not_reportable {l : Link β} (h : f.returnId? l = none)
    (hl : ¬ l.Reportable) (ls : List (Link β)) (b : Builder β) :
    pairEach f (l :: ls) b = ⟨.error .numberTooLong, b.paired f [l], []⟩ := by
  rw [paired_singleton_of_none h]
  change (Action.bind _ _) b = _
  rw [Action.bind, h]
  unfold missReturn
  rw [unpairedMessage_of_not_reportable hl]
  rfl

/-- A link with a way back comes before links that are paired. -/
theorem Pairing.after_some {l : Link β} {other : LinkId} {r : Run (Builder β) Unit}
    (h : f.returnId? l = some other) (p : Pairing f ls (b.paired f [l]) r) :
    Pairing f (l :: ls) b r := by
  have hmissed : ∀ ls, missed f (l :: ls) = missed f ls := by
    intro ls
    rw [missed, List.filter_cons_of_neg (by rw [h]; exact Bool.false_ne_true), missed]
  cases p with
  | whole told =>
    rw [← paired_append, List.singleton_append, complaints, ← hmissed]
    rw [← hmissed] at told
    exact .whole told
  | @brokenOff done rest m split told lost untold =>
    rw [← paired_append, ← List.append_assoc, List.singleton_append, complaints, ← hmissed]
    rw [← hmissed] at told
    exact .brokenOff (by rw [split, List.cons_append]) told lost untold

/-- A link without a way back that is reported comes before links that are paired. -/
theorem Pairing.after_reportable {l : Link β} {r : Run (Builder β) Unit}
    (h : f.returnId? l = none) (hl : l.Reportable) (p : Pairing f ls (b.paired f [l]) r) :
    Pairing f (l :: ls) b
      ⟨r.outcome, r.state, ⟨.debug, Log.ingest, unpairedText l⟩ :: r.log⟩ := by
  have hmissed : ∀ ls, missed f (l :: ls) = l :: missed f ls := by
    intro ls
    rw [missed, List.filter_cons_of_pos (by rw [h]; rfl), missed]
  have hcomplaints : ∀ ls, ⟨.debug, Log.ingest, unpairedText l⟩ :: complaints f ls =
      complaints f (l :: ls) := by
    intro ls
    rw [complaints, complaints, hmissed, List.map_cons]
  have htold : ∀ {ls : List (Link β)}, (∀ x ∈ missed f ls, x.Reportable) →
      ∀ x ∈ missed f (l :: ls), x.Reportable := by
    intro ls told
    rw [hmissed, List.forall_mem_cons]
    exact ⟨hl, told⟩
  cases p with
  | whole told =>
    rw [← paired_append, List.singleton_append, hcomplaints]
    exact .whole (htold told)
  | @brokenOff done rest m split told lost untold =>
    rw [← paired_append, ← List.append_assoc, List.singleton_append, hcomplaints]
    exact .brokenOff (by rw [split, List.cons_append]) (htold told) lost untold

/-- Pairing links one after another ends in one of the two ways. -/
theorem pairEach_pairing (f : Fabric β) (ls : List (Link β)) (b : Builder β) :
    Pairing f ls b (pairEach f ls b) := by
  induction ls generalizing b with
  | nil => exact .whole fun _ h => absurd h List.not_mem_nil
  | cons l ls ih =>
    cases h : f.returnId? l with
    | some other =>
      rw [pairEach_cons_of_some h]
      exact (ih _).after_some h
    | none =>
      by_cases hl : l.Reportable
      · rw [pairEach_cons_of_reportable h hl]
        exact (ih _).after_reportable h hl
      · rw [pairEach_cons_of_not_reportable h hl]
        have hsplit : l :: ls = [] ++ l :: ls := rfl
        exact .brokenOff hsplit (fun _ h => absurd h List.not_mem_nil) h hl

/-! ## Pairing all links -/

/-- Pairing the links of a builder does not break off. -/
def Finishes (b : Builder β) : Prop := (finish b).outcome = .ok ()

/-- Pairing starts with no links missed, and ends with a message about the sizes of the fabric. -/
theorem finish_run (b : Builder β) : finish b =
    ((pairEach b.fabric b.fabric.pairedLinks) >>= fun _ =>
      Action.say .info Log.ingest (sizesMessage b.fabric)) { b with unresolved := 0 } :=
  rfl

/-- How pairing all links ends. -/
inductive Finishing (b : Builder β) : Run (Builder β) Unit → Prop
  /-- All links are paired. -/
  | whole (told : ∀ l ∈ unreturned b.fabric, l.Reportable) :
    Finishing b
      ⟨.ok (), { b with fabric := b.fabric.pairLinks, unresolved := (unreturned b.fabric).length },
        complaints b.fabric b.fabric.pairedLinks ++
          [⟨.info, Log.ingest, sizesMessage b.fabric⟩]⟩
  /-- A link without a way back cannot be reported, and no link behind it is paired. -/
  | brokenOff {done rest : List (Link β)} {l : Link β}
    (split : b.fabric.pairedLinks = done ++ l :: rest)
    (told : ∀ x ∈ missed b.fabric done, x.Reportable) (lost : b.fabric.returnId? l = none)
    (untold : ¬ l.Reportable) :
    Finishing b
      ⟨.error .numberTooLong,
        { b with
          fabric := b.fabric.pairing (done ++ [l]) b.fabric
          unresolved := (missed b.fabric (done ++ [l])).length },
        complaints b.fabric done⟩

/-- Pairing all links ends in one of the two ways. -/
theorem finish_finishing (b : Builder β) : Finishing b (finish b) := by
  rw [finish_run]
  have hpairing := pairEach_pairing b.fabric b.fabric.pairedLinks { b with unresolved := 0 }
  cases hrun : pairEach b.fabric b.fabric.pairedLinks { b with unresolved := 0 } with
  | mk outcome state log =>
    rw [hrun] at hpairing
    cases hpairing with
    | whole told =>
      rw [Action.bind_of_ok hrun, paired, Nat.zero_add]
      exact .whole told
    | brokenOff split told lost untold =>
      rw [Action.bind_of_error hrun, paired, Nat.zero_add]
      exact .brokenOff split told lost untold

/-- Pairing does not break off exactly if each link without a way back can be reported. -/
theorem finishes_iff (b : Builder β) :
    b.Finishes ↔ ∀ l ∈ unreturned b.fabric, l.Reportable := by
  have hfinishing := finish_finishing b
  unfold Finishes
  generalize finish b = r at hfinishing
  cases hfinishing with
  | whole told => exact iff_of_true rfl told
  | @brokenOff done rest l split told lost untold =>
    refine iff_of_false nofun fun h => untold (h l ?_)
    rw [unreturned, missed, List.mem_filter, split, lost]
    exact ⟨List.mem_append_right _ List.mem_cons_self, rfl⟩

/-- Pairing that does not break off pairs the links, counts those without a way back, and
reports each of these and the sizes of the fabric. -/
theorem Finishes.finish_eq (h : b.Finishes) : finish b =
    ⟨.ok (), { b with fabric := b.fabric.pairLinks, unresolved := (unreturned b.fabric).length },
      complaints b.fabric b.fabric.pairedLinks ++
        [⟨.info, Log.ingest, sizesMessage b.fabric⟩]⟩ := by
  have hfinishing := finish_finishing b
  unfold Finishes at h
  generalize finish b = r at hfinishing h
  cases hfinishing with
  | whole told => rfl
  | brokenOff => cases h

/-- What pairing leaves of a builder if it does not break off. -/
theorem Finishes.finish_state (h : b.Finishes) : (finish b).state =
    { b with fabric := b.fabric.pairLinks, unresolved := (unreturned b.fabric).length } := by
  rw [h.finish_eq]

/-- However pairing ends, it pairs some links and counts anew. -/
theorem finish_state_pairing (b : Builder β) : ∃ ls n, (finish b).state =
    { b with fabric := b.fabric.pairing ls b.fabric, unresolved := n } := by
  have hfinishing := finish_finishing b
  generalize finish b = r at hfinishing
  cases hfinishing with
  | whole told => exact ⟨b.fabric.pairedLinks, _, rfl⟩
  | @brokenOff done rest l split told lost untold => exact ⟨done ++ [l], _, rfl⟩

/-- Pairing stops for no other reason than a number that is too long to be written. -/
theorem finish_outcome_cases (b : Builder β) :
    b.Finishes ∨ (finish b).outcome = .error .numberTooLong := by
  have hfinishing := finish_finishing b
  unfold Finishes
  generalize finish b = r at hfinishing
  cases hfinishing with
  | whole told => exact .inl rfl
  | brokenOff split told lost untold => exact .inr rfl

end Builder

end FabricPaths
