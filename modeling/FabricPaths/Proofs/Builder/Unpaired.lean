import FabricPaths.Proofs.Builder.History
import FabricPaths.Proofs.Fabric.Pairing

/-!
# Earlier pairings have no influence

Taking records in neither reads nor writes which links are paired, and pairing
reads only what records left. A builder without its pairings therefore goes
through a history like the builder itself, and the last pairing of a history
comes out the same whether links were paired before or not.
-/

namespace FabricPaths

variable {β : Type}

namespace Fabric

/-- The fabric with no link paired. -/
def unpaired (f : Fabric β) : Fabric β :=
  { f with
    links := f.links.mapValues fun _ l => l.pairedWith none
    asideLinks := f.asideLinks.mapValues fun _ l => l.pairedWith none }

/-- A link is found whether links are paired or not. -/
theorem anyLink?_unpaired (f : Fabric β) (k : LinkId) :
    f.unpaired.anyLink? k = (f.anyLink? k).map (·.pairedWith none) := by
  unfold anyLink? unpaired
  dsimp only
  rw [OrderedMap.get?_mapValues, OrderedMap.get?_mapValues]
  cases f.links.get? k with
  | none => rfl
  | some l => rfl

/-- The link in a slot is found whether links are paired or not. -/
theorem plugged?_unpaired (f : Fabric β) (n : Node β) (slot : Nat) :
    f.unpaired.plugged? n slot = (f.plugged? n slot).map (·.pairedWith none) := by
  unfold plugged?
  cases n.ports[slot]?.join with
  | none => rfl
  | some k => exact f.anyLink?_unpaired k

/-- The link at a port is found whether links are paired or not. -/
theorem linkAt?_unpaired (f : Fabric β) (n : Node β) (port : Int) :
    f.unpaired.linkAt? n port = (f.linkAt? n port).map (·.pairedWith none) := by
  unfold linkAt?
  cases n.linkAt? port with
  | none => rfl
  | some k => exact f.anyLink?_unpaired k

/-- The links of a node are found whether links are paired or not. -/
theorem linksOf_unpaired (f : Fabric β) (n : Node β) :
    f.unpaired.linksOf n = (f.linksOf n).map (·.pairedWith none) := by
  unfold linksOf
  rw [List.map_filterMap]
  congr 1
  exact funext f.anyLink?_unpaired

/-- The same links are paired whether they are paired or not. -/
theorem pairedLinks_unpaired (f : Fabric β) :
    f.unpaired.pairedLinks = f.pairedLinks.map (·.pairedWith none) := by
  unfold pairedLinks
  rw [List.map_flatMap]
  congr 1
  funext n
  rw [List.map_flatMap]
  congr 1
  exact funext f.linksOf_unpaired

/-- The way back does not depend on which links are paired. -/
theorem returnId?_unpaired (f : Fabric β) (l : Link β) :
    f.unpaired.returnId? (l.pairedWith none) = f.returnId? l := by
  have hreturn : f.unpaired.returnOf? (l.pairedWith none) =
      (f.returnOf? l).map (·.pairedWith none) := by
    unfold returnOf?
    change (f.nodes.get? l.dest).bind _ = ((f.nodes.get? l.dest).bind _).map _
    cases f.nodes.get? l.dest with
    | none => rfl
    | some n =>
      have hat := f.linkAt?_unpaired n l.destPort
      change (f.unpaired.linkAt? n l.destPort).bind _ = ((f.linkAt? n l.destPort).bind _).map _
      rw [hat]
      cases f.linkAt? n l.destPort with
      | none => rfl
      | some o =>
        have hsame : (l.pairedWith none).IsReturn (o.pairedWith none) ↔ l.IsReturn o := Iff.rfl
        dsimp only [Option.map_some, Option.bind_some]
        by_cases h : l.IsReturn o
        · rw [if_pos h, if_pos (hsame.mpr h)]
          rfl
        · rw [if_neg h, if_neg (fun h' => h (hsame.mp h'))]
          rfl
  rw [returnId?, hreturn, Option.map_map, returnId?]
  rfl

/-- Pairing changes nothing but which links are paired. -/
theorem unpaired_pairing (f : Fabric β) (ls : List (Link β)) (g : Fabric β) :
    (f.pairing ls g).unpaired = g.unpaired := by
  refine f.pairing_frame (fun g id other => ?_) ls g
  have hkeep : ∀ l : Link β, (l.pairedWith other).pairedWith none = l.pairedWith none :=
    fun _ => rfl
  unfold unpaired modifyLink
  dsimp only
  rw [mapValues_modify_eq hkeep, mapValues_modify_eq hkeep]

/-- Pairing a wired fabric forgets which links were paired before. -/
theorem Wired.pairLinks_unpaired {f : Fabric β} (w : f.Wired) :
    f.unpaired.pairLinks = f.pairLinks := by
  have haside : f.asideLinks = ∅ := OrderedMap.ext w.aside_nil
  have hbare : f.unpaired.bare = f.bare := by
    unfold bare unpaired
    dsimp only
    rw [OrderedMap.mapValues_mapValues, OrderedMap.mapValues_mapValues]
    rfl
  have w' : f.unpaired.Wired := w.of_bare_eq hbare
  have hlinks : (f.unpaired.links.mapValues fun _ l => f.unpaired.paired l) =
      f.links.mapValues fun _ l => f.paired l := by
    unfold unpaired paired
    dsimp only
    rw [OrderedMap.mapValues_mapValues]
    apply OrderedMap.mapValues_congr
    intro e _
    have hid := f.returnId?_unpaired e.2
    unfold unpaired at hid
    rw [hid]
    rfl
  rw [w'.pairLinks_eq, w.pairLinks_eq, hlinks]
  unfold unpaired
  dsimp only
  rw [haside]
  rfl

variable [Bandwidth β]

/-- Plugging a link does not depend on which links are paired. -/
theorem plug_unpaired (f : Fabric β) (n : Node β) {l : Link β} (h : l.otherLink = none) :
    f.unpaired.plug n l = (f.plug n l).unpaired := by
  have hl : l.pairedWith none = l := by
    rw [Link.pairedWith, ← h]
  unfold plug
  dsimp only
  rw [f.plugged?_unpaired]
  cases f.plugged? n (slotOf l) with
  | none =>
    unfold unpaired
    dsimp only [Option.map_none]
    rw [OrderedMap.mapValues_insert, hl]
  | some old =>
    unfold unpaired
    dsimp only [Option.map_some]
    rw [OrderedMap.mapValues_insert, OrderedMap.mapValues_erase, OrderedMap.mapValues_erase, hl]
    rfl

end Fabric

namespace Builder

/-- The builder with no link paired and no link counted as unpaired. -/
def unpaired (b : Builder β) : Builder β :=
  { b with fabric := b.fabric.unpaired, unresolved := 0 }

/-- Creating a node is blind to pairings. -/
theorem blind_ensureNode (type : NodeType) (lid : Int) (guid description : String) :
    Action.Blind unpaired (ensureNode (β := β) type lid guid description) := by
  apply Action.Blind.get_bind
  intro b
  have hnodes : b.unpaired.fabric.nodes = b.fabric.nodes := rfl
  rw [hnodes]
  cases b.fabric.nodes.get? (.ofGuid guid) with
  | some n => rfl
  | none =>
    dsimp only
    cases isNameless type description with
    | true => rfl
    | false => rfl

/-- Using up a number is blind to pairings. -/
theorem blind_takeLinkId : Action.Blind unpaired (takeLinkId (β := β)) := fun _ => rfl

/-- Pairing changes nothing but what is forgotten with the pairings. -/
theorem unpaired_finish (b : Builder β) : (finish b).state.unpaired = b.unpaired := by
  obtain ⟨ls, n, hstate⟩ := finish_state_pairing b
  rw [hstate, unpaired, unpaired]
  dsimp only
  rw [b.fabric.unpaired_pairing]

/-- Forgetting the pairings changes the links without a way back in no other respect. -/
theorem unreturned_unpaired (f : Fabric β) :
    unreturned f.unpaired = (unreturned f).map (·.pairedWith none) := by
  unfold unreturned missed
  rw [f.pairedLinks_unpaired, List.filter_map]
  congr 2
  funext l
  dsimp only [Function.comp_apply]
  rw [f.returnId?_unpaired]

/-- Whether pairing breaks off does not depend on which links were paired before. -/
theorem finishes_unpaired (b : Builder β) : b.unpaired.Finishes ↔ b.Finishes := by
  rw [finishes_iff, finishes_iff, unpaired, unreturned_unpaired, List.forall_mem_map]
  exact Iff.rfl

/-- Pairing the links of a wired fabric that does not break off comes out the same whether links
were paired before or not, and so do the messages. -/
theorem Finishes.finish_unpaired {b : Builder β} (h : b.Finishes) (w : b.fabric.Wired) :
    finish b.unpaired = finish b := by
  have hmessages : complaints b.fabric.unpaired b.fabric.unpaired.pairedLinks =
      complaints b.fabric b.fabric.pairedLinks := by
    unfold complaints
    rw [← unreturned, unreturned_unpaired, List.map_map]
    rfl
  have hlinks : b.fabric.unpaired.links.size = b.fabric.links.size := List.length_map _
  have hnodes : b.fabric.unpaired.nodes = b.fabric.nodes := rfl
  have hsubnet : b.fabric.unpaired.subnet = b.fabric.subnet := rfl
  have hsizes : sizesMessage b.fabric.unpaired = sizesMessage b.fabric := by
    rw [sizesMessage, hlinks, hnodes, hsubnet, sizesMessage]
  rw [((finishes_unpaired b).mpr h).finish_eq, h.finish_eq]
  dsimp only [unpaired]
  rw [hmessages, unreturned_unpaired, List.length_map, w.pairLinks_unpaired, hsizes]

variable [Memory] [Bandwidth β]

/-- Making a link is blind to pairings. -/
theorem blind_makeLink (r : LinkRecord) : Action.Blind unpaired (makeLink (β := β) r) := by
  have hofExcept : ∀ {α : Type} (x : Except Failure α),
      Action.Blind (unpaired (β := β)) (Action.ofExcept x) := fun _ _ => rfl
  refine Action.Blind.bind (hofExcept _) fun gbits => ?_
  refine Action.Blind.bind blind_takeLinkId fun id => Action.Blind.get_bind fun b => ?_
  have hplug : ∀ src : Node β, Action.Blind unpaired (Action.modify fun b : Builder β =>
      { b with fabric := b.fabric.plug src (linkOf r id gbits) }) := by
    intro src
    apply Action.Blind.modify
    intro b
    unfold unpaired
    dsimp only
    rw [b.fabric.plug_unpaired src rfl]
  have hplugged : ∀ (src : Node β) (slot : Nat), b.unpaired.fabric.plugged? src slot =
      (b.fabric.plugged? src slot).map (·.pairedWith none) := b.fabric.plugged?_unpaired
  have hnode : b.unpaired.fabric.node (linkOf r id gbits).parent =
      b.fabric.node (linkOf r id gbits).parent := rfl
  rw [hnode]
  cases b.fabric.node (linkOf r id gbits).parent with
  | error e => rfl
  | ok src =>
    rw [Action.ofExcept_ok_bind, Action.ofExcept_ok_bind]
    cases checkRoom (src.missingSlots (Fabric.slotOf (linkOf r id gbits))) with
    | error e => rfl
    | ok _ =>
      rw [Action.ofExcept_ok_bind, Action.ofExcept_ok_bind, hplugged]
      cases b.fabric.plugged? src (Fabric.slotOf (linkOf r id gbits)) with
      | none =>
        exact Action.Blind.bind (hplug src) (fun _ => Action.Blind.pure _) b
      | some old =>
        exact Action.Blind.bind (Action.Blind.say _ _ _) (fun _ =>
          Action.Blind.bind (hplug src) fun _ => Action.Blind.pure _) b

/-- Adding a link is blind to pairings. -/
theorem blind_addLink (r : LinkRecord) : Action.Blind unpaired (addLink (β := β) r) := by
  rw [addLink_eq]
  by_cases port : r.srcPort < 1
  · rw [if_pos port]
    exact Action.Blind.fail _
  · rw [if_neg port]
    exact Action.Blind.bind (blind_ensureNode _ _ _ _) fun _ =>
      Action.Blind.bind (blind_ensureNode _ _ _ _) fun _ => blind_makeLink r

/-- A call other than pairing treats the builder without its pairings like the builder. -/
theorem apply_unpaired {c : Call} (h : c ≠ .finish) (b : Builder β) :
    c.apply b.unpaired = (c.apply b).unpaired := by
  have hC : Action.Compositional (σ := Builder β) fun _ => Action.Blind unpaired :=
    Action.Blind.compositional
  cases c with
  | ingest r =>
    have hblind : Action.Blind unpaired (ingest (β := β) r) :=
      compositional_ingest hC blind_addLink r
    exact congrArg Run.state (hblind b)
  | ingestLines source lines =>
    have hblind : Action.Blind unpaired (ingestLines (β := β) source lines) :=
      compositional_ingestLines hC blind_addLink (fun _ => Action.Blind.modify fun _ => rfl)
        source lines
    exact congrArg Run.state (hblind b)
  | finish => exact absurd rfl h

/-- A history leaves the same behind as the history without its pairings, but
for which links are paired. -/
theorem run_unpaired (calls : List Call) {b b' : Builder β} (h : b.unpaired = b'.unpaired) :
    (b.run calls).unpaired = (b'.run (calls.filter fun c => decide (c ≠ .finish))).unpaired := by
  induction calls generalizing b b' with
  | nil => exact h
  | cons c calls ih =>
    by_cases hc : c = .finish
    · have hkept : (c.apply b).unpaired = b'.unpaired := by
        rw [hc]
        exact b.unpaired_finish.trans h
      have hdropped : decide (c ≠ .finish) = false := by
        rw [decide_eq_false_iff_not]
        exact fun hne => hne hc
      rw [List.filter_cons, hdropped]
      exact ih hkept
    · have hkept : (c.apply b).unpaired = (c.apply b').unpaired := by
        rw [← apply_unpaired hc, h, apply_unpaired hc]
      rw [List.filter_cons, decide_eq_true hc]
      exact ih hkept

end Builder

end FabricPaths
