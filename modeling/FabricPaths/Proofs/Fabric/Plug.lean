import Mathlib.Data.List.Nodup
import FabricPaths.Fabric.Plug
import FabricPaths.Proofs.OrderedMap

/-!
# What plugging a link changes

Three views of a fabric tell all that plugging is about: the number in each
slot, the positions that each edge lists, and the index of links. Plugging a
link changes each view at the link's own slot, and nowhere else.
-/

namespace FabricPaths

namespace Edge

variable {β : Type} [Bandwidth β]

/-- An edge with an attached link lists a position. -/
theorem attach_ne_nil (e : Edge β) (slot : Nat) (gbits : β) :
    (e.attach slot gbits).linkPorts ≠ [] := by
  unfold attach
  dsimp only
  split
  · rename_i hin
    exact List.ne_nil_of_mem hin
  · simp

/-- Attaching a link lists no position twice. -/
theorem nodup_attach (e : Edge β) (h : e.linkPorts.Nodup) (slot : Nat) (gbits : β) :
    (e.attach slot gbits).linkPorts.Nodup := by
  unfold attach
  dsimp only
  split
  · exact h
  · rename_i hout
    rw [← List.concat_eq_append]
    exact List.Nodup.concat hout h

end Edge

namespace Node

variable {β : Type}

/-- The number in a slot. -/
def linkIn? (n : Node β) (slot : Nat) : Option LinkId := n.ports[slot]?.join

/-- The positions listed on the edge to a node. -/
def listed (n : Node β) (dest : NodeId) : List Int :=
  match n.edges.get? dest with
  | some e => e.linkPorts
  | none => []

/-- The number at a port is the one in its slot. -/
theorem linkAt?_of_pos (n : Node β) {port : Int} (h : 1 ≤ port) :
    n.linkAt? port = n.linkIn? (port - 1).toNat := by
  unfold linkAt? slotOf? linkIn?
  by_cases hlast : port ≤ n.ports.length
  · rw [if_pos ⟨h, hlast⟩, Option.bind_some]
  · have hpast : n.ports.length ≤ (port - 1).toNat := by omega
    rw [if_neg (fun hin => hlast hin.2), List.getElem?_eq_none hpast]
    rfl

/-- There is nothing at ports below one. -/
theorem linkAt?_of_not_pos (n : Node β) {port : Int} (h : ¬ 1 ≤ port) : n.linkAt? port = none := by
  rw [linkAt?, slotOf?, if_neg (fun hin => h hin.1), Option.bind_none]

/-- Empty slots behind the last one hold nothing, like slots that are not there. -/
theorem join_pad (ports : List (Option LinkId)) (m i : Nat) :
    (ports ++ List.replicate m none)[i]?.join = ports[i]?.join := by
  rcases Nat.lt_or_ge i ports.length with h | h
  · rw [List.getElem?_append_left h]
  · rw [List.getElem?_append_right h, List.getElem?_eq_none h, List.getElem?_replicate]
    split <;> rfl

/-- The list of slots reaches the slot that is set. -/
theorem lt_length_pad (n : Node β) (slot : Nat) :
    slot < (n.ports ++ List.replicate (n.missingSlots slot) none).length := by
  rw [List.length_append, List.length_replicate, missingSlots]
  omega

/-- Setting a slot changes what that slot holds, and nothing else. -/
theorem linkIn?_setSlot (n : Node β) (slot : Nat) (link : LinkId) (i : Nat) :
    (n.setSlot slot link).linkIn? i = if i = slot then some link else n.linkIn? i := by
  unfold linkIn? setSlot
  by_cases h : i = slot
  · subst h
    rw [if_pos rfl, List.getElem?_set_self (lt_length_pad n i)]
    rfl
  · rw [if_neg h, List.getElem?_set_ne (Ne.symm h), join_pad]

/-- A list of slots that ends in no empty slot still does once a slot is set. -/
theorem getLast?_setSlot {n : Node β} (h : n.ports.getLast? ≠ some none) (slot : Nat)
    (link : LinkId) : (n.setSlot slot link).ports.getLast? ≠ some none := by
  have hlen := lt_length_pad n slot
  unfold setSlot
  dsimp only
  rw [List.getLast?_eq_getElem?, List.length_set]
  rw [List.getLast?_eq_getElem?] at h
  by_cases hlast : (n.ports ++ List.replicate (n.missingSlots slot) none).length - 1 = slot
  · rw [hlast, List.getElem?_set_self hlen]
    simp
  · rw [List.getElem?_set_ne (Ne.symm hlast)]
    rw [List.length_append, List.length_replicate] at hlen hlast ⊢
    have hpad : n.missingSlots slot = 0 := by
      rw [missingSlots] at hlen hlast ⊢
      omega
    rw [hpad, List.replicate_zero, List.append_nil, Nat.add_zero]
    exact h

/-- The edges of a node run from it to the nodes under which they are kept, and
each lists positions, none twice. -/
def EdgesFit (n : Node β) : Prop :=
  ∀ ⦃d e⦄, n.edges.get? d = some e →
    e.source = n.id ∧ e.dest = d ∧ e.linkPorts ≠ [] ∧ e.linkPorts.Nodup

/-- No position is listed twice. -/
theorem EdgesFit.nodup_listed {n : Node β} (h : n.EdgesFit) (d : NodeId) :
    (n.listed d).Nodup := by
  unfold listed
  cases he : n.edges.get? d with
  | none => exact List.nodup_nil
  | some e => exact (h he).2.2.2

/-- The second node is the first one with other edges and slots. -/
def Rewired (n n' : Node β) : Prop := n' = { n with edges := n'.edges, ports := n'.ports }

namespace Rewired

/-- A node is itself with its own edges and slots. -/
theorem refl (n : Node β) : n.Rewired n := rfl

/-- Edges and slots may be changed twice. -/
theorem trans {n n' n'' : Node β} (h : n.Rewired n') (h' : n'.Rewired n'') : n.Rewired n'' := by
  unfold Rewired at h h' ⊢
  rw [h', h]

end Rewired

variable [Bandwidth β]

/-- Attaching a slot lists it on the edge to its destination. -/
theorem listed_attach (n : Node β) (dest : NodeId) (slot : Nat) (gbits : β) (d : NodeId) :
    (n.attach dest slot gbits).listed d =
      if d = dest then
        if (slot : Int) ∈ n.listed d then n.listed d else n.listed d ++ [(slot : Int)]
      else n.listed d := by
  unfold listed attach
  dsimp only
  rw [OrderedMap.get?_insert]
  by_cases h : d = dest
  · subst h
    rw [if_pos rfl, if_pos rfl]
    cases n.edges.get? d <;> rfl
  · rw [if_neg h, if_neg h]

/-- Attached edges fit. -/
theorem EdgesFit.attach {n : Node β} (h : n.EdgesFit) (dest : NodeId) (slot : Nat) (gbits : β) :
    (n.attach dest slot gbits).EdgesFit := by
  intro d e he
  unfold Node.attach at he
  dsimp only at he
  rw [OrderedMap.get?_insert] at he
  by_cases hd : d = dest
  · subst hd
    rw [if_pos rfl] at he
    cases he
    cases hn : n.edges.get? d with
    | none => exact ⟨rfl, rfl, List.cons_ne_nil _ _, List.nodup_singleton _⟩
    | some e =>
      obtain ⟨hs, ht, hne, hnd⟩ := h hn
      exact ⟨hs, ht, e.attach_ne_nil slot gbits, e.nodup_attach hnd slot gbits⟩
  · rw [if_neg hd] at he
    exact h he

/-- What is found under a node's edges once a slot is detached. -/
theorem edges_detach (n : Node β) (slot : Nat) (old : Link β) (sameDest : Bool) (d : NodeId) :
    (n.detach slot old sameDest).edges.get? d =
      if d = old.dest then
        (n.edges.get? d).bind fun e =>
          if sameDest then some (e.lower old.gbits)
          else if (e.linkPorts.erase (slot : Int)).isEmpty then none
          else some ((e.lower old.gbits).unlist slot)
      else n.edges.get? d := by
  unfold detach
  by_cases hd : d = old.dest
  · subst hd
    rw [if_pos rfl]
    cases he : n.edges.get? old.dest with
    | none => exact he
    | some e =>
      dsimp only [Option.bind_some]
      cases sameDest with
      | true => rw [if_pos rfl, if_pos rfl, OrderedMap.get?_insert, if_pos rfl]
      | false =>
        change (if (e.linkPorts.erase (slot : Int)).isEmpty then n.edges.erase old.dest
          else n.edges.insert old.dest ((e.lower old.gbits).unlist slot)).get? old.dest =
            if (e.linkPorts.erase (slot : Int)).isEmpty then none
            else some ((e.lower old.gbits).unlist slot)
        split
        · rw [OrderedMap.get?_erase, if_pos rfl]
        · rw [OrderedMap.get?_insert, if_pos rfl]
  · rw [if_neg hd]
    cases he : n.edges.get? old.dest with
    | none => rfl
    | some e =>
      dsimp only
      cases sameDest with
      | true => rw [if_pos rfl, OrderedMap.get?_insert, if_neg hd]
      | false =>
        rw [if_neg Bool.false_ne_true]
        dsimp only
        split
        · rw [OrderedMap.get?_erase, if_neg hd]
        · rw [OrderedMap.get?_insert, if_neg hd]

/-- Detaching a slot takes it off the edge, unless the edge gets it back. -/
theorem listed_detach (n : Node β) (slot : Nat) (old : Link β) (sameDest : Bool) (d : NodeId) :
    (n.detach slot old sameDest).listed d =
      if d = old.dest ∧ sameDest = false then (n.listed d).erase (slot : Int)
      else n.listed d := by
  unfold listed
  rw [edges_detach]
  by_cases hd : d = old.dest
  · rw [if_pos hd]
    cases he : n.edges.get? d with
    | none => cases sameDest <;> simp
    | some e =>
      dsimp only [Option.bind_some]
      cases sameDest with
      | true =>
        rw [if_pos rfl, if_neg (fun h => Bool.false_ne_true h.2.symm)]
        rfl
      | false =>
        have hoff : d = old.dest ∧ false = false := ⟨hd, rfl⟩
        rw [if_neg Bool.false_ne_true, if_pos hoff]
        by_cases hempty : (e.linkPorts.erase (slot : Int)).isEmpty
        · rw [if_pos hempty]
          exact (List.isEmpty_iff.mp hempty).symm
        · rw [if_neg hempty]
          rfl
  · rw [if_neg hd, if_neg (fun h => hd h.1)]

/-- Detaching leaves the node's identifier, slots, subnodes and partition. -/
theorem detach_frame (n : Node β) (slot : Nat) (old : Link β) (sameDest : Bool) :
    (n.detach slot old sameDest).id = n.id ∧ (n.detach slot old sameDest).ports = n.ports ∧
      (n.detach slot old sameDest).subnodes = n.subnodes ∧
      (n.detach slot old sameDest).mainPartition = n.mainPartition := by
  unfold detach
  cases n.edges.get? old.dest with
  | none => exact ⟨rfl, rfl, rfl, rfl⟩
  | some e => cases sameDest <;> exact ⟨rfl, rfl, rfl, rfl⟩

/-- Detached edges fit. -/
theorem EdgesFit.detach {n : Node β} (h : n.EdgesFit) (slot : Nat) (old : Link β)
    (sameDest : Bool) : (n.detach slot old sameDest).EdgesFit := by
  intro d e he
  rw [(n.detach_frame slot old sameDest).1]
  rw [edges_detach] at he
  by_cases hd : d = old.dest
  · rw [if_pos hd] at he
    obtain ⟨e', he', hchange⟩ := Option.bind_eq_some_iff.mp he
    obtain ⟨hs, ht, hne, hnd⟩ := h he'
    cases sameDest with
    | true =>
      cases hchange
      exact ⟨hs, ht, hne, hnd⟩
    | false =>
      rw [if_neg Bool.false_ne_true] at hchange
      by_cases hempty : (e'.linkPorts.erase (slot : Int)).isEmpty
      · rw [if_pos hempty] at hchange
        cases hchange
      · rw [if_neg hempty] at hchange
        cases hchange
        exact ⟨hs, ht, fun hnil => hempty (List.isEmpty_iff.mpr hnil), hnd.erase _⟩
  · rw [if_neg hd] at he
    exact h he

end Node

namespace Fabric

variable {β : Type}

/-- The number in a slot of a node. -/
def linkIn? (f : Fabric β) (id : NodeId) (slot : Nat) : Option LinkId :=
  (f.nodes.get? id).bind fun n => n.linkIn? slot

/-- The positions listed on the edge between two nodes. -/
def listed (f : Fabric β) (id dest : NodeId) : List Int :=
  match f.nodes.get? id with
  | some n => n.listed dest
  | none => []

/-- The number in a slot of a known node. -/
theorem linkIn?_of_node {f : Fabric β} {id : NodeId} {n : Node β} (h : f.nodes.get? id = some n)
    (slot : Nat) : f.linkIn? id slot = n.linkIn? slot := by
  rw [linkIn?, h, Option.bind_some]

/-- The positions listed on an edge of a known node. -/
theorem listed_of_node {f : Fabric β} {id : NodeId} {n : Node β} (h : f.nodes.get? id = some n)
    (dest : NodeId) : f.listed id dest = n.listed dest := by
  rw [listed, h]

variable [Bandwidth β]

/-- A node with the former link of a slot taken off its edge. -/
def vacated (f : Fabric β) (n : Node β) (l : Link β) : Node β :=
  match f.plugged? n (slotOf l) with
  | none => n
  | some old => n.detach (slotOf l) old (decide (old.dest = l.dest))

/-- A node with a link plugged in. -/
def pluggedNode (f : Fabric β) (n : Node β) (l : Link β) : Node β :=
  ((f.vacated n l).setSlot (slotOf l) l.id).attach l.dest (slotOf l) l.gbits

/-- Plugging a link changes its source only. -/
theorem plug_nodes (f : Fabric β) (n : Node β) (l : Link β) :
    (f.plug n l).nodes = f.nodes.insert l.parent (f.pluggedNode n l) := by
  unfold plug pluggedNode vacated
  dsimp only
  cases f.plugged? n (slotOf l) <;> rfl

/-- Plugging a link puts it in the index in place of the former link. -/
theorem plug_links (f : Fabric β) (n : Node β) (l : Link β) :
    (f.plug n l).links =
      (match f.plugged? n (slotOf l) with
        | none => f.links
        | some old => f.links.erase old.id).insert l.id l := by
  unfold plug
  dsimp only
  cases f.plugged? n (slotOf l) <;> rfl

/-- Plugging a link puts none aside. -/
theorem plug_asideLinks (f : Fabric β) (n : Node β) (l : Link β) :
    (f.plug n l).asideLinks =
      match f.plugged? n (slotOf l) with
      | none => f.asideLinks
      | some old => f.asideLinks.erase old.id := by
  unfold plug
  dsimp only
  cases f.plugged? n (slotOf l) <;> rfl

/-- Taking the former link off its edge leaves the rest of the node. -/
theorem vacated_frame (f : Fabric β) (n : Node β) (l : Link β) :
    (f.vacated n l).id = n.id ∧ (f.vacated n l).ports = n.ports ∧
      (f.vacated n l).subnodes = n.subnodes ∧
      (f.vacated n l).mainPartition = n.mainPartition := by
  unfold vacated
  cases f.plugged? n (slotOf l) with
  | none => exact ⟨rfl, rfl, rfl, rfl⟩
  | some old => exact n.detach_frame _ _ _

/-- Plugging a link changes no more of a node than its edges and slots. -/
theorem rewired_pluggedNode (f : Fabric β) (n : Node β) (l : Link β) :
    n.Rewired (f.pluggedNode n l) := by
  unfold Node.Rewired pluggedNode vacated
  cases f.plugged? n (slotOf l) with
  | none => rfl
  | some old =>
    dsimp only
    unfold Node.detach
    cases n.edges.get? old.dest with
    | none => rfl
    | some e => cases decide (old.dest = l.dest) <;> rfl

/-- The slot of a plugged link holds its number, and other slots what they held. -/
theorem linkIn?_plug {f : Fabric β} {n : Node β} {l : Link β}
    (h : f.nodes.get? l.parent = some n) (id : NodeId) (i : Nat) :
    (f.plug n l).linkIn? id i =
      if id = l.parent ∧ i = slotOf l then some l.id else f.linkIn? id i := by
  unfold linkIn?
  rw [plug_nodes, OrderedMap.get?_insert]
  by_cases hid : id = l.parent
  · subst hid
    have hset := (f.vacated n l).linkIn?_setSlot (slotOf l) l.id i
    have hvac : (f.vacated n l).linkIn? i = n.linkIn? i := by
      rw [Node.linkIn?, (f.vacated_frame n l).2.1, Node.linkIn?]
    rw [if_pos rfl, h, Option.bind_some, Option.bind_some]
    change ((f.vacated n l).setSlot (slotOf l) l.id).linkIn? i = _
    rw [hset, hvac]
    by_cases hi : i = slotOf l
    · rw [if_pos hi, if_pos ⟨rfl, hi⟩]
    · rw [if_neg hi, if_neg (fun h => hi h.2)]
  · rw [if_neg hid, if_neg (fun h => hid h.1)]

end Fabric

end FabricPaths
