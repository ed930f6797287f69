import FabricPaths.Proofs.Action
import FabricPaths.Proofs.Fabric.FirstLink
import FabricPaths.Proofs.Fabric.Pairing
import FabricPaths.Proofs.Path.Orbit

/-!
# Walks follow orbits

A walk leaves a trail: the links that it took, each of which lands at a node. A link that lands
at a node visited before ends the walk there, and so does one that lands at the destination or
at a node that sends the traffic nowhere. Every other link is followed by the one along which
the node where it lands sends the traffic. What holds of trails is therefore shown link by link.

So a walk goes along the orbit of the traffic until it meets a node again, arrives,
or comes to a node that sends the traffic nowhere. `Walked` says so of the part
of a walk that is still ahead, with the nodes visited before it.
-/

namespace FabricPaths.Fabric

variable {β : Type}

/-- Why traffic goes no further than a node: it is told, unless the node is mute. -/
structure Tells (f : Fabric β) (dest v : NodeId) (detail : Except Failure String) : Prop where
  /-- It is told. -/
  told : ¬ f.Mute dest v → ∃ text, detail = .ok text
  /-- It is too long to be told. -/
  untold : f.Mute dest v → detail = .error .numberTooLong

/-- The trail of a walk through nodes that were not visited before: the links taken, and the
course of the walk. -/
inductive Trail (f : Fabric β) (dest : NodeId) : List NodeId → List (Link β) → Course → Prop
  /-- A link lands at a node that was visited before. -/
  | repeated {visited : List NodeId} {link : Link β} {detail : String}
    (seen : link.dest ∈ visited) :
    Trail f dest visited [link] (.afterLink link.id (.stop .loop link.dest (.ok detail)))
  /-- A link lands at the destination. -/
  | arrived {visited : List NodeId} {link : Link β} (new : link.dest ∉ visited)
    (there : link.dest = dest) :
    Trail f dest visited [link] (.afterLink link.id (.afterNode link.dest .arrived))
  /-- A link lands at a node that sends the traffic nowhere. -/
  | stuck {visited : List NodeId} {link : Link β} {status : PathStatus}
    {detail : Except Failure String} (new : link.dest ∉ visited) (short : link.dest ≠ dest)
    (stalls : f.Stalls dest status link.dest) (tells : f.Tells dest link.dest detail) :
    Trail f dest visited [link]
      (.afterLink link.id (.afterNode link.dest (.stop status link.dest detail)))
  /-- A link lands at a node that sends the traffic along another link. -/
  | along {visited : List NodeId} {link next : Link β} {later : List (Link β)} {c : Course}
    (new : link.dest ∉ visited) (short : link.dest ≠ dest)
    (hop : f.egress? dest link.dest = some next)
    (rest : Trail f dest (link.dest :: visited) (next :: later) c) :
    Trail f dest visited (link :: next :: later)
      (.afterLink link.id (.afterNode link.dest c))

/-- How a walk ends after a number of hops, and where it stops short. -/
inductive Ending (f : Fabric β) (dest : NodeId) (visited : List NodeId) (start : NodeId) (n : Nat) :
    PathStatus → Option NodeId → Prop
  /-- It comes to a node that it has visited. -/
  | repeated {v : NodeId} (there : f.orbit dest start n = some v)
    (again : v ∈ visited ∨ ∃ j, j < n ∧ f.orbit dest start j = some v) :
    Ending f dest visited start n .loop (some v)
  /-- It comes to its destination. -/
  | arrived (there : f.orbit dest start n = some dest) (new : dest ∉ visited) :
    Ending f dest visited start n .complete none
  /-- It comes to a node that lacks something. -/
  | stuck {status : PathStatus} {v : NodeId} (there : f.orbit dest start n = some v)
    (new : v ∉ visited) (short : v ≠ dest) (stalls : f.Stalls dest status v) :
    Ending f dest visited start n status (some v)

/-- The walk takes a link and makes a number of hops from its end, all of them
between new nodes that are not the destination. -/
structure Walked (f : Fabric β) (dest : NodeId) (visited : List NodeId) (link : Link β) (n : Nat)
    (c : Course) : Prop where
  /-- The nodes before the last are new, and not the destination. -/
  clear : ∀ j, j < n → ∀ v, f.orbit dest link.dest j = some v → v ∉ visited ∧ v ≠ dest
  /-- The links taken are those along which the traffic goes. -/
  links : c.links.map some = some link.id :: (List.range n).map (f.egressId? dest link.dest)
  /-- The walk ends at the last node. -/
  ending : f.Ending dest visited link.dest n c.status c.stalledAt

variable {f : Fabric β} {dest : NodeId} {visited : List NodeId} {link next : Link β} {n : Nat}

/-- An ending that is one hop further. -/
theorem Ending.step (hnext : f.egress? dest link.dest = some next) {status : PathStatus}
    {stalledAt : Option NodeId}
    (h : f.Ending dest (link.dest :: visited) next.dest n status stalledAt) :
    f.Ending dest visited link.dest (n + 1) status stalledAt := by
  cases h with
  | repeated there again =>
    refine .repeated ((orbit_succ hnext n).trans there) ?_
    rcases again with hin | ⟨j, hj, hagain⟩
    · rcases List.mem_cons.mp hin with hstart | hin
      · refine Or.inr ⟨0, Nat.succ_pos n, ?_⟩
        rw [hstart]
        rfl
      · exact Or.inl hin
    · exact Or.inr ⟨j + 1, Nat.succ_lt_succ hj, (orbit_succ hnext j).trans hagain⟩
  | arrived there new =>
    exact .arrived ((orbit_succ hnext n).trans there) fun hin => new (List.mem_cons_of_mem _ hin)
  | stuck there new short stalls =>
    refine .stuck ((orbit_succ hnext n).trans there) ?_ short stalls
    exact fun hin => new (List.mem_cons_of_mem _ hin)

/-- A walk that is one hop longer. -/
theorem Walked.step (hnew : link.dest ∉ visited) (hshort : link.dest ≠ dest)
    (hnext : f.egress? dest link.dest = some next) {c : Course}
    (h : f.Walked dest (link.dest :: visited) next n c) :
    f.Walked dest visited link (n + 1) (.afterLink link.id (.afterNode link.dest c)) where
  clear := by
    intro j hj v hv
    cases j with
    | zero =>
      cases hv
      exact ⟨hnew, hshort⟩
    | succ j =>
      rw [orbit_succ hnext] at hv
      obtain ⟨hnot, hne⟩ := h.clear j (Nat.lt_of_succ_lt_succ hj) v hv
      exact ⟨fun hin => hnot (List.mem_cons_of_mem _ hin), hne⟩
  links := by
    have hfirst : f.egressId? dest link.dest 0 = some next.id := by
      change ((some link.dest).bind (f.egress? dest)).map (·.id) = _
      rw [Option.bind_some, hnext, Option.map_some]
    have hrest : ∀ j, f.egressId? dest link.dest (j + 1) = f.egressId? dest next.dest j := by
      intro j
      rw [egressId?, orbit_succ hnext, egressId?]
    change some link.id :: c.links.map some = _
    rw [h.links, List.range_succ_eq_map, List.map_cons, List.map_map, hfirst]
    simp only [Function.comp_def, Nat.succ_eq_add_one, hrest]
  ending := h.ending.step hnext

/-- A walk that ends where its link ends. -/
theorem Walked.ends (c : Course) (hlinks : c.links = [])
    (h : f.Ending dest visited link.dest 0 c.status c.stalledAt) :
    f.Walked dest visited link 0 (.afterLink link.id c) where
  clear := fun j hj => absurd hj (Nat.not_lt_zero j)
  links := by
    change some link.id :: c.links.map some = _
    rw [hlinks]
    rfl
  ending := h

/-- What a walk does once it has taken a link to a known node. -/
theorem follow_known {dst current : Node β} (hn : f.nodes.get? link.dest = some current) :
    f.follow dst visited link = .afterLink link.id (
      if link.dest ∈ visited then
        .stop .loop link.dest (.ok s!"{link.dest.text} reached twice")
      else .afterNode link.dest (
        if link.dest = dst.id then .arrived
        else
          match f.forwarding current dst.id with
          | .noTable =>
            .stop .noTable link.dest (.ok s!"no forwarding table for {current.display}")
          | .noEntry =>
            .stop .noEntry link.dest
              (.ok s!"{current.display} has no entry for {dst.display}")
          | .deadPort port => .stop .deadPort link.dest (deadEnd port link.dest)
          | .along next => f.follow dst (link.dest :: visited) next)) := by
  rw [follow]
  congr 1
  split
  · rename_i hnone
    rw [hn] at hnone
    cases hnone
  · rename_i current' hsome
    rw [hn] at hsome
    cases hsome
    rfl

/-- The report on a walk that takes a course and stops short for the given reason. -/
def Course.attempt (c : Course) (src dst : NodeId) (detail : String) : Attempt :=
  { source := src, dest := dst, status := c.status, links := c.links, nodes := src :: c.nodes
    stalledAt := c.stalledAt, detail }

/-- A walk takes its course from the first link of its source. -/
theorem trace_of_firstLink? {src : Node β} {first : Option (Link β)}
    (h : f.firstLink? src = .ok first) (dst : Node β) :
    f.trace src dst = (f.courseFrom src dst first).detail.map
      ((f.courseFrom src dst first).attempt src.id dst.id) := by
  unfold trace
  rw [h]
  cases hdetail : (f.courseFrom src dst first).detail with
  | ok detail =>
    change (f.courseFrom src dst first).detail.bind _ = _
    rw [hdetail]
    rfl
  | error e =>
    change (f.courseFrom src dst first).detail.bind _ = _
    rw [hdetail]
    rfl

/-- A walk that is reported took its course from the first link of its source. -/
theorem trace_eq_ok_iff {src : Node β} {first : Option (Link β)}
    (h : f.firstLink? src = .ok first) (dst : Node β) (a : Attempt) :
    f.trace src dst = .ok a ↔ ∃ detail, (f.courseFrom src dst first).detail = .ok detail ∧
      (f.courseFrom src dst first).attempt src.id dst.id detail = a := by
  rw [trace_of_firstLink? h]
  cases (f.courseFrom src dst first).detail with
  | ok detail =>
    constructor
    · exact fun ha => ⟨detail, rfl, Except.ok.inj ha⟩
    · rintro ⟨detail', hdetail, rfl⟩
      cases hdetail
      rfl
  | error e => exact ⟨nofun, fun ⟨_, hdetail, _⟩ => nomatch hdetail⟩

/-- A walk between two nodes tells their identifiers. -/
theorem trace_ends {src dst : Node β} {a : Attempt} (h : f.trace src dst = .ok a) :
    a.source = src.id ∧ a.dest = dst.id := by
  cases hfirst : f.firstLink? src with
  | error e =>
    unfold trace at h
    rw [hfirst] at h
    cases h
  | ok first =>
    obtain ⟨detail, -, rfl⟩ := (trace_eq_ok_iff hfirst dst a).mp h
    exact ⟨rfl, rfl⟩

/-- The walk between the nodes of two identifiers. -/
def traceBetween (f : Fabric β) (source dest : NodeId) : Except Failure Attempt := do
  f.trace (← f.node source) (← f.node dest)

/-- There is a walk between two identifiers if both are those of known nodes. -/
theorem traceBetween_eq_ok_iff {f : Fabric β} {source dest : NodeId} {a : Attempt} :
    f.traceBetween source dest = .ok a ↔ ∃ src dst, f.nodes.get? source = some src ∧
      f.nodes.get? dest = some dst ∧ f.trace src dst = .ok a := by
  unfold traceBetween node
  cases f.nodes.get? source with
  | none => exact ⟨nofun, fun ⟨_, _, h, _⟩ => nomatch h⟩
  | some src =>
    cases f.nodes.get? dest with
    | none => exact ⟨nofun, fun ⟨_, _, _, h, _⟩ => nomatch h⟩
    | some dst =>
      constructor
      · exact fun h => ⟨src, dst, rfl, rfl, h⟩
      · rintro ⟨src', dst', hsrc, hdst, h⟩
        cases hsrc
        cases hdst
        exact h

/-- A walk between two known nodes is one between their identifiers. -/
theorem trace_eq_traceBetween {f : Fabric β} {source dest : NodeId} {src dst : Node β}
    (hsrc : f.nodes.get? source = some src) (hdst : f.nodes.get? dest = some dst)
    (routes : RoutingTables) :
    (f.withRoutes routes).trace src dst = (f.withRoutes routes).traceBetween source dest := by
  have hnodes : (f.withRoutes routes).nodes = f.nodes := rfl
  unfold traceBetween node
  rw [hnodes, hsrc, hdst]
  rfl

namespace Wired

/-- The link along which a node of a wired fabric sends traffic is indexed, and leaves the node. -/
theorem egress?_spec (w : f.Wired) {v : NodeId} (h : f.egress? dest v = some link) :
    f.links.get? link.id = some link ∧ link.parent = v := by
  unfold egress? at h
  obtain ⟨node, hn, h⟩ := Option.bind_eq_some_iff.mp h
  obtain ⟨table, -, h⟩ := Option.bind_eq_some_iff.mp h
  obtain ⟨port, -, h⟩ := Option.bind_eq_some_iff.mp h
  obtain ⟨hlink, hparent, -⟩ := (w.linkAt?_eq_some_iff hn).mp h
  exact ⟨hlink, hparent⟩

/-- The link along which a node of a wired fabric sends traffic is indexed. -/
theorem egress?_indexed (w : f.Wired) {v : NodeId} (h : f.egress? dest v = some link) :
    f.links.get? link.id = some link :=
  (w.egress?_spec h).1

/-- A port without a link is told of unless its number is too long to be written. -/
theorem tells_deadEnd {v : NodeId} {node : Node β} (hn : f.nodes.get? v = some node)
    (hid : node.id = v) {port : Int} (hf : f.forwarding node dest = .deadPort port) :
    f.Tells dest v (deadEnd port v) := by
  unfold deadEnd
  by_cases hshort : Text.IsWritable port
  · rw [Text.writeNumeral_of_isWritable hshort]
    refine ⟨fun _ => ⟨_, rfl⟩, fun hmute => ?_⟩
    obtain ⟨port', hf', hlong⟩ := (mute_iff hn hid).mp hmute
    rw [hf] at hf'
    cases hf'
    exact absurd hshort hlong
  · rw [Text.writeNumeral_of_not_isWritable hshort]
    refine ⟨fun hmute => absurd ((mute_iff hn hid).mpr ⟨port, hf, hshort⟩) hmute, fun _ => rfl⟩

/-- Anything else that a node lacks is told of. -/
theorem tells_of_ok {v : NodeId} {node : Node β} (hn : f.nodes.get? v = some node)
    (hid : node.id = v) (hf : ∀ port, f.forwarding node dest ≠ .deadPort port) (text : String) :
    f.Tells dest v (.ok text) := by
  refine ⟨fun _ => ⟨text, rfl⟩, fun hmute => ?_⟩
  obtain ⟨port, hport, -⟩ := (mute_iff hn hid).mp hmute
  exact absurd hport (hf port)

/-- What a walk through a wired fabric does from an indexed link on leaves a trail. -/
theorem follow_trail (w : f.Wired) (dst : Node β) (visited : List NodeId) (link : Link β)
    (hlink : f.links.get? link.id = some link) :
    ∃ later, f.Trail dst.id visited (link :: later) (f.follow dst visited link) := by
  induction visited, link using follow.induct f with
  | case1 visited link ih =>
    obtain ⟨current, hn⟩ := w.link_dest hlink
    have hid : current.id = link.dest := (w.node_fit hn).id_eq
    rw [follow_known hn]
    by_cases hseen : link.dest ∈ visited
    · rw [if_pos hseen]
      exact ⟨[], .repeated hseen⟩
    · rw [if_neg hseen]
      by_cases harrived : link.dest = dst.id
      · rw [if_pos harrived]
        exact ⟨[], .arrived hseen harrived⟩
      · rw [if_neg harrived]
        have hstuck : ∀ status, (f.forwarding current dst.id).stall? = some status →
            f.Stalls dst.id status link.dest := fun status => (stalls_iff hn hid status).mpr
        cases hf : f.forwarding current dst.id with
        | noTable =>
          exact ⟨[], .stuck hseen harrived (hstuck _ (congrArg Forwarding.stall? hf))
            (tells_of_ok hn hid (fun port h => nomatch hf.symm.trans h) _)⟩
        | noEntry =>
          exact ⟨[], .stuck hseen harrived (hstuck _ (congrArg Forwarding.stall? hf))
            (tells_of_ok hn hid (fun port h => nomatch hf.symm.trans h) _)⟩
        | deadPort port =>
          exact ⟨[], .stuck hseen harrived (hstuck _ (congrArg Forwarding.stall? hf))
            (tells_deadEnd hn hid hf)⟩
        | along next =>
          have hnext := (egress?_eq_some_iff hn hid next).mpr hf
          obtain ⟨later, hrest⟩ := ih current hn hseen next (w.egress?_indexed hnext)
          exact ⟨next :: later, .along hseen harrived hnext hrest⟩

end Wired

/-- A walk that leaves a trail follows the orbit of the traffic. -/
theorem Trail.walked {later : List (Link β)} {c : Course}
    (t : f.Trail dest visited (link :: later) c) : ∃ n, f.Walked dest visited link n c := by
  generalize hls : link :: later = ls at t
  induction t generalizing link later with
  | repeated seen =>
    cases hls
    exact ⟨0, .ends _ rfl (.repeated rfl (Or.inl seen))⟩
  | arrived new there =>
    cases hls
    rw [there] at new
    exact ⟨0, .ends _ rfl (.arrived (congrArg some there) new)⟩
  | stuck new short stalls tells =>
    cases hls
    exact ⟨0, .ends _ rfl (.stuck rfl new short stalls)⟩
  | along new short hop rest ih =>
    cases hls
    obtain ⟨n, hwalked⟩ := ih rfl
    exact ⟨n + 1, hwalked.step new short hop⟩

/-- A walk through a wired fabric follows the orbit of the traffic. -/
theorem Wired.follow_walked (w : f.Wired) (dst : Node β) (visited : List NodeId) (link : Link β)
    (hlink : f.links.get? link.id = some link) :
    ∃ n, f.Walked dst.id visited link n (f.follow dst visited link) := by
  obtain ⟨later, t⟩ := w.follow_trail dst visited link hlink
  exact t.walked

/-- The walk ends at a node that is mute. -/
def Course.Hushed (f : Fabric β) (dest : NodeId) (c : Course) : Prop :=
  c.status = .deadPort ∧ ∃ v, c.stalledAt = some v ∧ f.Mute dest v

/-- Why a walk that leaves a trail ended is told, unless it ended at a mute node. -/
theorem Trail.tells {ls : List (Link β)} {c : Course} (t : f.Trail dest visited ls c) :
    (¬ c.Hushed f dest ∧ ∃ text, c.detail = .ok text) ∨
      (c.Hushed f dest ∧ c.detail = .error .numberTooLong) := by
  induction t with
  | repeated seen => exact .inl ⟨nofun, _, rfl⟩
  | arrived new there => exact .inl ⟨nofun, _, rfl⟩
  | @stuck visited link status detail new short stalls tells =>
    by_cases hmute : f.Mute dest link.dest
    · exact .inr ⟨⟨hmute.status_eq stalls, _, rfl, hmute⟩, tells.untold hmute⟩
    · refine .inl ⟨?_, tells.told hmute⟩
      rintro ⟨-, v, hv, hv'⟩
      cases hv
      exact hmute hv'
  | along new short hop rest ih => exact ih

end FabricPaths.Fabric
