import FabricPaths.Proofs.Path.Walk

/-!
# The fate of traffic

Seen from outside, without anyone who keeps a list of visited nodes, traffic
that has left a source comes back to it, arrives, gets stuck, or goes on for
ever. These four exclude each other, since each of the first three is settled at
one number of hops. A walk ends as the fate of the traffic says.
-/

namespace FabricPaths.Fabric

variable {β : Type}

/-- No node that the traffic meets in its first hops is the source or the destination. -/
def Clear (f : Fabric β) (src dest start : NodeId) (n : Nat) : Prop :=
  ∀ j, j < n → ∀ v, f.orbit dest start j = some v → v ≠ src ∧ v ≠ dest

/-- The traffic arrives after a number of hops, without having met the source. -/
def Arrives (f : Fabric β) (src dest start : NodeId) (k : Nat) : Prop :=
  f.orbit dest start k = some dest ∧ f.Clear src dest start k

/-- The traffic is at a node after a number of hops, and has met neither the
source nor the destination. -/
def Underway (f : Fabric β) (src dest start : NodeId) (k : Nat) (v : NodeId) : Prop :=
  f.orbit dest start k = some v ∧ f.Clear src dest start (k + 1)

/-- The traffic never stops, and meets neither the source nor the destination. -/
def Endless (f : Fabric β) (src dest start : NodeId) : Prop :=
  ∀ k, ∃ v, f.orbit dest start k = some v ∧ v ≠ src ∧ v ≠ dest

/-- What becomes of the traffic is settled at a node after a number of hops. -/
def Settles (f : Fabric β) (src dest start : NodeId) (k : Nat) (v : NodeId) : Prop :=
  f.orbit dest start k = some v ∧ f.Clear src dest start k ∧
    (v = src ∨ v = dest ∨ f.egress? dest v = none)

/-- What becomes of the traffic, as the way in which a walk ends and the node at
which it stops short. -/
inductive Fate (f : Fabric β) (src dest start : NodeId) : PathStatus → Option NodeId → Prop
  /-- It comes back to the source. -/
  | returns {k : Nat} (there : f.orbit dest start k = some src)
    (clear : f.Clear src dest start k) : Fate f src dest start .loop (some src)
  /-- It arrives. -/
  | arrives {k : Nat} (there : f.Arrives src dest start k) : Fate f src dest start .complete none
  /-- It gets stuck. -/
  | stuck {k : Nat} {v : NodeId} {status : PathStatus} (there : f.Underway src dest start k v)
    (stalls : f.Stalls dest status v) : Fate f src dest start status (some v)
  /-- It goes on for ever, in a cycle through some node. -/
  | endless {v : NodeId} (never : f.Endless src dest start) (elsewhere : v ≠ src) :
    Fate f src dest start .loop (some v)

/-- The traffic from one node to another gets stuck at a mute node. -/
def Silenced (f : Fabric β) (src dst : Node β) : Prop :=
  ∃ first k v, f.firstLink? src = .ok (some first) ∧
    f.Underway src.id dst.id first.dest k v ∧ f.Mute dst.id v

variable {f : Fabric β} {src dest start : NodeId}

/-- The node at which traffic is underway is neither the source nor the destination. -/
theorem Underway.ne {k : Nat} {v : NodeId} (h : f.Underway src dest start k v) :
    v ≠ src ∧ v ≠ dest :=
  h.2 k (Nat.lt_succ_self k) v h.1

/-- The nodes before one at which traffic is underway are clear. -/
theorem Underway.clear {k : Nat} {v : NodeId} (h : f.Underway src dest start k v) :
    f.Clear src dest start k :=
  fun j hj => h.2 j (Nat.lt_succ_of_lt hj)

/-- Traffic that is clear up to a node other than source and destination is underway there. -/
theorem Clear.underway {k : Nat} {v : NodeId} (h : f.Clear src dest start k)
    (hv : f.orbit dest start k = some v) (hsrc : v ≠ src) (hdest : v ≠ dest) :
    f.Underway src dest start k v := by
  refine ⟨hv, ?_⟩
  intro j hj u hu
  by_cases hlt : j < k
  · exact h j hlt u hu
  · have heq : j = k := by omega
    rw [heq, hv] at hu
    cases hu
    exact ⟨hsrc, hdest⟩

/-- No hop is made after what becomes of the traffic is settled, unless through
the source or the destination. -/
theorem Settles.le {k k' : Nat} {v v' : NodeId} (h : f.Settles src dest start k v)
    (h' : f.Settles src dest start k' v') : k' ≤ k := by
  apply Nat.le_of_not_lt
  intro hlt
  obtain ⟨hsrc, hdest⟩ := h'.2.1 k hlt v h.1
  rcases h.2.2 with heq | heq | hstuck
  · exact hsrc heq
  · exact hdest heq
  · have hle := orbit_le_of_stuck h.1 hstuck h'.1
    omega

/-- What becomes of the traffic is settled once only. -/
theorem Settles.unique {k k' : Nat} {v v' : NodeId} (h : f.Settles src dest start k v)
    (h' : f.Settles src dest start k' v') : k = k' ∧ v = v' := by
  have hk : k = k' := Nat.le_antisymm (h'.le h) (h.le h')
  have hv : some v = some v' := by rw [← h.1, hk, h'.1]
  exact ⟨hk, Option.some.inj hv⟩

/-- Where traffic arrives its fate is settled. -/
theorem Arrives.settles {k : Nat} (h : f.Arrives src dest start k) :
    f.Settles src dest start k dest :=
  ⟨h.1, h.2, Or.inr (Or.inl rfl)⟩

/-- Where traffic has nowhere to go its fate is settled. -/
theorem Underway.settles {k : Nat} {v : NodeId} (h : f.Underway src dest start k v)
    (hstuck : f.egress? dest v = none) : f.Settles src dest start k v :=
  ⟨h.1, h.clear, Or.inr (Or.inr hstuck)⟩

/-- Endless traffic has no fate that is settled. -/
theorem Endless.not_settles (h : f.Endless src dest start) {k : Nat} {v : NodeId} :
    ¬ f.Settles src dest start k v := by
  intro hs
  obtain ⟨u, hu, hsrc, hdest⟩ := h k
  obtain ⟨w, hw, -, -⟩ := h (k + 1)
  have huv : some u = some v := hu.symm.trans hs.1
  cases huv
  rcases hs.2.2 with heq | heq | hstuck
  · exact hsrc heq
  · exact hdest heq
  · have hle := orbit_le_of_stuck hs.1 hstuck hw
    omega

/-- Traffic that comes to the source before the destination comes to the source
for a first time, with a clear way there. -/
theorem exists_returns {k : Nat} (hk : f.orbit dest start k = some src)
    (hbefore : ∀ j, j < k → f.orbit dest start j ≠ some dest) :
    ∃ m, f.orbit dest start m = some src ∧ f.Clear src dest start m := by
  induction k using Nat.strongRecOn with
  | ind k ih =>
    by_cases hearlier : ∃ j, j < k ∧ f.orbit dest start j = some src
    · obtain ⟨j, hj, hsrc⟩ := hearlier
      exact ih j hj hsrc fun i hi => hbefore i (Nat.lt_trans hi hj)
    · refine ⟨k, hk, ?_⟩
      intro j hj v hv
      constructor
      · intro heq
        rw [heq] at hv
        exact hearlier ⟨j, hj, hv⟩
      · intro heq
        rw [heq] at hv
        exact hbefore j hj hv

/-- The hops of a walk from a source are clear up to the last. -/
theorem Walked.clear_way {link : Link β} {n : Nat} {c : Course}
    (h : f.Walked dest [src] link n c) : f.Clear src dest link.dest n := by
  intro j hj v hv
  obtain ⟨hnew, hshort⟩ := h.clear j hj v hv
  exact ⟨fun heq => hnew (List.mem_singleton.mpr heq), hshort⟩

/-- A walk from a source ends as the fate of the traffic says. -/
theorem Walked.fate {link : Link β} {n : Nat} {c : Course} (h : f.Walked dest [src] link n c) :
    f.Fate src dest link.dest c.status c.stalledAt := by
  have hclear := h.clear_way
  have hending := h.ending
  generalize c.status = status at hending
  generalize c.stalledAt = stalledAt at hending
  cases hending with
  | @repeated v there again =>
    by_cases hsrc : v = src
    · rw [hsrc] at there ⊢
      exact .returns there hclear
    · refine .endless ?_ hsrc
      rcases again with hin | ⟨j, hj, hagain⟩
      · exact absurd (List.mem_singleton.mp hin) hsrc
      · intro k
        obtain ⟨i, hi, hsame⟩ := orbit_cycle hj hagain there k
        obtain ⟨u, hu⟩ := orbit_of_le (Nat.le_of_lt hi) there
        exact ⟨u, hsame.trans hu, hclear i hi u hu⟩
  | arrived there new => exact .arrives ⟨there, hclear⟩
  | @stuck status v there new short stalls =>
    have hsrc : v ≠ src := fun heq => new (List.mem_singleton.mpr heq)
    exact .stuck (hclear.underway there hsrc short) stalls

namespace Wired

/-- Traffic through a wired fabric meets known nodes only. -/
theorem orbit_known (w : f.Wired) (hstart : ∃ node, f.nodes.get? start = some node) (k : Nat)
    {v : NodeId} (hv : f.orbit dest start k = some v) :
    ∃ node, f.nodes.get? v = some node ∧ node.id = v := by
  have hknown : ∃ node, f.nodes.get? v = some node := by
    cases k with
    | zero =>
      cases hv
      exact hstart
    | succ k =>
      obtain ⟨u, -, hhop⟩ := Option.bind_eq_some_iff.mp hv
      obtain ⟨link, hlink, rfl⟩ := Option.map_eq_some_iff.mp hhop
      exact w.link_dest (w.egress?_indexed hlink)
  obtain ⟨node, hn⟩ := hknown
  exact ⟨node, hn, (w.node_fit hn).id_eq⟩

/-- Traffic that is stuck is where its fate is settled. -/
theorem settles_of_stalls (w : f.Wired) (hstart : ∃ node, f.nodes.get? start = some node) {k : Nat}
    {v : NodeId} (h : f.Underway src dest start k v) {status : PathStatus}
    (hstalls : f.Stalls dest status v) : f.Settles src dest start k v := by
  obtain ⟨node, hn, hid⟩ := w.orbit_known hstart k h.1
  exact h.settles (hstalls.egress?_eq_none hn hid)

/-- What settles the fate of the traffic tells the fate. -/
theorem fate_of_settles (w : f.Wired) (hstart : ∃ node, f.nodes.get? start = some node)
    {status : PathStatus} {stalledAt : Option NodeId}
    (hfate : f.Fate src dest start status stalledAt) {k : Nat} {v : NodeId}
    (h : f.Settles src dest start k v) :
    (v = src ∧ status = .loop) ∨ (v = dest ∧ status = .complete ∧ stalledAt = none) ∨
      (v ≠ src ∧ v ≠ dest ∧ f.Stalls dest status v ∧ stalledAt = some v) := by
  cases hfate with
  | returns there clear =>
    have hsettles : f.Settles src dest start _ src := ⟨there, clear, Or.inl rfl⟩
    exact Or.inl ⟨(h.unique hsettles).2, rfl⟩
  | arrives there => exact Or.inr (Or.inl ⟨(h.unique there.settles).2, rfl, rfl⟩)
  | stuck there stalls =>
    have heq := (h.unique (w.settles_of_stalls hstart there stalls)).2
    rw [heq]
    exact Or.inr (Or.inr ⟨there.ne.1, there.ne.2, stalls, rfl⟩)
  | endless never elsewhere => exact absurd h never.not_settles

/-- A walk stops short in some way just if the traffic is stuck for want of the
thing that the way names. -/
theorem stalls_iff_underway (w : f.Wired) (hstart : ∃ node, f.nodes.get? start = some node)
    {status : PathStatus} {stalledAt : Option NodeId}
    (hfate : f.Fate src dest start status stalledAt) {status' : PathStatus}
    (hloop : status' ≠ .loop) (v : NodeId) :
    status = status' ∧ stalledAt = some v ↔
      ∃ k, f.Underway src dest start k v ∧ f.Stalls dest status' v := by
  constructor
  · intro h
    obtain ⟨rfl, rfl⟩ := h
    cases hfate with
    | returns there clear => exact absurd rfl hloop
    | stuck there stalls => exact ⟨_, there, stalls⟩
    | endless never elsewhere => exact absurd rfl hloop
  · intro h
    obtain ⟨k, hunderway, hstalls⟩ := h
    have hsettles := w.settles_of_stalls hstart hunderway hstalls
    obtain ⟨node, hn, hid⟩ := w.orbit_known hstart k hunderway.1
    rcases w.fate_of_settles hstart hfate hsettles with h | h | h
    · exact absurd h.1 hunderway.ne.1
    · exact absurd h.1 hunderway.ne.2
    · exact ⟨h.2.2.1.status_eq hn hid hstalls, h.2.2.2⟩

/-- A course ends at a mute node just if the traffic is stuck at one. -/
theorem hushed_iff (w : f.Wired) (hstart : ∃ node, f.nodes.get? start = some node)
    {c : Course} (hfate : f.Fate src dest start c.status c.stalledAt) :
    c.Hushed f dest ↔ ∃ k v, f.Underway src dest start k v ∧ f.Mute dest v := by
  have hstuck : ∀ v, c.status = .deadPort ∧ c.stalledAt = some v ↔
      ∃ k, f.Underway src dest start k v ∧ f.Stalls dest .deadPort v :=
    w.stalls_iff_underway hstart hfate nofun
  constructor
  · rintro ⟨hstatus, v, hv, hmute⟩
    obtain ⟨k, hunderway, -⟩ := (hstuck v).mp ⟨hstatus, hv⟩
    exact ⟨k, v, hunderway, hmute⟩
  · rintro ⟨k, v, hunderway, hmute⟩
    obtain ⟨hstatus, hv⟩ := (hstuck v).mpr ⟨k, hunderway, hmute.lacksLink⟩
    exact ⟨hstatus, v, hv, hmute⟩

/-- A walk is reported unless the traffic is stuck at a mute node. -/
theorem trace_cases (w : f.Wired) {src : Node β} (hsrc : f.nodes.get? src.id = some src)
    (dst : Node β) :
    (¬ f.Silenced src dst ∧ ∃ a, f.trace src dst = .ok a) ∨
      (f.Silenced src dst ∧ f.trace src dst = .error .numberTooLong) := by
  rcases w.firstLink?_cases hsrc with hnone | ⟨first, hsome, hfirst, -⟩
  · refine .inl ⟨?_, _, trace_of_firstLink? hnone dst⟩
    rintro ⟨first, k, v, hfirst, -⟩
    cases hnone.symm.trans hfirst
  · obtain ⟨later, t⟩ := w.follow_trail dst [src.id] first hfirst
    obtain ⟨n, hwalked⟩ := t.walked
    have hhushed := w.hushed_iff (w.link_dest hfirst) hwalked.fate
    have hsilenced : f.Silenced src dst ↔
        ∃ k v, f.Underway src.id dst.id first.dest k v ∧ f.Mute dst.id v := by
      constructor
      · rintro ⟨first', k, v, hfirst', h⟩
        cases hsome.symm.trans hfirst'
        exact ⟨k, v, h⟩
      · rintro ⟨k, v, h⟩
        exact ⟨first, k, v, hsome, h⟩
    rw [hsilenced, ← hhushed, trace_of_firstLink? hsome]
    change _ ∧ (∃ a, (f.follow dst [src.id] first).detail.map _ = .ok a) ∨
      _ ∧ (f.follow dst [src.id] first).detail.map _ = _
    refine t.tells.imp (And.imp id ?_) (And.imp id ?_)
    · rintro ⟨text, htext⟩
      rw [htext]
      exact ⟨_, rfl⟩
    · intro herror
      rw [herror]
      rfl

/-- A walk is reported just if the traffic is not stuck at a mute node. -/
theorem reported_iff (w : f.Wired) {src : Node β} (hsrc : f.nodes.get? src.id = some src)
    (dst : Node β) : (∃ a, f.trace src dst = .ok a) ↔ ¬ f.Silenced src dst := by
  rcases w.trace_cases hsrc dst with ⟨hnot, ha⟩ | ⟨hsilenced, herror⟩
  · exact iff_of_true ha hnot
  · refine iff_of_false ?_ fun hnot => hnot hsilenced
    rintro ⟨a, ha⟩
    cases herror.symm.trans ha

/-- A walk that is not reported ends at a number that is too long to be written. -/
theorem eq_numberTooLong_of_trace (w : f.Wired) {src dst : Node β}
    (hsrc : f.nodes.get? src.id = some src) {e : Failure} (he : f.trace src dst = .error e) :
    e = .numberTooLong := by
  rcases w.trace_cases hsrc dst with ⟨-, a, ha⟩ | ⟨-, herror⟩
  · cases ha.symm.trans he
  · cases herror.symm.trans he
    rfl

end Wired

end FabricPaths.Fabric
