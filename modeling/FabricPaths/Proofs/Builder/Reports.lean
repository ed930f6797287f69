import FabricPaths.Proofs.Builder.Mentions

/-!
# Slots hold what is last said of them

A record reports what its source port is cabled to. A builder that accepts records has a
link at every port that was reported, and it is the link of the last report, under the
number of records that came before that one. The main statement says of a list of
accepted records what nodes, slots and links there are and what each of them is.
-/

namespace FabricPaths

/-- A member of a list with one more at the end is a former member or the last one. -/
theorem getElem?_concat_cases {α : Type} {xs : List α} {x y : α} {j : Nat}
    (h : (xs ++ [x])[j]? = some y) :
    (j < xs.length ∧ xs[j]? = some y) ∨ (j = xs.length ∧ y = x) := by
  rcases Nat.lt_or_ge j xs.length with hlt | hge
  · exact Or.inl ⟨hlt, (List.getElem?_append_left hlt).symm.trans h⟩
  · have hbound := (List.getElem?_eq_some_iff.mp h).1
    rw [List.length_append, List.length_singleton] at hbound
    have hj : j = xs.length := by omega
    rw [hj, List.getElem?_concat_length] at h
    exact Or.inr ⟨hj, (Option.some.inj h).symm⟩

/-- The second record reports the same port. -/
def LinkRecord.SamePort (r r' : LinkRecord) : Prop :=
  r'.srcId = r.srcId ∧ r'.srcPort = r.srcPort

instance (r r' : LinkRecord) : Decidable (r.SamePort r') := inferInstanceAs (Decidable (_ ∧ _))

/-- The record comes after `k` others, and none behind it reports the same port. -/
structure LastReport (rs : List LinkRecord) (k : Nat) (r : LinkRecord) : Prop where
  /-- The record comes after `k` others. -/
  place : rs[k]? = some r
  /-- No later record reports the same port. -/
  last : ∀ ⦃j r'⦄, k < j → rs[j]? = some r' → ¬ r.SamePort r'

namespace LastReport

variable {rs : List LinkRecord} {k : Nat} {r : LinkRecord}

/-- A last report is one of the records. -/
theorem mem (h : LastReport rs k r) : r ∈ rs := List.mem_of_getElem? h.place

/-- With one more record, its port has that record as last report, and other ports have the
last reports they had. -/
theorem concat_iff (rs : List LinkRecord) (r' : LinkRecord) : LastReport (rs ++ [r']) k r ↔
    (k = rs.length ∧ r = r') ∨ (LastReport rs k r ∧ ¬ r.SamePort r') := by
  constructor
  · intro h
    rcases getElem?_concat_cases h.place with ⟨hlt, hplace⟩ | hlast
    · refine Or.inr ⟨⟨hplace, fun j r'' hj hr'' => h.last hj ?_⟩, ?_⟩
      · rw [List.getElem?_append_left (List.getElem?_eq_some_iff.mp hr'').1]
        exact hr''
      · exact h.last hlt List.getElem?_concat_length
    · exact Or.inl hlast
  · rintro (⟨rfl, rfl⟩ | ⟨h, hother⟩)
    · refine ⟨List.getElem?_concat_length, fun j r'' hj hr'' => ?_⟩
      have hbound := (List.getElem?_eq_some_iff.mp hr'').1
      rw [List.length_append, List.length_singleton] at hbound
      omega
    · have hlt := (List.getElem?_eq_some_iff.mp h.place).1
      refine ⟨(List.getElem?_append_left hlt).trans h.place, fun j r'' hj hr'' => ?_⟩
      rcases getElem?_concat_cases hr'' with ⟨-, hr''⟩ | ⟨-, rfl⟩
      · exact h.last hj hr''
      · exact hother

end LastReport

/-- A port that is reported has a last report. -/
theorem exists_lastReport {rs : List LinkRecord} {r : LinkRecord} (h : r ∈ rs) :
    ∃ k r', LastReport rs k r' ∧ r.SamePort r' := by
  induction rs using List.reverseRecOn with
  | nil => cases h
  | append_singleton rs r' ih =>
    by_cases hport : r.SamePort r'
    · exact ⟨rs.length, r', (LastReport.concat_iff rs r').mpr (Or.inl ⟨rfl, rfl⟩), hport⟩
    · have hne : r ≠ r' := by
        rintro rfl
        exact hport ⟨rfl, rfl⟩
      have hin : r ∈ rs := by
        rcases List.mem_append.mp h with hin | hin
        · exact hin
        · exact absurd (List.mem_singleton.mp hin) hne
      obtain ⟨k, r'', hlast, hsame⟩ := ih hin
      refine ⟨k, r'', (LastReport.concat_iff rs r').mpr (Or.inr ⟨hlast, ?_⟩), hsame⟩
      exact fun hport' => hport ⟨hport'.1.trans hsame.1, hport'.2.trans hsame.2⟩

namespace Builder

/-- Records with positive ports report the same port if they report the same slot. -/
theorem samePort_iff {r r' : LinkRecord} (h : 1 ≤ r.srcPort) (h' : 1 ≤ r'.srcPort) :
    r.SamePort r' ↔ r.srcId = r'.srcId ∧ r.slot = r'.slot := by
  unfold LinkRecord.SamePort LinkRecord.slot
  constructor
  · rintro ⟨hid, hport⟩
    exact ⟨hid.symm, by rw [hport]⟩
  · rintro ⟨hid, hslot⟩
    exact ⟨hid.symm, by omega⟩

variable {β : Type}

section Taken

variable [Memory] [Bandwidth β] {subnet : String} {rs : List LinkRecord}

/-- Accepted records report ports that are counted from one. -/
theorem Accepted.port (h : Accepted β subnet rs) {r : LinkRecord} (hr : r ∈ rs) :
    1 ≤ r.srcPort := by
  induction h with
  | nil => cases hr
  | concat before last ih =>
    rcases List.mem_append.mp hr with hr | hr
    · exact ih hr
    · obtain ⟨gbits, src, hstep⟩ := accepting_of_ok last
      rw [List.mem_singleton.mp hr]
      exact hstep.port

/-- Every accepted record used up one number. -/
theorem Accepted.nextLink (h : Accepted β subnet rs) :
    (taken subnet rs : Builder β).nextLink = rs.length := by
  induction h with
  | nil => rfl
  | concat before last ih =>
    obtain ⟨gbits, src, hstep⟩ := accepting_of_ok last
    rw [taken_concat, hstep.nextLink, ih, List.length_append, List.length_singleton]

/-- A slot holds the number of records before the last report of its port. -/
theorem Accepted.linkIn?_eq_some_iff (h : Accepted β subnet rs) (x : NodeId) (i : Nat)
    (k : LinkId) : (taken subnet rs : Builder β).fabric.linkIn? x i = some k ↔
      ∃ r, LastReport rs k r ∧ r.srcId = x ∧ r.slot = i := by
  induction h generalizing k with
  | nil => exact ⟨nofun, fun ⟨r, hlast, _⟩ => nomatch hlast.mem⟩
  | @concat rs r l before last ih =>
    obtain ⟨gbits, src, hstep⟩ := accepting_of_ok last
    rw [taken_concat, hstep.linkIn?, before.nextLink]
    simp only [LastReport.concat_iff]
    by_cases hslot : x = r.srcId ∧ i = r.slot
    · rw [if_pos hslot]
      obtain ⟨rfl, rfl⟩ := hslot
      constructor
      · intro hk
        exact ⟨r, Or.inl ⟨(Option.some.inj hk).symm, rfl⟩, rfl, rfl⟩
      · rintro ⟨r', ⟨rfl, rfl⟩ | ⟨hlast, hother⟩, hid, hslot⟩
        · rfl
        · exact absurd ((samePort_iff (before.port hlast.mem) hstep.port).mpr ⟨hid, hslot⟩) hother
    · rw [if_neg hslot, ih]
      constructor
      · rintro ⟨r', hlast, rfl, rfl⟩
        refine ⟨r', Or.inr ⟨hlast, fun hport => hslot ?_⟩, rfl, rfl⟩
        exact (samePort_iff (before.port hlast.mem) hstep.port).mp hport
      · rintro ⟨r', ⟨rfl, rfl⟩ | ⟨hlast, -⟩, rfl, rfl⟩
        · exact absurd ⟨rfl, rfl⟩ hslot
        · exact ⟨r', hlast, rfl, rfl⟩

/-- The indexed links are those of the last reports, each under the number of records that
came before. -/
theorem Accepted.links_eq_some_iff (h : Accepted β subnet rs) (k : LinkId) (l : Link β) :
    (taken subnet rs : Builder β).fabric.links.get? k = some l ↔
      ∃ r gbits, LastReport rs k r ∧ Bandwidth.ofLink r.speed r.width = .ok gbits ∧
        l = linkOf r k gbits := by
  induction h generalizing k l with
  | nil =>
    constructor
    · intro hl
      cases hl
    · rintro ⟨r, gbits, hlast, -⟩
      cases hlast.mem
  | @concat rs r l' before last ih =>
    obtain ⟨gbits, src, hstep⟩ := accepting_of_ok last
    rw [taken_concat, hstep.links (sound_taken subnet rs), before.nextLink]
    simp only [LastReport.concat_iff]
    by_cases hk : k = rs.length
    · rw [if_pos hk]
      constructor
      · intro hl
        exact ⟨r, gbits, Or.inl ⟨hk, rfl⟩, hstep.measured, by rw [hk, Option.some.inj hl]⟩
      · rintro ⟨r', gbits', ⟨-, rfl⟩ | ⟨hlast, -⟩, hgbits, rfl⟩
        · rw [hstep.measured] at hgbits
          rw [Except.ok.inj hgbits, hk]
        · exact absurd hk (Nat.ne_of_lt (List.getElem?_eq_some_iff.mp hlast.place).1)
    · rw [if_neg hk]
      by_cases hslot : (taken subnet rs : Builder β).fabric.linkIn? r.srcId r.slot = some k
      · rw [if_pos hslot]
        obtain ⟨old, hold, hid, hport⟩ := (before.linkIn?_eq_some_iff _ _ k).mp hslot
        have hsame := (samePort_iff (before.port hold.mem) hstep.port).mpr ⟨hid, hport⟩
        constructor
        · intro hl
          cases hl
        · rintro ⟨r', gbits', ⟨hk', -⟩ | ⟨hlast, hother⟩, -, -⟩
          · exact absurd hk' hk
          · have hplace := hold.place
            rw [hlast.place] at hplace
            cases hplace
            exact absurd hsame hother
      · rw [if_neg hslot, ih]
        constructor
        · rintro ⟨r', gbits', hlast, hgbits, rfl⟩
          refine ⟨r', gbits', Or.inr ⟨hlast, fun hport => hslot ?_⟩, hgbits, rfl⟩
          obtain ⟨hid, hport⟩ := (samePort_iff (before.port hlast.mem) hstep.port).mp hport
          exact (before.linkIn?_eq_some_iff _ _ k).mpr ⟨r', hlast, hid, hport⟩
        · rintro ⟨r', gbits', ⟨hk', -⟩ | ⟨hlast, -⟩, hgbits, rfl⟩
          · exact absurd hk' hk
          · exact ⟨r', gbits', hlast, hgbits, rfl⟩

/-- What a builder that accepted records holds, in terms of the records alone. -/
structure Holds (rs : List LinkRecord) (b : Builder β) : Prop where
  /-- The nodes come in the order in which they were first mentioned. -/
  node_order : b.fabric.nodes.keys = ((rs.flatMap LinkRecord.mentions).map Mention.id).eraseDups
  /-- A node is as its first mention describes it. -/
  node_first : ∀ id n, b.fabric.nodes.get? id = some n →
    ∃ m, firstMention? id (rs.flatMap LinkRecord.mentions) = some m ∧ m.Describes n
  /-- There is a link at a port just if the port was reported. -/
  port_reported : ∀ id n, b.fabric.nodes.get? id = some n → ∀ port,
    (∃ k, n.linkAt? port = some k) ↔ ∃ r ∈ rs, r.srcId = id ∧ r.srcPort = port
  /-- The link at a port has the number of records before the last report of the port. -/
  port_last : ∀ id n, b.fabric.nodes.get? id = some n → ∀ port k,
    n.linkAt? port = some k ↔ ∃ r, LastReport rs k r ∧ r.srcId = id ∧ r.srcPort = port
  /-- The links are those of the last reports. -/
  link_last : ∀ k l, b.fabric.links.get? k = some l ↔ ∃ r gbits, LastReport rs k r ∧
    Bandwidth.ofLink r.speed r.width = .ok gbits ∧ l = linkOf r k gbits
  /-- Links are indexed in the order of their numbers. -/
  links_ascending : b.fabric.links.keys.Pairwise (· < ·)

/-- The link at a port is the one of the last report of the port. -/
theorem Accepted.linkAt?_eq_some_iff (h : Accepted β subnet rs) {id : NodeId} {n : Node β}
    (hn : (taken subnet rs).fabric.nodes.get? id = some n) (port : Int) (k : LinkId) :
    n.linkAt? port = some k ↔ ∃ r, LastReport rs k r ∧ r.srcId = id ∧ r.srcPort = port := by
  by_cases hport : 1 ≤ port
  · rw [n.linkAt?_of_pos hport, ← Fabric.linkIn?_of_node hn, h.linkIn?_eq_some_iff]
    constructor
    · rintro ⟨r, hlast, hid, hslot⟩
      have hpos := h.port hlast.mem
      unfold LinkRecord.slot at hslot
      exact ⟨r, hlast, hid, by omega⟩
    · rintro ⟨r, hlast, hid, rfl⟩
      exact ⟨r, hlast, hid, rfl⟩
  · rw [n.linkAt?_of_not_pos hport]
    constructor
    · nofun
    · rintro ⟨r, hlast, hid, rfl⟩
      exact absurd (h.port hlast.mem) hport

/-- A builder that accepted records holds just what the records say: nodes as they were first
mentioned and links as they were last reported. The numbers up to the number of records are
used up, and a node that is there after some of the records changes no more than its edges
and slots with the others. -/
theorem accepted_records_held (subnet : String) {rs : List LinkRecord}
    (h : Accepted β subnet rs) :
    (taken subnet rs : Builder β).Holds rs ∧
      (taken subnet rs : Builder β).nextLink = rs.length ∧
      ∀ before later, rs = before ++ later → ∀ (id : NodeId) (n : Node β),
        (taken subnet before).fabric.nodes.get? id = some n →
        ∃ n', (taken subnet rs).fabric.nodes.get? id = some n' ∧ n.Rewired n' := by
  refine ⟨⟨h.introduced.keys, h.introduced.first, ?_, ?_, h.links_eq_some_iff, ?_⟩,
    h.nextLink, ?_⟩
  · intro id n hn port
    simp only [h.linkAt?_eq_some_iff hn]
    constructor
    · rintro ⟨k, r, hlast, hends⟩
      exact ⟨r, hlast.mem, hends⟩
    · rintro ⟨r, hr, rfl, rfl⟩
      obtain ⟨k, r', hlast, hsame⟩ := exists_lastReport hr
      exact ⟨k, r', hlast, hsame⟩
  · exact fun id n hn port k => h.linkAt?_eq_some_iff hn port k
  · exact (sound_taken subnet rs).wired.ascending
  · rintro before later rfl id n hn
    exact node_kept_taken before later hn

end Taken

/-- A cable between a host and a switch, told from both ends, another cable of the switch, and
the first cable once more, with other lanes. -/
def sampleReports : List LinkRecord := [
  { srcType := .host, srcLid := 1, srcPort := 1, srcGuid := "11", width := "4x", speed := "EDR"
    destType := .switch, destLid := 9, destPort := 1, destGuid := "a1" },
  { srcType := .switch, srcLid := 9, srcPort := 1, srcGuid := "a1", width := "4x", speed := "EDR"
    destType := .host, destLid := 1, destPort := 1, destGuid := "11" },
  { srcType := .switch, srcLid := 9, srcPort := 2, srcGuid := "a1", width := "4x", speed := "EDR"
    destType := .host, destLid := 2, destPort := 1, destGuid := "12" },
  { srcType := .switch, srcLid := 9, srcPort := 1, srcGuid := "a1", width := "8x", speed := "EDR"
    destType := .host, destLid := 1, destPort := 1, destGuid := "11" }]

/-- The reports are accepted by any builder. -/
theorem accepted_sampleReports [Bandwidth β] : Accepted β "s" sampleReports :=
  accepted_of_room (by decide +kernel)

/-- There are three nodes, and the first port of the switch has the link of the last report. -/
theorem sampleReports_held : Accepted Float "s" sampleReports ∧
    (taken "s" sampleReports : Builder Float).fabric.nodes.keys =
      [.ofGuid "11", .ofGuid "a1", .ofGuid "12"] ∧
    (taken "s" sampleReports : Builder Float).nextLink = 4 ∧
    ∀ n, (taken "s" sampleReports : Builder Float).fabric.nodes.get? (.ofGuid "a1") = some n →
      n.linkAt? 1 = some 3 := by
  have haccepted : Accepted Float "s" sampleReports := accepted_sampleReports
  obtain ⟨hheld, hnext, -⟩ := accepted_records_held "s" haccepted
  refine ⟨haccepted, ?_, hnext, ?_⟩
  · rw [hheld.node_order]
    decide +kernel
  · intro n hn
    refine (hheld.port_last _ n hn 1 3).mpr ⟨_, ⟨rfl, ?_⟩, rfl, rfl⟩
    intro j r hj hr
    have hbound := (List.getElem?_eq_some_iff.mp hr).1
    exact absurd hbound (Nat.not_lt.mpr hj)

end Builder

end FabricPaths
