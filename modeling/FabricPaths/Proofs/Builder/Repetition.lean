import FabricPaths.Proofs.Builder.Frame
import FabricPaths.Proofs.Builder.Reports
import FabricPaths.Proofs.Builder.Weights
import FabricPaths.Proofs.Fabric.Outline

/-!
# Records that are taken in twice

A record that is reported again replaces its link by one to the same node, unless the port
was said to end elsewhere in the meantime. The edge keeps its place and the slot its place
on the edge, so that a list of records without such contradictions can be taken in twice:
the fabric is the same under later numbers for its links, and so are its walks.
-/

namespace FabricPaths

open Bandwidth (Exact)

variable {β : Type}

/-- No port is said to be cabled to two nodes. -/
def OneDestination (rs : List LinkRecord) : Prop :=
  ∀ ⦃r⦄, r ∈ rs → ∀ ⦃r'⦄, r' ∈ rs → r.SamePort r' → r'.destId = r.destId

instance (rs : List LinkRecord) : Decidable (OneDestination rs) :=
  inferInstanceAs (Decidable (∀ r ∈ rs, ∀ r' ∈ rs, _ → _))

/-- Numbers that come a number of records later. -/
def laterBy (count : Nat) : LinkId ↪o LinkId :=
  OrderEmbedding.ofStrictMono (· + count) fun _ _ h => Nat.add_lt_add_right h count

/-- Where records are taken in twice, the last report of a port is the one of the second
time. -/
theorem LastReport.twice_iff {rs : List LinkRecord} {k : Nat} {r : LinkRecord} :
    LastReport (rs ++ rs) k r ↔ ∃ j, k = laterBy rs.length j ∧ LastReport rs j r := by
  have hlater : ∀ j, (rs ++ rs)[laterBy rs.length j]? = rs[j]? := by
    intro j
    change (rs ++ rs)[j + rs.length]? = _
    rw [List.getElem?_append_right (Nat.le_add_left _ _), Nat.add_sub_cancel]
  have hsplit : ∀ {k}, rs.length ≤ k → k = laterBy rs.length (k - rs.length) := by
    intro k hk
    exact (Nat.sub_add_cancel hk).symm
  constructor
  · intro h
    have hk : rs.length ≤ k := by
      by_contra hlt
      have hlt' := Nat.lt_of_not_le hlt
      have hplace : rs[k]? = some r := (List.getElem?_append_left hlt').symm.trans h.place
      have hlt'' : k < laterBy rs.length k := Nat.lt_add_of_pos_right (Nat.zero_lt_of_lt hlt')
      exact h.last hlt'' ((hlater k).trans hplace) ⟨rfl, rfl⟩
    refine ⟨k - rs.length, hsplit hk, ?_, fun j r' hj hr' => ?_⟩
    · rw [← hlater, ← hsplit hk]
      exact h.place
    · refine h.last ?_ ((hlater j).trans hr')
      rw [hsplit hk]
      exact (laterBy rs.length).lt_iff_lt.mpr hj
  · rintro ⟨j, rfl, h⟩
    refine ⟨(hlater j).trans h.place, fun i r' hi hr' => ?_⟩
    have hi' : rs.length ≤ i := Nat.le_of_lt (Nat.lt_of_le_of_lt (Nat.le_add_left _ _) hi)
    rw [hsplit hi'] at hi hr'
    exact h.last ((laterBy rs.length).lt_iff_lt.mp hi) ((hlater _).symm.trans hr')

namespace Builder

section Taken

variable [Memory] [Bandwidth β] {subnet : String} {rs : List LinkRecord}

/-- The bandwidth of an accepted record can be told. -/
theorem Accepted.measured (h : Accepted β subnet rs) {r : LinkRecord} (hr : r ∈ rs) :
    ∃ gbits : β, Bandwidth.ofLink r.speed r.width = .ok gbits := by
  induction h with
  | nil => cases hr
  | concat before last ih =>
    rcases List.mem_append.mp hr with hr | hr
    · exact ih hr
    · obtain ⟨gbits, src, hstep⟩ := accepting_of_ok last
      rw [List.mem_singleton.mp hr]
      exact ⟨gbits, hstep.measured⟩

/-- The nodes of an accepted record are known. -/
theorem Accepted.knows (h : Accepted β subnet rs) {r : LinkRecord} (hr : r ∈ rs) :
    (taken subnet rs : Builder β).Knows r := by
  have hmentioned : ∀ id ∈ r.mentions.map Mention.id,
      ∃ n, (taken subnet rs : Builder β).fabric.nodes.get? id = some n := by
    intro id hid
    rw [← OrderedMap.mem_keys_iff, h.introduced.keys, List.mem_eraseDups, List.map_flatMap]
    exact List.mem_flatMap.mpr ⟨r, hr, hid⟩
  rw [r.mentions_ids] at hmentioned
  exact ⟨hmentioned _ List.mem_cons_self, hmentioned _ (List.mem_cons_of_mem _ List.mem_cons_self)⟩

/-- The slot of an accepted record holds a link to the node that the record says, if no port
is said to be cabled to two. -/
theorem Accepted.plugged (h : Accepted β subnet rs) (hone : OneDestination rs) {r : LinkRecord}
    (hr : r ∈ rs) {src : Node β} (hsrc : (taken subnet rs).fabric.nodes.get? r.srcId = some src) :
    ∃ old, (taken subnet rs).fabric.plugged? src r.slot = some old ∧ old.dest = r.destId := by
  have w := (sound_taken (β := β) subnet rs).wired
  obtain ⟨k, r', hlast, hsame⟩ := exists_lastReport hr
  obtain ⟨gbits, hgbits⟩ := h.measured hlast.mem
  obtain ⟨hid, hslot⟩ := (samePort_iff (h.port hr) (h.port hlast.mem)).mp hsame
  have hk : (taken subnet rs : Builder β).fabric.linkIn? r.srcId r.slot = some k :=
    (h.linkIn?_eq_some_iff _ _ k).mpr ⟨r', hlast, hid.symm, hslot.symm⟩
  obtain ⟨old, hold, hlink⟩ := w.plugged?_of_linkIn? hsrc hk
  refine ⟨old, hold, ?_⟩
  rw [(h.links_eq_some_iff k (linkOf r' k gbits)).mpr ⟨r', gbits, hlast, hgbits, rfl⟩] at hlink
  cases hlink
  exact hone hr hlast.mem hsame

/-- The nodes have one outline, and as many hosts were given a name. -/
structure SameOutline (b b' : Builder β) : Prop where
  /-- The nodes have one outline. -/
  nodes : (b'.fabric.nodes.mapValues fun _ n => n.outline) =
    b.fabric.nodes.mapValues fun _ n => n.outline
  /-- As many hosts were given a name. -/
  namelessHosts : b'.namelessHosts = b.namelessHosts

/-- A record that replaces a link to the same node leaves the outline. -/
theorem sameOutline_of_accepting {r : LinkRecord} {gbits : β} {src : Node β} {b b' : Builder β}
    (s : b.Sound) (h : Accepting r gbits src b b') (hknown : b.Knows r) {old : Link β}
    (hold : b.fabric.plugged? src r.slot = some old) (hdest : old.dest = r.destId) :
    SameOutline b b' := by
  have hsrc := h.source
  rw [withEnds_of_knows hknown] at hsrc
  constructor
  · have houtline : (b.fabric.pluggedNode src (linkOf r b.nextLink gbits)).outline = src.outline :=
      s.wired.outline_pluggedNode hsrc hold hdest
    have hget : (b.fabric.nodes.mapValues fun _ n => n.outline).get? r.srcId =
        some src.outline := by
      rw [OrderedMap.get?_mapValues, hsrc, Option.map_some]
    rw [h.nodes, withEnds_of_knows hknown, OrderedMap.mapValues_insert, houtline,
      OrderedMap.insert_eq_self hget]
  · rw [h.state]
    change (b.withEnds r).namelessHosts = _
    rw [withEnds_of_knows hknown]

/-- One of the accepted records may be reported again. It is accepted again, and the outline
stays. -/
theorem Accepted.once_more (h : Accepted β subnet rs) (hone : OneDestination rs)
    {r : LinkRecord} (hr : r ∈ rs) : Accepted β subnet (rs ++ [r]) ∧
      SameOutline (taken subnet rs : Builder β) (taken subnet (rs ++ [r])) := by
  have hknown := h.knows hr
  obtain ⟨src, hsrc⟩ := hknown.1
  obtain ⟨old, hold, hdest⟩ := h.plugged hone hr hsrc
  obtain ⟨gbits, hgbits⟩ := h.measured hr
  have hroom : checkRoom (src.missingSlots r.slot) = .ok () := by
    rw [Fabric.missingSlots_of_plugged? hold]
    exact checkRoom_of_lt (Nat.lt_trans Nat.zero_lt_one Memory.one_lt)
  have hends : ((taken subnet rs).withEnds r).fabric.nodes.get? r.srcId = some src := by
    rw [withEnds_of_knows hknown]
    exact hsrc
  obtain ⟨l, hl⟩ := addLink_ok_of_room (h.port hr) hgbits hends hroom
  obtain ⟨gbits', src', hstep⟩ := accepting_of_ok hl
  have hsrc' := hstep.source
  rw [hends] at hsrc'
  cases hsrc'
  rw [← taken_concat] at hstep
  exact ⟨.concat h hl, sameOutline_of_accepting (sound_taken subnet rs) hstep hknown hold hdest⟩

/-- Accepted records may be reported again, in any order and any number of times. They are
accepted again, and the outline stays. -/
theorem Accepted.again (h : Accepted β subnet rs) (hone : OneDestination rs)
    {again : List LinkRecord} (hagain : ∀ r ∈ again, r ∈ rs) :
    Accepted β subnet (rs ++ again) ∧ SameOutline (taken subnet rs : Builder β)
      (taken subnet (rs ++ again)) := by
  induction again using List.reverseRecOn with
  | nil =>
    rw [List.append_nil]
    exact ⟨h, rfl, rfl⟩
  | append_singleton again r ih =>
    obtain ⟨haccepted, houtline⟩ := ih fun r' hr' => hagain r' (List.mem_append_left _ hr')
    have hr : r ∈ rs := hagain r (List.mem_append_right _ (List.mem_singleton_self r))
    have hall : ∀ r' ∈ rs ++ again, r' ∈ rs := by
      intro r' hr'
      rcases List.mem_append.mp hr' with hin | hin
      · exact hin
      · exact hagain r' (List.mem_append_left _ hin)
    have hone' : OneDestination (rs ++ again) := fun r hr r' hr' =>
      hone (hall r hr) (hall r' hr')
    obtain ⟨haccepted', hlast⟩ := haccepted.once_more hone' (List.mem_append_left _ hr)
    rw [← List.append_assoc]
    exact ⟨haccepted', hlast.nodes.trans houtline.nodes,
      hlast.namelessHosts.trans houtline.namelessHosts⟩

/-- Records leave the fabric without anything but nodes and links. -/
theorem rest_taken (subnet : String) (rs : List LinkRecord) :
    (taken subnet rs : Builder β).fabric.rest = { subnet } := by
  induction rs using List.reverseRecOn with
  | nil => rfl
  | append_singleton rs r ih => rw [taken_concat, rest_addLink, ih]

/-- Once records were taken in twice, slots hold the numbers of the second time. -/
theorem Accepted.linkIn?_twice (h : Accepted β subnet rs) (h' : Accepted β subnet (rs ++ rs))
    (x : NodeId) (i : Nat) : (taken subnet (rs ++ rs) : Builder β).fabric.linkIn? x i =
      ((taken subnet rs : Builder β).fabric.linkIn? x i).map (laterBy rs.length) := by
  apply Option.ext
  intro k
  rw [h'.linkIn?_eq_some_iff, Option.map_eq_some_iff]
  simp only [h.linkIn?_eq_some_iff, LastReport.twice_iff]
  constructor
  · rintro ⟨r, ⟨j, rfl, hlast⟩, hends⟩
    exact ⟨j, ⟨r, hlast, hends⟩, rfl⟩
  · rintro ⟨j, ⟨r, hlast, hends⟩, rfl⟩
    exact ⟨r, ⟨j, rfl, hlast⟩, hends⟩

/-- Once records were taken in twice, links have the numbers of the second time. -/
theorem Accepted.links_twice (h : Accepted β subnet rs) (h' : Accepted β subnet (rs ++ rs)) :
    (taken subnet (rs ++ rs) : Builder β).fabric.links =
      renumberedLinks (laterBy rs.length) (taken subnet rs : Builder β).fabric.links := by
  have w := (sound_taken (β := β) subnet rs).wired
  have w' := (sound_taken (β := β) subnet (rs ++ rs)).wired
  refine OrderedMap.eq_of_ascending w'.ascending (ascending_renumberedLinks _ w.ascending)
    fun k l => ?_
  rw [h'.links_eq_some_iff, renumberedLinks_eq_some_iff]
  simp only [h.links_eq_some_iff, LastReport.twice_iff]
  constructor
  · rintro ⟨r, gbits, ⟨j, rfl, hlast⟩, hgbits, rfl⟩
    exact ⟨j, linkOf r j gbits, rfl, ⟨r, gbits, hlast, hgbits, rfl⟩, rfl⟩
  · rintro ⟨j, l', rfl, ⟨r, gbits, hlast, hgbits, rfl⟩, rfl⟩
    exact ⟨r, gbits, ⟨j, rfl, hlast⟩, hgbits, rfl⟩

/-- The second builder holds what the first holds, under other numbers for its links. -/
structure Repeats (ρ : LinkId ↪o LinkId) (b b' : Builder β) : Prop where
  /-- As many hosts were given a name. -/
  namelessHosts : b'.namelessHosts = b.namelessHosts
  /-- The fabric is the same, bandwidths of edges apart. -/
  fabric : b.fabric.Renumbers ρ b'.fabric
  /-- The fabric is the same if bandwidths are exact. -/
  fabric_exact : Exact β → b'.fabric = b.fabric.renumbered ρ
  /-- First links are the same. -/
  first_link : ∀ id n, b.fabric.nodes.get? id = some n → ∃ n', b'.fabric.nodes.get? id = some n' ∧
    b'.fabric.firstLink? n' = (b.fabric.firstLink? n).map (Option.map (·.renumbered ρ))
  /-- Walks are the same, whatever the forwarding tables. -/
  walks : ∀ routes source dest, (b'.fabric.withRoutes routes).traceBetween source dest =
    ((b.fabric.withRoutes routes).traceBetween source dest).map (·.renumbered ρ)
  /-- Links leave through the same ports. -/
  ports : ∀ links, b'.fabric.portsOf (links.map ρ) = b.fabric.portsOf links

/-- Accepted records of which none contradicts another about the far node of a port are accepted
once more, and change no more than the numbers of links. -/
theorem records_taken_twice (subnet : String) {rs : List LinkRecord} (h : Accepted β subnet rs)
    (hone : OneDestination rs) : Accepted β subnet (rs ++ rs) ∧
      Repeats (laterBy rs.length) (taken subnet rs : Builder β) (taken subnet (rs ++ rs)) := by
  obtain ⟨h', houtline⟩ := h.again hone fun _ hr => hr
  have w := (sound_taken (β := β) subnet rs).wired
  have w' := (sound_taken (β := β) subnet (rs ++ rs)).wired
  have haside : (taken subnet (rs ++ rs) : Builder β).fabric.asideLinks =
      renumberedLinks (laterBy rs.length) (taken subnet rs : Builder β).fabric.asideLinks := by
    have hempty : (taken subnet rs : Builder β).fabric.asideLinks = ∅ :=
      OrderedMap.ext w.aside_nil
    rw [hempty]
    exact OrderedMap.ext w'.aside_nil
  have hfabric : (taken subnet rs : Builder β).fabric.Renumbers (laterBy rs.length)
      (taken subnet (rs ++ rs)).fabric :=
    Fabric.renumbers_of_outline houtline.nodes (h.linkIn?_twice h') (h.links_twice h') haside
      (rest_taken subnet rs) (rest_taken subnet _)
  refine ⟨h', houtline.namelessHosts, hfabric, ?_, ?_, ?_, hfabric.portsOf_eq⟩
  · exact fun exact => hfabric.eq_renumbered (weighed_taken exact subnet rs)
      (weighed_taken exact subnet _) (rest_taken subnet rs) (rest_taken subnet _)
  · intro id n hn
    obtain ⟨n', hn', hnode⟩ := hfabric.node hn
    exact ⟨n', hn', hfabric.firstLink?_eq hnode⟩
  · exact fun routes source dest => (hfabric.withRoutes routes).traceBetween_eq source dest

end Taken

/-- The reports of the sample taken in twice, with exact bandwidths. -/
theorem sampleReports_taken_twice : Accepted ℚ "s" sampleReports ∧ OneDestination sampleReports ∧
    (taken "s" (sampleReports ++ sampleReports) : Builder ℚ).fabric =
      (taken "s" sampleReports).fabric.renumbered (laterBy 4) := by
  have haccepted : Accepted ℚ "s" sampleReports := accepted_sampleReports
  have hone : OneDestination sampleReports := by decide +kernel
  obtain ⟨-, hrepeats⟩ := records_taken_twice "s" haccepted hone
  exact ⟨haccepted, hone, hrepeats.fabric_exact Bandwidth.exact_rat⟩

end Builder

end FabricPaths
