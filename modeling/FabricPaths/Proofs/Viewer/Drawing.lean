import FabricPaths.Proofs.OrderedMap
import FabricPaths.Proofs.Viewer.Outline
import FabricPaths.Proofs.Viewer.Untimed
import Mathlib.Data.List.Induction

/-!
# How a viewer draws its tree

An event mentions things in an order: its subnet, a partition, or the partition, the host and the
walk. The viewer adds what is mentioned, each spot at its first mention, and some events change
what a spot shows. So the tree of a viewer is told by what the events mention, provided that each
subnet begins once and before anything else is told of it.
-/

namespace FabricPaths.Viewer

/-- What the spot shows at first. -/
def Spot.firstLabel : Spot → Label
  | .subnet a => .subnetBegun a
  | .partition _ name => .partitionNamed name
  | .host _ h => .host h

/-- What is shown of a walk. -/
def Label.ofWalk (e : Event) : Label :=
  match e.status with
  | some status => .walk e status
  | none => {}

/-- What an event mentions. -/
def mentions (e : Event) : List Entry :=
  match e.kind with
  | .subnetStart => [.spot (.subnet e.subnet)]
  | .path => [.spot (.partition e.subnet (Hostname.stem e.source)),
      .spot (.host e.subnet e.source), .walk e.subnet e.source (.ofWalk e)]
  | .partition => [.spot (.partition e.subnet e.partition)]
  | _ => []

/-- The spot of which an event changes what it shows, with what it shows then, if that can be
written. -/
def relabels? (e : Event) : Option (Spot × Label) :=
  match e.kind with
  | .partition => (Label.partitionFound e).toOption.map (.partition e.subnet e.partition, ·)
  | .subnetDone => (Label.subnetDone e).toOption.map (.subnet e.subnet, ·)
  | _ => none

/-- What is mentioned is added, a spot if it is new. -/
def grow (xs : List Entry) : Entry → List Entry
  | .spot p => if .spot p ∈ xs then xs else xs ++ [.spot p]
  | .walk a h label => xs ++ [.walk a h label]

/-- One spot shows something else. -/
def relabel (labels : Spot → Label) (change : Spot × Label) : Spot → Label :=
  fun q => if q = change.1 then change.2 else labels q

/-- Each subnet is begun when nothing was told of it yet, and all else is told of subnets that
were begun. -/
def Timely (xs : List Entry) (e : Event) : Prop :=
  match e.kind with
  | .subnetStart => .spot (.subnet e.subnet) ∉ xs
  | .path | .partition | .subnetDone => .spot (.subnet e.subnet) ∈ xs
  | _ => True

/-- All events are in time, one after another. -/
def AllTimely (xs : List Entry) : List Event → Prop
  | [] => True
  | e :: rest => Timely xs e ∧ AllTimely ((mentions e).foldl grow xs) rest

/-! ## What was mentioned -/

section Growing

variable {xs ms : List Entry} {x m : Entry}

/-- A spot that is there is not added. -/
theorem grow_of_mem {p : Spot} (h : .spot p ∈ xs) : grow xs (.spot p) = xs := if_pos h

/-- A new spot is added. -/
theorem grow_of_new {p : Spot} (h : .spot p ∉ xs) : grow xs (.spot p) = xs ++ [.spot p] := if_neg h

/-- What is there was there or is what was mentioned. -/
theorem mem_grow : x ∈ grow xs m ↔ x ∈ xs ∨ x = m := by
  have happend : x ∈ xs ++ [m] ↔ x ∈ xs ∨ x = m :=
    List.mem_append.trans (or_congr_right List.mem_singleton)
  cases m with
  | walk a h label => exact happend
  | spot p =>
    by_cases hin : .spot p ∈ xs
    · rw [grow_of_mem hin]
      exact ⟨.inl, fun h => h.elim id fun heq => heq ▸ hin⟩
    · rw [grow_of_new hin]
      exact happend

/-- What is there was there or was mentioned. -/
theorem mem_foldl_grow : x ∈ ms.foldl grow xs ↔ x ∈ xs ∨ x ∈ ms := by
  induction ms generalizing xs with
  | nil => simp
  | cons m rest ih => rw [List.foldl_cons, ih, mem_grow, List.mem_cons, or_assoc]

/-- Mentions that are not looked for add nothing that is. -/
theorem filter_grow (q : Entry → Bool) (xs : List Entry) (m : Entry) :
    (grow xs m).filter q = if q m then grow (xs.filter q) m else xs.filter q := by
  have happend : (xs ++ [m]).filter q = if q m then xs.filter q ++ [m] else xs.filter q := by
    rw [List.filter_append, List.filter_singleton]
    cases q m <;> simp
  cases m with
  | walk a h label => exact happend
  | spot p =>
    by_cases hin : .spot p ∈ xs
    · rw [grow_of_mem hin]
      split
      · rename_i hq
        exact (grow_of_mem (List.mem_filter.mpr ⟨hin, hq⟩)).symm
      · rfl
    · rw [grow_of_new hin, happend, grow_of_new fun hmem => hin (List.mem_filter.mp hmem).1]

/-- What is looked for comes from the mentions that are looked for. -/
theorem filter_foldl_grow (q : Entry → Bool) (xs ms : List Entry) :
    (ms.foldl grow xs).filter q = (ms.filter q).foldl grow (xs.filter q) := by
  induction ms generalizing xs with
  | nil => rfl
  | cons m rest ih =>
    rw [List.foldl_cons, ih, filter_grow]
    by_cases hm : q m = true
    · rw [if_pos hm, List.filter_cons_of_pos hm, List.foldl_cons]
    · rw [if_neg hm, List.filter_cons_of_neg hm]

/-- Spots are there once each, in the order of their first mention. -/
theorem foldl_grow_spots (ps : List Spot) :
    (ps.map Entry.spot).foldl grow [] = ps.eraseDups.map Entry.spot := by
  have hinj : Function.Injective Entry.spot := fun _ _ h => Entry.spot.inj h
  induction ps using List.reverseRecOn with
  | nil => rfl
  | append_singleton ps p ih =>
    rw [List.map_append, List.foldl_append, ih, eraseDups_concat]
    change grow _ (.spot p) = _
    have hmem : .spot p ∈ ps.eraseDups.map Entry.spot ↔ p ∈ ps :=
      (List.mem_map_of_injective hinj).trans List.mem_eraseDups
    by_cases hp : p ∈ ps
    · rw [grow_of_mem (hmem.mpr hp), if_pos hp]
    · rw [grow_of_new (mt hmem.mp hp), if_neg hp, List.map_append, List.map_singleton]

/-- All walks are there. -/
theorem foldl_grow_walks {α : Type} (f : α → Entry) (hf : ∀ x p, f x ≠ .spot p) (ws : List α)
    (xs : List Entry) : (ws.map f).foldl grow xs = xs ++ ws.map f := by
  induction ws generalizing xs with
  | nil => exact (List.append_nil xs).symm
  | cons w rest ih =>
    have hadd : grow xs (f w) = xs ++ [f w] := by
      cases hw : f w with
      | walk a h label => rfl
      | spot p => exact absurd hw (hf w p)
    rw [List.map_cons, List.foldl_cons, hadd, ih, List.append_assoc]
    rfl

end Growing

/-- A spot that is changed once shows what it was changed to. -/
theorem foldl_relabel {changes : List (Spot × Label)} {p : Spot} {l : Label}
    (h : (changes.map Prod.fst).Nodup) (hmem : (p, l) ∈ changes) (labels : Spot → Label) :
    changes.foldl relabel labels p = l := by
  induction changes using List.reverseRecOn with
  | nil => cases hmem
  | append_singleton changes c ih =>
    rw [List.map_append, List.nodup_append] at h
    rw [List.foldl_append]
    change (if p = c.1 then c.2 else changes.foldl relabel labels p) = l
    rcases List.mem_append.mp hmem with hbefore | hlast
    · have hne : p ≠ c.1 :=
        h.2.2 p (List.mem_map_of_mem hbefore) c.1 (List.mem_singleton_self _)
      rw [if_neg hne]
      exact ih h.1 hbefore
    · rw [← List.mem_singleton.mp hlast]
      exact if_pos rfl

/-- A spot that is not changed shows what it showed before. -/
theorem foldl_relabel_of_notMem {changes : List (Spot × Label)} {p : Spot}
    (h : p ∉ changes.map Prod.fst) (labels : Spot → Label) :
    changes.foldl relabel labels p = labels p := by
  induction changes generalizing labels with
  | nil => rfl
  | cons c rest ih =>
    obtain ⟨hc, hrest⟩ := not_or.mp (mt List.mem_cons.mpr h)
    rw [List.foldl_cons, ih hrest]
    exact if_neg hc

/-! ## What is in time -/

section Timeliness

variable {xs : List Entry} {es es' : List Event}

/-- Events that are in time can be followed by others that are. -/
theorem AllTimely.append (h : AllTimely xs es)
    (h' : AllTimely ((es.flatMap mentions).foldl grow xs) es') : AllTimely xs (es ++ es') := by
  induction es generalizing xs with
  | nil => exact h'
  | cons e rest ih =>
    rw [List.flatMap_cons, List.foldl_append] at h'
    exact ⟨h.1, ih h.2 h'⟩

/-- All that is told of a subnet after it was begun is in time, unless it is begun again. -/
theorem allTimely_of_begun
    (h : ∀ e ∈ es, e.kind ≠ .subnetStart ∧ .spot (.subnet e.subnet) ∈ xs) :
    AllTimely xs es := by
  induction es generalizing xs with
  | nil => trivial
  | cons e rest ih =>
    obtain ⟨⟨hkind, hmem⟩, hrest⟩ := List.forall_mem_cons.mp h
    refine ⟨?_, ih fun e' he' => ⟨(hrest e' he').1, mem_foldl_grow.mpr (.inl (hrest e' he').2)⟩⟩
    unfold Timely
    split
    · exact absurd ‹_› hkind
    · exact hmem
    · exact hmem
    · exact hmem
    · trivial

end Timeliness

/-! ## What the viewer adds -/

variable {xs : List Entry} {labels : Spot → Label} {p : Spot} {a host : String} {l : Label}
  {e : Event}

/-- What is added comes last, under what it stands under. -/
theorem drawn_concat (h : Grown xs) {x : Entry} (habove : ∀ q ∈ x.above, .spot q ∈ xs)
    (labels : Spot → Label) :
    drawn (xs ++ [x]) labels = (drawn xs labels).add (x.item xs labels) := by
  have hitem : ∀ y : Entry, (∀ q ∈ y.above, .spot q ∈ xs) →
      y.item (xs ++ [x]) labels = y.item xs labels := by
    intro y hy
    unfold Entry.item
    cases hq : y.above with
    | none => rfl
    | some q => rw [Option.bind_some, Option.bind_some, position?_append (hy q hq)]
  unfold drawn Tree.add
  rw [List.map_append, List.map_singleton, hitem x habove]
  congr 2
  exact List.map_congr_left fun y hy => hitem y fun q hq => h.above_mem hy hq

/-- Changing what a spot shows changes its item alone. -/
theorem setLabel_drawn (h : Grown xs) {i : Nat} (hp : position? xs p = some i)
    (labels : Spot → Label) (l : Label) :
    (drawn xs labels).setLabel i l = drawn xs (relabel labels (p, l)) := by
  unfold drawn Tree.setLabel
  congr 1
  refine List.ext_getElem? fun j => ?_
  rw [List.getElem?_modify, List.getElem?_map, List.getElem?_map]
  cases hx : xs[j]? with
  | none => rfl
  | some x =>
    by_cases hj : i = j
    · subst hj
      cases hx.symm.trans (getElem?_of_position hp)
      simp [Entry.item, Entry.label, relabel]
    · have hother : x ≠ .spot p := by
        rintro rfl
        exact hj (Option.some.inj (hp.symm.trans (h.position?_of_getElem? hx)))
      cases x with
      | walk a host l => simp [Entry.item, Entry.label, hj]
      | spot q =>
        have hne : q ≠ p := fun heq => hother (congrArg Entry.spot heq)
        simp [Entry.item, Entry.label, relabel, hne, hj]

namespace State

/-- The item of a spot. -/
def item? (s : State) : Spot → Option ItemId
  | .subnet a => s.subnetItems.get? a
  | .partition a name => s.partitionItems.get? (a, name)
  | .host a host => s.hostItems.get? (a, host)

/-- The tree of the viewer was drawn in this way, and the viewer finds all spots in it. -/
structure Draws (xs : List Entry) (labels : Spot → Label) (s : State) : Prop where
  /-- Each thing was added under an earlier one. -/
  grown : Grown xs
  /-- The tree is what was drawn. -/
  tree_eq : s.tree = drawn xs labels
  /-- The items of the spots are known. -/
  places : ∀ p, s.item? p = position? xs p
  /-- Spots that are not there yet will show their first labels. -/
  unchanged : ∀ p, .spot p ∉ xs → labels p = p.firstLabel

namespace Draws

variable {s s' s₁ : State}

/-- A new spot is drawn. -/
theorem spot (h : Draws xs labels s) (new : .spot p ∉ xs) (habove : ∀ q ∈ p.above, .spot q ∈ xs)
    (htree : s'.tree = s.tree.add ⟨p.above.bind s.item?, p.firstLabel, some p.isOpen⟩)
    (hplaces : ∀ q, s'.item? q = if q = p then some s.tree.next else s.item? q) :
    Draws (xs ++ [.spot p]) labels s' where
  grown := .spot h.grown new habove
  tree_eq := by
    have hitems : s.item? = position? xs := funext h.places
    rw [htree, drawn_concat (x := .spot p) h.grown habove, h.tree_eq, hitems, ← h.unchanged p new]
    rfl
  places := by
    intro q
    rw [hplaces]
    by_cases hq : q = p
    · rw [if_pos hq, hq, position?_concat_self new, h.tree_eq, Tree.next, drawn, List.length_map]
    · rw [if_neg hq, h.places, position?_concat_of_ne]
      exact fun heq => hq (Entry.spot.inj heq).symm
  unchanged := fun q hq => h.unchanged q fun hmem => hq (List.mem_append_left _ hmem)

/-- A walk is drawn under its host. -/
theorem walk (h : Draws xs labels s) (habove : .spot (.host a host) ∈ xs)
    (htree : s'.tree = s.tree.add ⟨position? xs (.host a host), l, none⟩)
    (hplaces : ∀ q, s'.item? q = s.item? q) : Draws (xs ++ [.walk a host l]) labels s' where
  grown := .walk h.grown habove
  tree_eq := by
    have hmem : ∀ q ∈ (Entry.walk a host l).above, .spot q ∈ xs := by
      rintro q ⟨⟩
      exact habove
    rw [htree, drawn_concat h.grown hmem, h.tree_eq]
    rfl
  places := by
    intro q
    rw [hplaces, h.places, position?_concat_of_ne Entry.walk_ne_spot]
  unchanged := fun q hq => h.unchanged q fun hmem => hq (List.mem_append_left _ hmem)

/-- What a spot shows is changed. -/
theorem setLabel (h : Draws xs labels s) {i : Nat} (hp : position? xs p = some i)
    (htree : s'.tree = s.tree.setLabel i l) (hplaces : ∀ q, s'.item? q = s.item? q) :
    Draws xs (relabel labels (p, l)) s' where
  grown := h.grown
  tree_eq := by rw [htree, h.tree_eq, setLabel_drawn h.grown hp]
  places := fun q => (hplaces q).trans (h.places q)
  unchanged := by
    intro q hq
    have hne : q ≠ p := by
      rintro rfl
      exact hq (List.mem_of_getElem? (getElem?_of_position hp))
    exact (if_neg hne).trans (h.unchanged q hq)

/-- A viewer that finds a spot has it in its tree. -/
theorem mem_of_item (h : Draws xs labels s) {i : Nat} (hi : s.item? p = some i) :
    .spot p ∈ xs :=
  List.mem_of_getElem? (getElem?_of_position ((h.places p).symm.trans hi))

/-- A viewer that does not find a spot has it not in its tree. -/
theorem notMem_of_item (h : Draws xs labels s) (hp : s.item? p = none) : .spot p ∉ xs := by
  intro hmem
  obtain ⟨i, hi⟩ := exists_position hmem
  cases (hi.symm.trans (h.places p).symm).trans hp

/-- The item of a partition is found, or drawn. -/
theorem partitionItem (h : Draws xs labels s) (hsubnet : .spot (.subnet a) ∈ xs) (name : String) :
    Draws (grow xs (.spot (.partition a name))) labels (s.partitionItem a name).1 ∧
      position? (grow xs (.spot (.partition a name))) (.partition a name) =
        some (s.partitionItem a name).2 := by
  unfold State.partitionItem
  cases hget : s.partitionItems.get? (a, name) with
  | some i =>
    have hitem : s.item? (.partition a name) = some i := hget
    rw [grow_of_mem (h.mem_of_item hitem)]
    exact ⟨h, (h.places _).symm.trans hitem⟩
  | none =>
    have hnew := h.notMem_of_item (p := .partition a name) hget
    have habove : ∀ q ∈ (Spot.partition a name).above, .spot q ∈ xs := by
      rintro q ⟨⟩
      exact hsubnet
    rw [grow_of_new hnew]
    refine ⟨h.spot hnew habove rfl fun q => ?_, ?_⟩
    · cases q with
      | subnet a' => rfl
      | host a' host => rfl
      | partition a' name' =>
        change (s.partitionItems.insert _ _).get? _ = _
        rw [OrderedMap.get?_insert]
        simp only [Prod.mk.injEq, Spot.partition.injEq]
        rfl
    · rw [position?_concat_self hnew, h.tree_eq, Tree.next, drawn, List.length_map]

/-- The item of a host is found, or drawn with that of its partition. -/
theorem hostItem (h : Draws xs labels s) (hsubnet : .spot (.subnet a) ∈ xs) (host : String) :
    Draws (grow (grow xs (.spot (.partition a (Hostname.stem host)))) (.spot (.host a host)))
        labels (s.hostItem a host).1 ∧
      position? (grow (grow xs (.spot (.partition a (Hostname.stem host)))) (.spot (.host a host)))
        (.host a host) = some (s.hostItem a host).2 := by
  unfold State.hostItem
  cases hget : s.hostItems.get? (a, host) with
  | some i =>
    have hitem : s.item? (.host a host) = some i := hget
    have hmem := h.mem_of_item hitem
    have hpartition : .spot (.partition a (Hostname.stem host)) ∈ xs :=
      h.grown.above_mem hmem rfl
    rw [grow_of_mem hpartition, grow_of_mem hmem]
    exact ⟨h, (h.places _).symm.trans hitem⟩
  | none =>
    obtain ⟨hdraws, hparent⟩ := h.partitionItem hsubnet (Hostname.stem host)
    have hnew : .spot (.host a host) ∉ grow xs (.spot (.partition a (Hostname.stem host))) := by
      rw [mem_grow]
      rintro (hmem | heq)
      · exact h.notMem_of_item (p := .host a host) hget hmem
      · cases heq
    have habove : ∀ q ∈ (Spot.host a host).above,
        .spot q ∈ grow xs (.spot (.partition a (Hostname.stem host))) := by
      rintro q ⟨⟩
      exact mem_grow.mpr (.inr rfl)
    generalize s.partitionItem a (Hostname.stem host) = found at hdraws hparent
    obtain ⟨s', parent⟩ := found
    generalize grow xs (.spot (.partition a (Hostname.stem host))) = ys
      at hdraws hparent hnew habove
    dsimp only at hdraws hparent ⊢
    rw [grow_of_new hnew]
    refine ⟨hdraws.spot hnew habove ?_ fun q => ?_, ?_⟩
    · have hitem : s'.item? (.partition a (Hostname.stem host)) = some parent :=
        (hdraws.places _).trans hparent
      change _ = s'.tree.add ⟨s'.item? (.partition a (Hostname.stem host)), _, _⟩
      rw [hitem]
      rfl
    · cases q with
      | subnet a' => rfl
      | partition a' name => rfl
      | host a' host' =>
        change (s'.hostItems.insert _ _).get? _ = _
        rw [OrderedMap.get?_insert]
        simp only [Prod.mk.injEq, Spot.host.injEq]
        rfl
    · rw [position?_concat_self hnew, hdraws.tree_eq, Tree.next, drawn, List.length_map]

/-- What an event mentions is drawn, and what it changes is changed. -/
theorem absorb (h : Draws xs labels s) (htimely : Timely xs e)
    (hok : absorb e s = ⟨.ok (), s₁, []⟩) :
    Draws ((mentions e).foldl grow xs) ((relabels? e).toList.foldl relabel labels) s₁ := by
  unfold State.absorb at hok
  unfold mentions relabels?
  unfold Timely at htimely
  cases hkind : e.kind with
  | subnetStart =>
    rw [hkind] at hok htimely
    cases hok
    dsimp only at htimely ⊢
    rw [List.foldl_cons, List.foldl_nil, grow_of_new htimely]
    refine h.spot htimely nofun rfl fun q => ?_
    cases q with
    | partition a name => rfl
    | host a host => rfl
    | subnet a =>
      change (s.subnetItems.insert _ _).get? _ = _
      rw [OrderedMap.get?_insert]
      simp only [Spot.subnet.injEq]
      rfl
  | path =>
    rw [hkind] at hok htimely
    dsimp only at hok htimely ⊢
    cases hstatus : e.status with
    | none =>
      rw [hstatus] at hok
      cases hok
    | some status =>
      rw [hstatus] at hok
      cases hok
      obtain ⟨hdraws, hhost⟩ := h.hostItem htimely e.source
      refine hdraws.walk (mem_grow.mpr (.inr rfl)) ?_ fun q => ?_
      · rw [hhost, Label.ofWalk, hstatus]
        rfl
      · cases q <;> rfl
  | partition =>
    rw [hkind] at hok htimely
    obtain ⟨hdraws, hpartition⟩ := h.partitionItem htimely e.partition
    dsimp only at hok ⊢
    unfold labelPartition at hok
    rw [Action.get_bind] at hok
    generalize s.partitionItem e.subnet e.partition = found at hdraws hpartition hok
    obtain ⟨s', i⟩ := found
    obtain ⟨l, hl, rfl⟩ := exists_of_setLabel hok
    rw [hl]
    exact hdraws.setLabel hpartition rfl fun q => by cases q <;> rfl
  | subnetDone =>
    rw [hkind] at hok htimely
    dsimp only at hok htimely ⊢
    obtain ⟨i, hi⟩ := exists_position htimely
    have hfound : s.subnetItems.get? e.subnet = some i := (h.places (.subnet e.subnet)).trans hi
    unfold labelSubnet at hok
    rw [Action.get_bind, hfound] at hok
    obtain ⟨l, hl, rfl⟩ := exists_of_setLabel hok
    rw [hl]
    exact h.setLabel hi rfl fun q => by cases q <;> rfl
  | runDone =>
    rw [hkind] at hok
    cases hok
    exact ⟨h.grown, h.tree_eq, h.places, h.unchanged⟩
  | other name =>
    rw [hkind] at hok
    cases hok
    exact h

/-- What an event mentions is drawn when the viewer comes to know it. -/
theorem learn (h : Draws xs labels s) (he : e.Showable) (htimely : Timely xs e) :
    Draws ((mentions e).foldl grow xs) ((relabels? e).toList.foldl relabel labels)
      (s.learn e) := by
  obtain ⟨s₁, hok⟩ := absorb_ok he s
  have hdraws := h.absorb htimely hok
  unfold State.learn
  rw [hok]
  exact ⟨hdraws.grown, hdraws.tree_eq, hdraws.places, hdraws.unchanged⟩

/-- What events mention is drawn when the viewer comes to know them one after another. -/
theorem foldl_learn {es : List Event} (h : Draws xs labels s) (hes : ∀ e ∈ es, e.Showable)
    (htimely : AllTimely xs es) :
    Draws ((es.flatMap mentions).foldl grow xs) ((es.filterMap relabels?).foldl relabel labels)
      (es.foldl State.learn s) := by
  induction es generalizing xs labels s with
  | nil => exact h
  | cons e rest ih =>
    obtain ⟨he, hrest⟩ := List.forall_mem_cons.mp hes
    have hchanges : ((e :: rest).filterMap relabels?).foldl relabel labels =
        (rest.filterMap relabels?).foldl relabel
          ((relabels? e).toList.foldl relabel labels) := by
      cases hchange : relabels? e with
      | none => rw [List.filterMap_cons_none hchange]; rfl
      | some change => rw [List.filterMap_cons_some hchange]; rfl
    rw [List.flatMap_cons, List.foldl_append, hchanges]
    exact ih (h.learn he htimely.1) hrest htimely.2

/-- Nothing is drawn at first. -/
theorem start (clock : Clock) (started : Moment) (status : List String) :
    Draws [] Spot.firstLabel { clock, started, status } where
  grown := .nil
  tree_eq := rfl
  places := fun p => by cases p <;> rfl
  unchanged := fun _ _ => rfl

end Draws

end State

end FabricPaths.Viewer
