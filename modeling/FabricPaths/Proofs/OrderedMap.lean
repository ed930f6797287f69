import Mathlib.Data.List.Induction
import Mathlib.Data.List.Nodup
import FabricPaths.OrderedMap

/-!
# Laws of ordered maps

Entries, keys and values of a map are read off its look-ups; inserting and
removing keys moves the order of the keys in the obvious way only; changing all
values goes through insertions and removals.
-/

namespace FabricPaths

/-- A list with one more member at the end has it last among its distinct members, if it
is new. -/
theorem eraseDups_concat {α : Type} [DecidableEq α] (xs : List α) (x : α) :
    (xs ++ [x]).eraseDups = if x ∈ xs then xs.eraseDups else xs.eraseDups ++ [x] := by
  rw [List.eraseDups_append]
  by_cases h : x ∈ xs
  · have hremoved : [x].removeAll xs = [] := by simp [List.removeAll, h]
    rw [if_pos h, hremoved, List.eraseDups_nil, List.append_nil]
  · have hkept : [x].removeAll xs = [x] := by simp [List.removeAll, h]
    rw [if_neg h, hkept]
    rfl

/-- Distinct members are told apart. -/
theorem nodup_eraseDups {α : Type} [DecidableEq α] (xs : List α) : xs.eraseDups.Nodup := by
  induction xs using List.reverseRecOn with
  | nil => exact List.nodup_nil
  | append_singleton xs x ih =>
    rw [eraseDups_concat]
    by_cases h : x ∈ xs
    · rw [if_pos h]
      exact ih
    · rw [if_neg h, ← List.concat_eq_append]
      exact (List.nodup_concat _ _).mpr ⟨mt List.mem_eraseDups.mp h, ih⟩

/-- Where all members are distinct, none is left out. -/
theorem eraseDups_of_nodup {α : Type} [DecidableEq α] {xs : List α} (h : xs.Nodup) :
    xs.eraseDups = xs := by
  induction xs with
  | nil => rfl
  | cons x rest ih =>
    obtain ⟨hx, hrest⟩ := List.nodup_cons.mp h
    have hothers : (rest.filter fun y => !y == x) = rest := by
      rw [List.filter_eq_self]
      intro y hy
      have hne : y ≠ x := fun heq => hx (heq ▸ hy)
      simp [hne]
    rw [List.eraseDups_cons, hothers, ih hrest]

/-- Distinct members stay so when they are renamed. -/
theorem eraseDups_map {α γ : Type} [DecidableEq α] [DecidableEq γ] {f : α → γ}
    (hf : Function.Injective f) (xs : List α) : (xs.map f).eraseDups = xs.eraseDups.map f := by
  induction xs using List.reverseRecOn with
  | nil => rfl
  | append_singleton xs x ih =>
    rw [List.map_append, List.map_singleton, eraseDups_concat, eraseDups_concat, ih]
    by_cases h : x ∈ xs
    · rw [if_pos h, if_pos (List.mem_map_of_mem h)]
    · rw [if_neg h, if_neg (mt (List.mem_map_of_injective hf).mp h), List.map_append,
        List.map_singleton]

namespace OrderedMap

variable {κ ν μ ξ : Type}

/-- A map that is changed twice is changed by both changes in a row. -/
@[simp] theorem mapValues_mapValues (f : κ → ν → μ) (g : κ → μ → ξ) (m : OrderedMap κ ν) :
    (m.mapValues f).mapValues g = m.mapValues fun k v => g k (f k v) := by
  apply ext
  simp only [mapValues, List.map_map, Function.comp_def]

/-- Changes that agree on the entries give the same map. -/
theorem mapValues_congr {f g : κ → ν → μ} {m : OrderedMap κ ν}
    (h : ∀ e ∈ m.entries, f e.1 e.2 = g e.1 e.2) : m.mapValues f = m.mapValues g := by
  apply ext
  exact List.map_congr_left fun e he => by rw [h e he]

/-- A change of nothing changes nothing. -/
theorem mapValues_eq_self {f : κ → ν → ν} {m : OrderedMap κ ν}
    (h : ∀ e ∈ m.entries, f e.1 e.2 = e.2) : m.mapValues f = m := by
  apply ext
  calc
    (m.mapValues f).entries = m.entries.map id :=
      List.map_congr_left fun e he => by rw [h e he]; rfl
    _ = m.entries := List.map_id _

/-- Changing the values one by one changes the list of values. -/
theorem values_mapValues (f : ν → μ) (m : OrderedMap κ ν) :
    (m.mapValues fun _ v => f v).values = m.values.map f := by
  rw [values, values, mapValues, List.map_map, List.map_map]
  rfl

variable [DecidableEq κ]

/-- An entry of a list with distinct keys is found by its key, and nothing else. -/
theorem mem_iff_lookup {k : κ} {v : ν} {es : List (κ × ν)} (h : (es.map Prod.fst).Nodup) :
    (k, v) ∈ es ↔ lookup k es = some v := by
  induction es with
  | nil => simp [lookup]
  | cons e es ih =>
    obtain ⟨k', v'⟩ := e
    obtain ⟨hk, hes⟩ := List.nodup_cons.mp h
    by_cases he : k' = k
    · subst he
      have hout : (k', v) ∉ es := fun hm => hk (List.mem_map.mpr ⟨_, hm, rfl⟩)
      simp only [List.mem_cons, Prod.mk.injEq, true_and, hout, or_false, lookup, if_true,
        Option.some.injEq]
      exact eq_comm
    · have hne : k ≠ k' := fun h => he h.symm
      simp only [List.mem_cons, Prod.mk.injEq, hne, false_and, false_or, lookup, if_neg he,
        ih hes]

/-- The entries are what is found under the keys. -/
theorem mem_entries_iff {m : OrderedMap κ ν} {k : κ} {v : ν} :
    (k, v) ∈ m.entries ↔ m.get? k = some v :=
  mem_iff_lookup m.nodup_keys

/-- A key is one under which something is found. -/
theorem mem_keys_iff {m : OrderedMap κ ν} {k : κ} :
    k ∈ m.keys ↔ ∃ v, m.get? k = some v := by
  constructor
  · intro h
    obtain ⟨⟨k', v⟩, he, rfl⟩ := List.mem_map.mp h
    exact ⟨v, mem_entries_iff.mp he⟩
  · rintro ⟨v, h⟩
    exact mem_keys_of_get? h

/-- A value is what is found under some key. -/
theorem mem_values_iff {m : OrderedMap κ ν} {v : ν} :
    v ∈ m.values ↔ ∃ k, m.get? k = some v := by
  constructor
  · intro h
    obtain ⟨⟨k, v'⟩, he, rfl⟩ := List.mem_map.mp h
    exact ⟨k, mem_entries_iff.mp he⟩
  · rintro ⟨k, h⟩
    exact List.mem_map_of_mem (mem_entries_iff.mpr h)

/-- Values that tell their keys tell all keys in order. -/
theorem map_values {m : OrderedMap κ ν} {key : ν → κ} (h : ∀ ⦃k v⦄, m.get? k = some v → key v = k) :
    m.values.map key = m.keys := by
  rw [values, keys, List.map_map]
  exact List.map_congr_left fun e he => h (mem_entries_iff.mp he)

/-- Maps whose values tell their keys are the same if what is told of their values is the same,
and tells the values apart. -/
theorem eq_of_map_values {m m' : OrderedMap κ ν} {key : ν → κ}
    (hm : ∀ ⦃k v⦄, m.get? k = some v → key v = k) (hm' : ∀ ⦃k v⦄, m'.get? k = some v → key v = k)
    {p q : ν → μ} (h : m.values.map p = m'.values.map q)
    (hinj : ∀ v ∈ m.values, ∀ v' ∈ m'.values, p v = q v' → v = v') : m = m' := by
  have hlength : m.values.length = m'.values.length := by
    rw [← List.length_map p, h, List.length_map]
  have hvalues : m.values = m'.values := by
    refine List.ext_getElem hlength fun i hi hi' => ?_
    refine hinj _ (List.getElem_mem hi) _ (List.getElem_mem hi') ?_
    have hat := congrArg (·[i]?) h
    simpa only [List.getElem?_map, List.getElem?_eq_getElem hi, List.getElem?_eq_getElem hi',
      Option.map_some, Option.some.injEq] using hat
  have hentries : ∀ {m : OrderedMap κ ν}, (∀ ⦃k v⦄, m.get? k = some v → key v = k) →
      m.entries = m.values.map fun v => (key v, v) := by
    intro m hm
    rw [values, List.map_map]
    refine (List.map_id _).symm.trans (List.map_congr_left fun e he => ?_)
    exact Prod.ext (hm (mem_entries_iff.mp he)).symm rfl
  apply ext
  rw [hentries hm, hentries hm', hvalues]

/-- What is listed for the values is distinct if it is distinct for each value and tells the
value's key. -/
theorem nodup_flatMap_values {m : OrderedMap κ ν} {f : ν → List μ}
    (h : ∀ ⦃k v⦄, m.get? k = some v → (f v).Nodup)
    (hkey : ∀ ⦃k k' v v' x⦄, m.get? k = some v → m.get? k' = some v' → x ∈ f v → x ∈ f v' →
      k = k') : (m.values.flatMap f).Nodup := by
  have hpairs : m.entries.Pairwise fun e e' => e.1 ≠ e'.1 := List.pairwise_map.mp m.nodup_keys
  rw [values, List.flatMap_map, List.nodup_flatMap]
  refine ⟨fun e he => h (mem_entries_iff.mp he), hpairs.imp_of_mem ?_⟩
  intro e e' he he' hne x hx hx'
  exact hne (hkey (mem_entries_iff.mp he) (mem_entries_iff.mp he') hx hx')

/-- Placing a value under a new key puts its entry at the end. -/
theorem place_of_notMem {k : κ} {v : ν} {es : List (κ × ν)} (h : k ∉ es.map Prod.fst) :
    place k v es = es ++ [(k, v)] := by
  induction es with
  | nil => rfl
  | cons e es ih =>
    obtain ⟨k', v'⟩ := e
    simp only [List.map_cons, List.mem_cons, not_or] at h
    rw [place, if_neg (fun he => h.1 he.symm), ih h.2, List.cons_append]

/-- An entry under a new key comes last. -/
theorem entries_insert_of_new {m : OrderedMap κ ν} {k : κ} (h : m.get? k = none) (v : ν) :
    (m.insert k v).entries = m.entries ++ [(k, v)] := by
  apply place_of_notMem
  intro hk
  obtain ⟨w, hw⟩ := mem_keys_iff.mp hk
  rw [h] at hw
  exact Option.some_ne_none w hw.symm

/-- A new key comes last. -/
theorem keys_insert_of_new {m : OrderedMap κ ν} {k : κ} (h : m.get? k = none) (v : ν) :
    (m.insert k v).keys = m.keys ++ [k] := by
  simp only [keys, entries_insert_of_new h, List.map_append, List.map_cons, List.map_nil]

/-- Changing the value under the last key changes the last entry alone. -/
theorem entries_modify_of_last {m : OrderedMap κ ν} {es : List (κ × ν)} {k : κ} {v : ν}
    (h : m.entries = es ++ [(k, v)]) (f : ν → ν) :
    (m.modify k f).entries = es ++ [(k, f v)] := by
  have hnodup := m.nodup_keys
  rw [h, List.map_append, List.nodup_append] at hnodup
  have hothers : ∀ e ∈ es, e.1 ≠ k := fun e he =>
    hnodup.2.2 e.1 (List.mem_map_of_mem he) k (List.mem_singleton_self _)
  change m.entries.map (fun e => (e.1, if e.1 = k then f e.2 else e.2)) = _
  rw [h, List.map_append, List.map_cons, List.map_nil, if_pos rfl]
  congr 1
  refine (List.map_congr_left fun e he => ?_).trans (List.map_id es)
  rw [if_neg (hothers e he)]
  rfl

/-- Placing a value under a key that is there leaves the keys. -/
theorem map_fst_place {k : κ} {v w : ν} {es : List (κ × ν)} (h : lookup k es = some w) :
    (place k v es).map Prod.fst = es.map Prod.fst := by
  induction es with
  | nil => cases h
  | cons e es ih =>
    obtain ⟨k', v'⟩ := e
    by_cases he : k' = k
    · rw [place, if_pos he, List.map_cons, List.map_cons, he]
    · rw [lookup, if_neg he] at h
      rw [place, if_neg he, List.map_cons, List.map_cons, ih h]

/-- Inserting under a key that is there leaves the keys. -/
theorem keys_insert_of_get? {m : OrderedMap κ ν} {k : κ} {w : ν} (h : m.get? k = some w) (v : ν) :
    (m.insert k v).keys = m.keys :=
  map_fst_place h

/-- Placing the value that is found under a key changes nothing. -/
theorem place_eq_self {k : κ} {v : ν} {es : List (κ × ν)} (h : lookup k es = some v) :
    place k v es = es := by
  induction es with
  | nil => cases h
  | cons e es ih =>
    obtain ⟨k', v'⟩ := e
    by_cases he : k' = k
    · rw [lookup, if_pos he] at h
      cases h
      rw [place, if_pos he, he]
    · rw [lookup, if_neg he] at h
      rw [place, if_neg he, ih h]

/-- Inserting the value that is found under a key changes nothing. -/
theorem insert_eq_self {m : OrderedMap κ ν} {k : κ} {v : ν} (h : m.get? k = some v) :
    m.insert k v = m :=
  ext (place_eq_self h)

/-- Of two values placed under one key, the later one counts. -/
theorem place_place {k : κ} {v w : ν} {es : List (κ × ν)} :
    place k w (place k v es) = place k w es := by
  induction es with
  | nil => exact if_pos rfl
  | cons e es ih =>
    obtain ⟨k', v'⟩ := e
    by_cases he : k' = k
    · rw [place, if_pos he, place, if_pos rfl, place, if_pos he]
    · rw [place, if_neg he, place, if_neg he, ih, place, if_neg he]

/-- Of two values inserted under one key, the later one counts. -/
theorem insert_insert (m : OrderedMap κ ν) (k : κ) (v w : ν) :
    (m.insert k v).insert k w = m.insert k w :=
  ext place_place

/-- Maps with the same keys in the same order that find the same are the same. -/
theorem ext_get? {m m' : OrderedMap κ ν} (hkeys : m.keys = m'.keys)
    (hget : ∀ k v, m.get? k = some v → m'.get? k = some v) : m = m' := by
  apply ext
  have hlength : m.entries.length = m'.entries.length := by
    rw [← List.length_map Prod.fst, ← List.length_map Prod.fst]
    exact congrArg List.length hkeys
  refine List.ext_getElem hlength fun i hi hi' => ?_
  have hkey : (m.entries[i]).1 = (m'.entries[i]).1 := by
    have hat := congrArg (·[i]?) hkeys
    dsimp only [keys] at hat
    rw [List.getElem?_map, List.getElem?_map, List.getElem?_eq_getElem hi,
      List.getElem?_eq_getElem hi'] at hat
    exact Option.some.inj hat
  have hfound : m'.get? (m'.entries[i]).1 = some (m.entries[i]).2 := by
    rw [← hkey]
    exact hget _ _ (mem_entries_iff.mp (List.getElem_mem hi))
  have hfound' : m'.get? (m'.entries[i]).1 = some (m'.entries[i]).2 :=
    mem_entries_iff.mp (List.getElem_mem hi')
  rw [hfound] at hfound'
  exact Prod.ext hkey (Option.some.inj hfound')

/-- Maps with ascending keys that find the same are the same. -/
theorem eq_of_ascending {m m' : OrderedMap Nat ν} (hm : m.keys.Pairwise (· < ·))
    (hm' : m'.keys.Pairwise (· < ·)) (h : ∀ k v, m.get? k = some v ↔ m'.get? k = some v) :
    m = m' := by
  refine ext_get? ?_ fun k v => (h k v).mp
  have hmem : ∀ k, k ∈ m.keys ↔ k ∈ m'.keys := by
    intro k
    rw [mem_keys_iff, mem_keys_iff]
    exact exists_congr fun v => h k v
  have hperm : m.keys.Perm m'.keys :=
    (List.perm_ext_iff_of_nodup m.nodup_keys m'.nodup_keys).mpr hmem
  refine hperm.eq_of_pairwise (fun a b _ _ hab hba => ?_) hm hm'
  exact absurd (Nat.lt_trans hab hba) (Nat.lt_irrefl a)

/-- Placing a value under a key that is there changes what is listed for this key alone. -/
theorem length_flatMap_place {k : κ} {v w : ν} {es : List (κ × ν)} (f : κ × ν → List μ)
    (h : lookup k es = some w) : ((place k v es).flatMap f).length + (f (k, w)).length =
      (es.flatMap f).length + (f (k, v)).length := by
  induction es with
  | nil => cases h
  | cons e es ih =>
    obtain ⟨k', v'⟩ := e
    by_cases he : k' = k
    · subst he
      rw [lookup, if_pos rfl] at h
      cases h
      simp only [place, if_true, List.flatMap_cons, List.length_append]
      omega
    · rw [lookup, if_neg he] at h
      have hes := ih h
      simp only [place, if_neg he, List.flatMap_cons, List.length_append]
      omega

/-- Inserting under a key that is there changes what is listed for this key alone. -/
theorem length_flatMap_insert_of_get? {m : OrderedMap κ ν} {k : κ} {w : ν}
    (f : κ × ν → List μ) (h : m.get? k = some w) (v : ν) :
    ((m.insert k v).entries.flatMap f).length + (f (k, w)).length =
      (m.entries.flatMap f).length + (f (k, v)).length :=
  length_flatMap_place f h

/-- What is found first among values is still found first once a value was placed that
tells the same as the one it stands for. -/
theorem findSome?_place {q : ν → Option μ} {k : κ} {v : ν} {y : μ} {es : List (κ × ν)}
    (h : (es.map Prod.snd).findSome? q = some y) (hsame : ∀ w, lookup k es = some w → q v = q w) :
    ((place k v es).map Prod.snd).findSome? q = some y := by
  induction es with
  | nil => cases h
  | cons e es ih =>
    obtain ⟨k', v'⟩ := e
    by_cases he : k' = k
    · have hq : q v = q v' := hsame v' (if_pos he)
      rw [place, if_pos he, List.map_cons, List.findSome?_cons, hq]
      rw [List.map_cons, List.findSome?_cons] at h
      exact h
    · have hsame' : ∀ w, lookup k es = some w → q v = q w := by
        intro w hw
        exact hsame w ((if_neg he).trans hw)
      rw [place, if_neg he, List.map_cons, List.findSome?_cons]
      rw [List.map_cons, List.findSome?_cons] at h
      cases hq : q v' with
      | some z =>
        rw [hq] at h
        exact h
      | none =>
        rw [hq] at h
        exact ih h hsame'

/-- What is found first among the values of a map is still found first once a value was
inserted that tells the same as the one it stands for. -/
theorem findSome?_values_insert {q : ν → Option μ} {m : OrderedMap κ ν} {k : κ} {v : ν} {y : μ}
    (h : m.values.findSome? q = some y) (hsame : ∀ w, m.get? k = some w → q v = q w) :
    (m.insert k v).values.findSome? q = some y :=
  findSome?_place h hsame

/-- Removing a key leaves the order of the others. -/
theorem keys_erase (m : OrderedMap κ ν) (k : κ) :
    (m.erase k).keys = m.keys.filter fun x => decide (x ≠ k) := by
  simp only [keys, erase, List.filter_map]
  rfl

/-- Changing what was placed is placing what was changed. -/
theorem map_place (f : κ → ν → μ) (k : κ) (v : ν) (es : List (κ × ν)) :
    (place k v es).map (fun e => (e.1, f e.1 e.2)) =
      place k (f k v) (es.map fun e => (e.1, f e.1 e.2)) := by
  induction es with
  | nil => rfl
  | cons e es ih =>
    obtain ⟨k', v'⟩ := e
    by_cases h : k' = k
    · simp only [place, if_pos h, List.map_cons]
    · simp only [place, if_neg h, List.map_cons, ih]

/-- Changing the values goes through an insertion. -/
@[simp] theorem mapValues_insert (f : κ → ν → μ) (m : OrderedMap κ ν) (k : κ) (v : ν) :
    (m.insert k v).mapValues f = (m.mapValues f).insert k (f k v) :=
  ext (map_place f k v m.entries)

/-- Changing the values goes through a removal. -/
@[simp] theorem mapValues_erase (f : κ → ν → μ) (m : OrderedMap κ ν) (k : κ) :
    (m.erase k).mapValues f = (m.mapValues f).erase k := by
  apply ext
  simp only [mapValues, erase, List.filter_map]
  rfl

end OrderedMap

end FabricPaths
