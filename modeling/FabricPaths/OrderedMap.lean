/-!
# Maps that keep their order

A finite map whose keys stay in the order of their first insertion. Inserting
under a key that is present replaces the value and keeps the key's place. No key
occurs twice; the type carries this as a proof.
-/

namespace FabricPaths

/-- A finite map in insertion order. -/
structure OrderedMap (κ ν : Type) where
  /-- The keys with their values, oldest first. -/
  entries : List (κ × ν)
  /-- No key occurs twice. -/
  nodup_keys : (entries.map Prod.fst).Nodup

namespace OrderedMap

variable {κ ν μ : Type}

/-- The map without keys. -/
def empty : OrderedMap κ ν := ⟨[], by simp⟩

instance : EmptyCollection (OrderedMap κ ν) := ⟨empty⟩

instance : Inhabited (OrderedMap κ ν) := ⟨empty⟩

/-- The keys in order. -/
def keys (m : OrderedMap κ ν) : List κ := m.entries.map Prod.fst

/-- The values in order. -/
def values (m : OrderedMap κ ν) : List ν := m.entries.map Prod.snd

/-- The number of keys. -/
def size (m : OrderedMap κ ν) : Nat := m.entries.length

/-- Two maps with the same entries are equal. -/
@[ext] theorem ext {m m' : OrderedMap κ ν} (h : m.entries = m'.entries) : m = m' := by
  cases m; cases m'; cases h; rfl

/-- Changes every value, with its key at hand. -/
def mapValues (f : κ → ν → μ) (m : OrderedMap κ ν) : OrderedMap κ μ :=
  ⟨m.entries.map fun e => (e.1, f e.1 e.2), by
    have h : (m.entries.map fun e => (e.1, f e.1 e.2)).map Prod.fst = m.entries.map Prod.fst := by
      rw [List.map_map]; rfl
    rw [h]; exact m.nodup_keys⟩

/-- Changing the values leaves the keys. -/
@[simp] theorem keys_mapValues (f : κ → ν → μ) (m : OrderedMap κ ν) :
    (m.mapValues f).keys = m.keys := by
  simp only [keys, mapValues, List.map_map]; rfl

variable [DecidableEq κ]

/-- The value in a list of entries under a key. -/
def lookup (k : κ) : List (κ × ν) → Option ν
  | [] => none
  | (k', v) :: es => if k' = k then some v else lookup k es

/-- Puts a value in a list of entries, in place where the key is present. -/
def place (k : κ) (v : ν) : List (κ × ν) → List (κ × ν)
  | [] => [(k, v)]
  | (k', v') :: es => if k' = k then (k, v) :: es else (k', v') :: place k v es

/-- Placing a value adds its key at most. -/
theorem mem_keys_place {k x : κ} {v : ν} {es : List (κ × ν)} :
    x ∈ (place k v es).map Prod.fst ↔ x = k ∨ x ∈ es.map Prod.fst := by
  induction es with
  | nil => simp [place]
  | cons e es ih =>
    obtain ⟨k', v'⟩ := e
    by_cases h : k' = k
    · simp [place, h]
    · simp only [place, if_neg h, List.map_cons, List.mem_cons, ih]
      grind

/-- Placing a value keeps the keys distinct. -/
theorem nodup_place {k : κ} {v : ν} {es : List (κ × ν)} (h : (es.map Prod.fst).Nodup) :
    ((place k v es).map Prod.fst).Nodup := by
  induction es with
  | nil => simp [place]
  | cons e es ih =>
    obtain ⟨k', v'⟩ := e
    simp only [List.map_cons, List.nodup_cons] at h
    by_cases hk : k' = k
    · simp only [place, if_pos hk, List.map_cons, List.nodup_cons]
      exact ⟨hk ▸ h.1, h.2⟩
    · simp only [place, if_neg hk, List.map_cons, List.nodup_cons, mem_keys_place, not_or]
      exact ⟨⟨hk, h.1⟩, ih h.2⟩

/-- The value under a key. -/
def get? (m : OrderedMap κ ν) (k : κ) : Option ν := lookup k m.entries

/-- Whether a key is present. -/
def contains (m : OrderedMap κ ν) (k : κ) : Bool := (m.get? k).isSome

/-- Puts a value under a key: in place if the key is present, else at the end. -/
def insert (m : OrderedMap κ ν) (k : κ) (v : ν) : OrderedMap κ ν :=
  ⟨place k v m.entries, nodup_place m.nodup_keys⟩

/-- Removes a key. -/
def erase (m : OrderedMap κ ν) (k : κ) : OrderedMap κ ν :=
  ⟨m.entries.filter fun e => decide (e.1 ≠ k),
    (List.filter_sublist.map Prod.fst).nodup m.nodup_keys⟩

/-- Changes the value under a key, if it is present. -/
def modify (m : OrderedMap κ ν) (k : κ) (f : ν → ν) : OrderedMap κ ν :=
  m.mapValues fun k' v => if k' = k then f v else v

/-- The value under a key, or a given one. -/
def getD (m : OrderedMap κ ν) (k : κ) (v : ν) : ν := (m.get? k).getD v

/-- A map from a list of entries; a later value under a key replaces an
earlier one in its place. -/
def ofList (es : List (κ × ν)) : OrderedMap κ ν :=
  es.foldl (fun m e => m.insert e.1 e.2) empty

/-- A placed value is found under its key, and nothing else changes. -/
@[simp] theorem lookup_place {k x : κ} {v : ν} {es : List (κ × ν)} :
    lookup x (place k v es) = if x = k then some v else lookup x es := by
  induction es with
  | nil => by_cases h : x = k <;> grind [lookup, place]
  | cons e es ih =>
    obtain ⟨k', v'⟩ := e
    by_cases h : k' = k <;> grind [lookup, place]

/-- What is put under a key is found there, and nothing else changes. -/
@[simp] theorem get?_insert (m : OrderedMap κ ν) (k x : κ) (v : ν) :
    (m.insert k v).get? x = if x = k then some v else m.get? x :=
  lookup_place

/-- A value is found only under a key of the map. -/
theorem mem_keys_of_get? {m : OrderedMap κ ν} {k : κ} {v : ν} (h : m.get? k = some v) :
    k ∈ m.keys := by
  obtain ⟨es, hn⟩ := m
  simp only [get?, keys] at h ⊢
  clear hn
  induction es with
  | nil => simp [lookup] at h
  | cons e es ih => grind [lookup]

/-- Nothing is found in the map without keys. -/
@[simp] theorem get?_empty (k : κ) : (empty : OrderedMap κ ν).get? k = none := rfl

/-- A removed key is gone, and nothing else changes. -/
@[simp] theorem get?_erase (m : OrderedMap κ ν) (k x : κ) :
    (m.erase k).get? x = if x = k then none else m.get? x := by
  obtain ⟨es, h⟩ := m
  simp only [get?, erase]
  clear h
  induction es with
  | nil => simp [lookup]
  | cons e es ih => grind [lookup]

/-- Changing values changes what is found. -/
@[simp] theorem get?_mapValues (f : κ → ν → μ) (m : OrderedMap κ ν) (k : κ) :
    (m.mapValues f).get? k = (m.get? k).map (f k) := by
  obtain ⟨es, h⟩ := m
  simp only [get?, mapValues]
  clear h
  induction es with
  | nil => rfl
  | cons e es ih => grind [lookup]

/-- Changing the value under one key changes that value only. -/
@[simp] theorem get?_modify (m : OrderedMap κ ν) (k x : κ) (f : ν → ν) :
    (m.modify k f).get? x = if x = k then (m.get? x).map f else m.get? x := by
  simp only [modify, get?_mapValues]
  by_cases h : x = k
  · simp [h]
  · simp [h]

end OrderedMap

end FabricPaths
