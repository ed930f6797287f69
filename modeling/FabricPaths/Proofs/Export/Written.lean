import FabricPaths.Export.Written

/-!
# Written documents tell documents apart

A document is spelt out member by member, and nothing is lost in this: identifiers are written
as their texts, types as their names, and what is missing as nothing. So different documents are
written differently.
-/

namespace FabricPaths

/-- An identifier is known by its text. -/
theorem NodeId.text_inj {a b : NodeId} : a.text = b.text ↔ a = b := by
  constructor
  · intro h
    cases a
    cases b
    exact congrArg NodeId.mk h
  · exact congrArg NodeId.text

/-- A type is known by its name. -/
theorem NodeType.name_inj {t t' : NodeType} : t.name = t'.name ↔ t = t' := by
  cases t <;> cases t' <;> decide

namespace Json

/-- A natural number is known by how it is written. -/
theorem nat_inj {m n : Nat} : nat m = nat n ↔ m = n := by
  rw [nat, nat, int.injEq, Int.natCast_inj]

/-- Texts are known by how they are written. -/
theorem strs_inj {ss ts : List String} : strs ss = strs ts ↔ ss = ts := by
  rw [strs, strs, arr.injEq]
  exact List.map_inj_right fun _ _ => str.inj

/-- Whole numbers are known by how they are written. -/
theorem ints_inj {ms ns : List Int} : ints ms = ints ns ↔ ms = ns := by
  rw [ints, ints, arr.injEq]
  exact List.map_inj_right fun _ _ => int.inj

/-- Natural numbers are known by how they are written. -/
theorem nats_inj {ms ns : List Nat} : nats ms = nats ns ↔ ms = ns := by
  rw [nats, nats, arr.injEq]
  exact List.map_inj_right fun _ _ => nat_inj.mp

/-- A text or nothing is known by how it is written. -/
theorem strOrNull_inj {s t : Option String} : strOrNull s = strOrNull t ↔ s = t := by
  cases s with
  | none =>
    cases t with
    | none => exact iff_of_true rfl rfl
    | some t => exact iff_of_false nofun nofun
  | some s =>
    cases t with
    | none => exact iff_of_false nofun nofun
    | some t => rw [strOrNull, strOrNull, str.injEq, Option.some.injEq]

/-- A number or nothing is known by how it is written. -/
theorem natOrNull_inj {m n : Option Nat} :
    intOrNull (m.map Int.ofNat) = intOrNull (n.map Int.ofNat) ↔ m = n := by
  cases m with
  | none =>
    cases n with
    | none => exact iff_of_true rfl rfl
    | some n => exact iff_of_false nofun nofun
  | some m =>
    cases n with
    | none => exact iff_of_false nofun nofun
    | some n =>
      rw [Option.map_some, Option.map_some, intOrNull, intOrNull, int.injEq, Option.some.injEq]
      exact Int.natCast_inj

end Json

namespace Export

/-- Identifiers are known by their texts. -/
theorem texts_inj {ids ids' : List NodeId} :
    ids.map (·.text) = ids'.map (·.text) ↔ ids = ids' :=
  List.map_inj_right fun _ _ => NodeId.text_inj.mp

/-- The edge the other way, or nothing, is known by how it is written. -/
theorem reverseJson_inj {key key' : Option (NodeId × NodeId)} :
    (key.map keyJson).getD .null = (key'.map keyJson).getD .null ↔ key = key' := by
  cases key with
  | none =>
    cases key' with
    | none => exact iff_of_true rfl rfl
    | some key' => exact iff_of_false nofun nofun
  | some key =>
    cases key' with
    | none => exact iff_of_false nofun nofun
    | some key' =>
      obtain ⟨a, b⟩ := key
      obtain ⟨a', b'⟩ := key'
      change Json.strs _ = Json.strs _ ↔ _
      simp only [Json.strs_inj, List.cons.injEq, and_true, NodeId.text_inj, Option.some.injEq,
        Prod.mk.injEq]

/-- An edge is known by how it is written. -/
theorem EdgeEntry.toJson_inj {e e' : EdgeEntry Float} (h : e.toJson = e'.toJson) : e = e' := by
  simp only [toJson, Json.obj.injEq, List.cons.injEq, Prod.mk.injEq, true_and, and_true,
    Json.str.injEq, Json.float.injEq, Json.nats_inj, Json.ints_inj, NodeId.text_inj,
    reverseJson_inj] at h
  cases e
  cases e'
  simp only [EdgeEntry.mk.injEq]
  exact h

mutual

/-- A node is known by how it is written. -/
theorem NodeEntry.toJson_inj : ∀ {n n' : NodeEntry Float}, n.toJson = n'.toJson → n = n'
  | .mk id lid type hostname description main marks subnodes edges,
    .mk id' lid' type' hostname' description' main' marks' subnodes' edges', h => by
    simp only [NodeEntry.toJson, Json.obj.injEq, List.cons.injEq, Prod.mk.injEq, true_and, and_true,
      Json.str.injEq, Json.int.injEq, Json.arr.injEq, Json.ints_inj, NodeId.text_inj,
      NodeType.name_inj] at h
    obtain ⟨hid, hlid, htype, hhostname, hdescription, hmain, hmarks, hsubnodes, hedges⟩ := h
    have hunder : subnodes = subnodes' := nodesJson_inj hsubnodes
    have hedges' : edges = edges' := (List.map_inj_right fun _ _ => EdgeEntry.toJson_inj).mp hedges
    rw [hid, hlid, htype, hhostname, hdescription, hmain, hmarks, hunder, hedges']

/-- Nodes are known by how they are written. -/
theorem nodesJson_inj : ∀ {ns ns' : List (NodeEntry Float)}, nodesJson ns = nodesJson ns' → ns = ns'
  | [], [], _ => rfl
  | [], _ :: _, h => nomatch h
  | _ :: _, [], h => nomatch h
  | n :: rest, n' :: rest', h => by
    rw [nodesJson, nodesJson, List.cons.injEq] at h
    have hfirst : n = n' := NodeEntry.toJson_inj h.1
    have hrest : rest = rest' := nodesJson_inj h.2
    rw [hfirst, hrest]

end

/-- A link is known by how it is written. -/
theorem LinkEntry.toJson_inj {l l' : LinkEntry Float} (h : l.toJson = l'.toJson) : l = l' := by
  simp only [toJson, Json.obj.injEq, List.cons.injEq, Prod.mk.injEq, true_and, and_true,
    Json.str.injEq, Json.float.injEq, Json.nat_inj, Json.ints_inj, Json.natOrNull_inj,
    NodeId.text_inj] at h
  cases l
  cases l'
  simp only [LinkEntry.mk.injEq]
  simp only [and_assoc] at h
  exact h

/-- A path is known by how it is written. -/
theorem PathEntry.toJson_inj {p p' : PathEntry} (h : p.toJson = p'.toJson) : p = p' := by
  simp only [toJson, Json.obj.injEq, List.cons.injEq, Prod.mk.injEq, true_and, and_true,
    Json.str.injEq, Json.nats_inj, NodeId.text_inj] at h
  cases p
  cases p'
  simp only [PathEntry.mk.injEq]
  exact h

/-- Partitions are known by how they are written, from whatever number they are counted. -/
theorem partitionsJson_inj {ps ps' : List Partition} {i : Nat}
    (h : (ps.zipIdx i).map (fun (p, i) => partitionJson p i) =
      (ps'.zipIdx i).map fun (p, i) => partitionJson p i) : ps = ps' := by
  induction ps generalizing ps' i with
  | nil =>
    cases ps' with
    | nil => rfl
    | cons p' rest' => cases h
  | cons p rest ih =>
    cases ps' with
    | nil => cases h
    | cons p' rest' =>
      simp only [List.zipIdx_cons, List.map_cons, List.cons.injEq] at h
      obtain ⟨hfirst, hrest⟩ := h
      simp only [partitionJson, Json.obj.injEq, List.cons.injEq, Prod.mk.injEq, true_and, and_true,
        Json.str.injEq, Json.strs_inj, texts_inj] at hfirst
      have hp : p = p' := by
        cases p
        cases p'
        simp only [Partition.mk.injEq]
        exact hfirst
      rw [hp, ih hrest]

/-- A document is known by how it is written. -/
theorem Document.toJson_inj {d d' : Document Float} (h : d.toJson = d'.toJson) : d = d' := by
  simp only [toJson, Json.obj.injEq, List.cons.injEq, Prod.mk.injEq, true_and, and_true,
    Json.str.injEq, Json.arr.injEq, Json.strOrNull_inj] at h
  obtain ⟨hsubnet, hhwloc, hpartitions, hnodes, hlinks, hpaths⟩ := h
  have hlinks' := (List.map_inj_right fun _ _ => LinkEntry.toJson_inj).mp hlinks
  have hpaths' := (List.map_inj_right fun _ _ => PathEntry.toJson_inj).mp hpaths
  have hpartitions' := partitionsJson_inj hpartitions
  have hnodes' := nodesJson_inj hnodes
  cases d
  cases d'
  simp only [Document.mk.injEq]
  exact ⟨hsubnet, hhwloc, hpartitions', hnodes', hlinks', hpaths'⟩

end Export

end FabricPaths
