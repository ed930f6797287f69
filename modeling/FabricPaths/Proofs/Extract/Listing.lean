import FabricPaths.Extract.Run
import FabricPaths.Proofs.Record.FileName
import Mathlib.Data.List.Nodup
import Mathlib.Data.List.Pairwise

/-!
# Subnets of a listing

The subnets of an input directory are read off the names in it. Two names give one subnet
only if they differ by nothing but a line feed at the end; then the fabric of the one dump
is written over that of the other.
-/

namespace FabricPaths.Extract

/-- The subnets are those that the names give, in another order. -/
theorem subnetsOf_perm (names : List String) :
    ((subnetsOf names).map Prod.fst).Perm (names.filterMap FileName.discoverySubnet?) := by
  have hsorted := (List.mergeSort_perm
    (names.filterMap fun name => (FileName.discoverySubnet? name).map (·, name))
    subnetPrecedes).map Prod.fst
  rw [List.map_filterMap] at hsorted
  have hfst : (fun name => ((FileName.discoverySubnet? name).map (·, name)).map Prod.fst) =
      FileName.discoverySubnet? := by
    funext name
    rw [Option.map_map]
    exact congrFun Option.map_id _
  rwa [hfst] at hsorted

/-- No subnet has its dump under both of its names. -/
def Twinless (names : List String) : Prop :=
  ∀ s, FileName.IsSubnet s → FileName.discovery s ∈ names → FileName.discovery s ++ "\n" ∉ names

/-- A name differs from the name with a line feed behind it. -/
theorem ne_append_lineFeed (name : String) : name ≠ name ++ "\n" := by
  intro h
  have hlength := congrArg (fun s : String => s.toList.length) h
  have hone : "\n".toList.length = 1 := rfl
  rw [String.toList_append, List.length_append, hone] at hlength
  omega

/-- The names of a directory give pairwise distinct subnets, and so pairwise distinct files
for the fabrics, exactly if no subnet has its dump under both of its names. -/
theorem subnets_distinct_iff {names : List String} (distinct : names.Nodup) :
    (((subnetsOf names).map Prod.fst).Nodup ↔ Twinless names) ∧
      (((subnetsOf names).map fun s => FileName.fabric s.1).Nodup ↔ Twinless names) := by
  have hsubnets : ((subnetsOf names).map Prod.fst).Nodup ↔ Twinless names := by
    rw [(subnetsOf_perm names).nodup_iff, List.Nodup, List.pairwise_filterMap]
    constructor
    · intro hpairwise s hs hplain htwin
      have : Std.Symm fun a b => ∀ x, FileName.discoverySubnet? a = some x →
          ∀ y, FileName.discoverySubnet? b = some y → x ≠ y :=
        ⟨fun a b h x hx y hy hxy => h y hy x hx hxy.symm⟩
      have hne := hpairwise.forall hplain htwin (ne_append_lineFeed _)
      exact hne s (FileName.discoverySubnet?_eq_some_iff.mpr ⟨hs, .inl rfl⟩)
        s (FileName.discoverySubnet?_eq_some_iff.mpr ⟨hs, .inr rfl⟩) rfl
    · intro htwinless
      refine distinct.pairwise_of_forall_ne ?_
      rintro a ha b hb hab s hsa t hsb rfl
      obtain ⟨hs, hnamea⟩ := FileName.discoverySubnet?_eq_some_iff.mp hsa
      obtain ⟨-, hnameb⟩ := FileName.discoverySubnet?_eq_some_iff.mp hsb
      rcases hnamea with rfl | rfl
      · rcases hnameb with rfl | rfl
        · exact hab rfl
        · exact htwinless s hs ha hb
      · rcases hnameb with rfl | rfl
        · exact htwinless s hs hb ha
        · exact hab rfl
  refine ⟨hsubnets, ?_⟩
  have hfiles : ((subnetsOf names).map fun s => FileName.fabric s.1) =
      ((subnetsOf names).map Prod.fst).map FileName.fabric := by
    rw [List.map_map]
    rfl
  rw [hfiles, List.nodup_map_iff FileName.fabric_injective, hsubnets]

/-- The names of an input directory with the dumps of two subnets. -/
def sampleNames : List String :=
  ["ib-subnet-fe80:0000:0000:0002.txt", "notes.txt", "ib-subnet-fe80:0000:0000:0001.txt"]

/-- The two dumps are those of different subnets, and of different fabrics. -/
theorem sampleNames_distinct : sampleNames.Nodup ∧
    ((subnetsOf sampleNames).map Prod.fst).Nodup ∧
    ((subnetsOf sampleNames).map fun s => FileName.fabric s.1).Nodup := by
  have hnodup : sampleNames.Nodup := by decide
  have htwinless : Twinless sampleNames := by
    intro s _ _ htwin
    have hends : ∀ name ∈ sampleNames, name.toList.getLast? ≠ some '\n' := by decide
    refine hends _ htwin ?_
    rw [String.toList_append]
    exact List.getLast?_concat
  obtain ⟨hsubnets, hfiles⟩ := subnets_distinct_iff hnodup
  exact ⟨hnodup, hsubnets.mpr htwinless, hfiles.mpr htwinless⟩

/-- The names of an input directory with one dump twice, once with a line feed behind its
name. -/
def twinNames : List String :=
  ["ib-subnet-fe80:0000:0000:0000.txt", "ib-subnet-fe80:0000:0000:0000.txt\n"]

/-- Different names may give one subnet, and one file for two fabrics. -/
theorem twinNames_share_subnet : twinNames.Nodup ∧
    ¬ ((subnetsOf twinNames).map Prod.fst).Nodup ∧
    ¬ ((subnetsOf twinNames).map fun s => FileName.fabric s.1).Nodup := by
  have hsubnets : ¬ ((subnetsOf twinNames).map Prod.fst).Nodup := by
    rw [(subnetsOf_perm twinNames).nodup_iff]
    decide
  refine ⟨by decide, hsubnets, fun hfiles => hsubnets ?_⟩
  exact List.Nodup.of_map FileName.fabric (by rwa [List.map_map])

end FabricPaths.Extract
