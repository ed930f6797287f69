import FabricPaths.Proofs.Builder.Frame
import FabricPaths.Proofs.Builder.Lookups
import FabricPaths.Proofs.Export.Closed
import FabricPaths.Proofs.Export.Recovery
import FabricPaths.Proofs.Export.Written

/-!
# Exports of finished fabrics

A fabric that a builder left with its links paired is given forwarding tables and a directory of
hardware descriptions, and is completed. Whatever the history of the builder and whatever the
tables, its document refers only to what is in the document, and two such documents are written
alike only if the fabrics are the same, but for tables and for sources without a path.
-/

namespace FabricPaths.Builder

variable {β σ τ : Type}

section Equipped

variable [Memory] [Bandwidth β]

/-- The fabric that a builder left with its links paired, with some forwarding tables and a
directory of hardware descriptions. -/
def equipped (subnet : String) (calls : List Call) (routes : RoutingTables)
    (hwlocDir : Option String) : Fabric β :=
  { (after subnet (calls ++ [.finish])).fabric with hwlocDir, routes }

variable {subnet : String} {calls : List Call} (routes : RoutingTables) (hwlocDir : Option String)

/-- An equipped fabric is ready to be divided into partitions, if its links could be paired. -/
theorem divisible_equipped (h : (after subnet calls : Builder β).Finishes) :
    (equipped subnet calls routes hwlocDir : Fabric β).Divisible :=
  (divisible_routed h routes).equipped hwlocDir routes

/-- No node of an equipped fabric was put aside. -/
theorem asideNodes_equipped :
    (equipped subnet calls routes hwlocDir : Fabric β).asideNodes = [] := by
  have hrest := rest_after (β := β) subnet (calls ++ [.finish])
  exact congrArg Fabric.asideNodes hrest

/-- After any calls on a builder that end with a pairing, if the pairing does not break off, and
with any forwarding tables, the fabric is completed after a survey that returns and has a
document, in which all is found that the document refers to. -/
theorem document_closed (h : (after subnet calls : Builder β).Finishes)
    (observe : Option (Attempt → Action σ Unit)) (s : σ) {survey : Survey}
    (hsurvey : ((equipped subnet calls routes hwlocDir : Fabric β).survey observe s).outcome =
      .ok survey) :
    ∃ g document, (equipped subnet calls routes hwlocDir : Fabric β).completed observe s = .ok g ∧
      g.document = .ok document ∧ document.Closed := by
  have hdivisible := divisible_equipped routes hwlocDir h
  obtain ⟨g, hg, hcomplete, -⟩ := hdivisible.completed_ok hsurvey
  exact ⟨g, g.sheet, hg, hcomplete.wired.document_eq, hcomplete.sheet_closed⟩

end Equipped

/-- The document of the cables, with the path between their hosts, is closed. -/
theorem sampleCables_closed : (after "s" (sampleCables 7) : Builder Float).Finishes ∧
    ∃ survey g document,
      ((equipped "s" (sampleCables 7) sampleCableRoutes (some "hwloc") : Fabric Float).survey
        (σ := Unit) none ()).outcome = .ok survey ∧ survey.counts.complete = 1 ∧
      (equipped "s" (sampleCables 7) sampleCableRoutes (some "hwloc") : Fabric Float).completed
        (σ := Unit) none () = .ok g ∧
      g.document = .ok document ∧ document.Closed := by
  have hcounts : ((equipped "s" (sampleCables 7) sampleCableRoutes (some "hwloc") :
      Fabric Float).survey (σ := Unit) none ()).outcome.map (·.counts.complete) = .ok 1 := by
    decide +kernel
  obtain ⟨survey, hsurvey, hcomplete⟩ := exists_of_map_eq_ok hcounts
  obtain ⟨g, document, hg, hdocument, hclosed⟩ := document_closed sampleCableRoutes (some "hwloc")
    sampleCables_finishes none () hsurvey
  exact ⟨sampleCables_finishes, survey, g, document, hsurvey, hcomplete, hg, hdocument, hclosed⟩

/-- After any calls on two builders that each end with a pairing, if the pairings do not break off,
and with any forwarding tables, both fabrics are completed after surveys that return and have
documents. These are written alike just if the fabrics are the same, but for forwarding tables and
for sources from which no path is known. -/
theorem documents_alike_iff [Memory] {subnet subnet' : String} {calls calls' : List Call}
    (h : (after subnet calls : Builder Float).Finishes)
    (h' : (after subnet' calls' : Builder Float).Finishes)
    (routes routes' : RoutingTables) (hwlocDir hwlocDir' : Option String)
    (observe : Option (Attempt → Action σ Unit)) (observe' : Option (Attempt → Action τ Unit))
    (s : σ) (t : τ) {survey survey' : Survey}
    (hsurvey : ((equipped subnet calls routes hwlocDir : Fabric Float).survey observe s).outcome =
      .ok survey)
    (hsurvey' : ((equipped subnet' calls' routes' hwlocDir' : Fabric Float).survey
      observe' t).outcome = .ok survey') :
    ∃ g g' document document',
      (equipped subnet calls routes hwlocDir : Fabric Float).completed observe s = .ok g ∧
      (equipped subnet' calls' routes' hwlocDir' : Fabric Float).completed observe' t = .ok g' ∧
      g.document = .ok document ∧ g'.document = .ok document' ∧
      (document.toJson = document'.toJson ↔ g.documented = g'.documented) := by
  have hdivisible := divisible_equipped routes hwlocDir h
  have hdivisible' := divisible_equipped routes' hwlocDir' h'
  obtain ⟨g, hg, hcomplete, haside⟩ := hdivisible.completed_ok hsurvey
  obtain ⟨g', hg', hcomplete', haside'⟩ := hdivisible'.completed_ok hsurvey'
  have hnone : g.asideNodes = g'.asideNodes := by
    rw [haside, haside', asideNodes_equipped, asideNodes_equipped]
  refine ⟨g, g', g.sheet, g'.sheet, hg, hg', hcomplete.wired.document_eq,
    hcomplete'.wired.document_eq, ?_⟩
  rw [← hcomplete.wired.sheet_eq_iff hcomplete'.wired hnone]
  exact ⟨Export.Document.toJson_inj, congrArg _⟩

/-- The documents of the cables with and without forwarding tables, of which only one has a path,
are written alike just if the fabrics are the same. -/
theorem sampleCables_documents_alike : (after "s" (sampleCables 7) : Builder Float).Finishes ∧
    ∃ survey survey' g g' document document',
      ((equipped "s" (sampleCables 7) sampleCableRoutes none : Fabric Float).survey
        (σ := Unit) none ()).outcome = .ok survey ∧ survey.counts.complete = 1 ∧
      ((equipped "s" (sampleCables 7) ∅ none : Fabric Float).survey
        (σ := Unit) none ()).outcome = .ok survey' ∧ survey'.counts.complete = 0 ∧
      (equipped "s" (sampleCables 7) sampleCableRoutes none : Fabric Float).completed
        (σ := Unit) none () = .ok g ∧
      (equipped "s" (sampleCables 7) ∅ none : Fabric Float).completed (σ := Unit) none () = .ok g' ∧
      g.document = .ok document ∧ g'.document = .ok document' ∧
      (document.toJson = document'.toJson ↔ g.documented = g'.documented) := by
  have hcounts : ((equipped "s" (sampleCables 7) sampleCableRoutes none : Fabric Float).survey
      (σ := Unit) none ()).outcome.map (·.counts.complete) = .ok 1 := by decide +kernel
  have hcounts' : ((equipped "s" (sampleCables 7) ∅ none : Fabric Float).survey
      (σ := Unit) none ()).outcome.map (·.counts.complete) = .ok 0 := by decide +kernel
  obtain ⟨survey, hsurvey, hcomplete⟩ := exists_of_map_eq_ok hcounts
  obtain ⟨survey', hsurvey', hcomplete'⟩ := exists_of_map_eq_ok hcounts'
  obtain ⟨g, g', document, document', hg, hg', hdocument, hdocument', halike⟩ :=
    documents_alike_iff sampleCables_finishes sampleCables_finishes sampleCableRoutes ∅ none none
      none none () () hsurvey hsurvey'
  exact ⟨sampleCables_finishes, survey, survey', g, g', document, document', hsurvey, hcomplete,
    hsurvey', hcomplete', hg, hg', hdocument, hdocument', halike⟩

end FabricPaths.Builder
