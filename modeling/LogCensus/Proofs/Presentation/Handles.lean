import LogCensus.Proofs.Census.Division
import LogCensus.Proofs.Presentation.Records
import Mathlib.Logic.Embedding.Basic

/-!
# Symbol handles are opaque

The handles of a project mean nothing beyond being equal or different. Exchanging them for others,
in the symbol table of the project and everywhere in its files, is a presentation that keeps all
else. Each project may have handles of its own, since its files are read with its own table only.

* `Snapshot.rename`: a project with other handles.
* `census_unaffected_by_renaming`: the census of renamed projects.
-/

namespace LogCensus

/-- Other handles for the same symbols. -/
def Presentation.renaming (rename : SymbolId ↪ SymbolId) : Presentation where
  handle := rename
  handle_injective := rename.injective
  keepsDisplays := true
  keepsConversions := true

/-- A project as it is presented. -/
def Snapshot.present (p : Presentation) (project : Snapshot) : Snapshot where
  name := project.name
  compilation := project.compilation.present p
  files := project.files.map (SourceFile.present p)

/-- A project with other handles, in its symbol table as well as in its files. -/
def Snapshot.rename (project : Snapshot) (rename : SymbolId ↪ SymbolId) : Snapshot :=
  project.present (.renaming rename)

/-- With the display texts kept, a project has the same records in every presentation. -/
theorem flatMap_analyzeFile_present {p : Presentation} (hkeeps : p.keepsDisplays = true)
    (project : Snapshot) :
    (project.present p).files.flatMap
        (analyzeFile Analyzer.all (WellKnown.resolve (project.present p).compilation)) =
      project.files.flatMap (analyzeFile Analyzer.all (WellKnown.resolve project.compilation)) := by
  simp only [Snapshot.present, WellKnown.resolve_present, List.flatMap_map,
    analyzeFile_present hkeeps]

/-- Handles are opaque: with each project renamed in a way of its own, the records, the summary and
the mark of cancellation of a census stay exactly what they were. -/
theorem census_unaffected_by_renaming (projects : List (Snapshot × (SymbolId ↪ SymbolId)))
    (options : CensusOptions) (cancelled : Bool) :
    census (projects.map fun entry => entry.1.rename entry.2) options cancelled =
      census (projects.map Prod.fst) options cancelled := by
  have hrecords : recordsInOrder Analyzer.all (projects.map fun entry => entry.1.rename entry.2) =
      recordsInOrder Analyzer.all (projects.map Prod.fst) := by
    simp only [recordsInOrder, List.flatMap_map, Snapshot.rename]
    congr 1
    funext entry
    exact flatMap_analyzeFile_present rfl entry.1
  have hfiles : (projects.map fun entry => entry.1.rename entry.2).any
      (fun project => !project.files.isEmpty) =
        (projects.map Prod.fst).any fun project => !project.files.isEmpty := by
    rw [List.any_map, List.any_map]
    congr 1
    funext entry
    exact congrArg (!·) List.isEmpty_map
  simp only [census, gather, gatherWith_eq, hrecords, hfiles]

end LogCensus
