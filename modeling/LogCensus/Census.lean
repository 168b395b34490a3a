import LogCensus.Census.Batch
import LogCensus.Summary.Codec
import LogCensus.Usage.Codec

/-!
# The census of logging calls

Runs the analyzers over every file of every project and brings the records into one order: by place,
then kind, then method name, and otherwise in the order of projects and files. The order is that of
a stable sort, so it does not depend on how the work was divided.

* `gather`: the records of all projects.
* `merge`: the records of two runs in one order.
* `census`: the records of all projects with their summary.
-/

namespace LogCensus

/-- Sorts records by place, kind and method name; records that agree in these keep their order. -/
def sortRecords (records : List UsageRecord) : List UsageRecord :=
  records.mergeSort UsageRecord.le

/-- The records of two runs in one order. -/
def merge (left right : List UsageRecord) : List UsageRecord :=
  sortRecords (left ++ right)

/-- The files of a project with its well-known symbols. -/
def Snapshot.workItems (project : Snapshot) : List WorkItem :=
  let table := WellKnown.resolve project.compilation
  project.files.map fun file => ⟨table, file⟩

/-- The files of all projects, in order. -/
def workItems (projects : List Snapshot) : List WorkItem :=
  projects.flatMap Snapshot.workItems

/-- The records of a run. -/
structure Gathered where
  records : List UsageRecord := []
  /-- Whether the run was cancelled before every file was analyzed. -/
  cancelled : Bool := false
deriving DecidableEq

namespace Gathered

/-- The records of a batch, in order. -/
def ofBatch (batch : Batch) : Gathered :=
  ⟨sortRecords batch.records, batch.skipped⟩

end Gathered

/-- The records that some analyzers find in projects, with the work divided among a number of
workers. -/
def gatherWith (analyzers : List Analyzer) (projects : List Snapshot) (workers : Nat)
    (cancelled : Bool) : Gathered :=
  let work := workItems projects
  .ofBatch (.ofPlan analyzers cancelled (.evenly (min workers work.length) work))

/-- The records of projects. -/
def gather (projects : List Snapshot) (workers : Nat) (cancelled : Bool) : Gathered :=
  gatherWith Analyzer.all projects workers cancelled

/-- How a census is taken. -/
structure CensusOptions where
  /-- The number of workers; zero leaves the choice to the program. -/
  workers : Nat := 0
  /-- The length of the ranking of names. -/
  top : Nat := Summary.defaultTop
deriving DecidableEq

/-- The records of a run with their summary. -/
structure Census where
  records : List UsageRecord
  summary : Summary
  cancelled : Bool
deriving DecidableEq

/-- The census of projects. -/
def census (projects : List Snapshot) (options : CensusOptions) (cancelled : Bool) : Census :=
  let gathered := gather projects options.workers cancelled
  ⟨gathered.records, summarize gathered.records options.top, gathered.cancelled⟩

/-- The JSON form. -/
def Census.toJson (census : Census) : Json :=
  .object
    [("results", .array (census.records.map UsageRecord.toJson)),
     ("summary", census.summary.toJson),
     ("cancelled", .bool census.cancelled)]

/-! ## Diagnostics -/

/-- What there is to say about the symbols of a project. -/
def Snapshot.symbolDiagnostics (project : Snapshot) : List Diagnostic :=
  let table := WellKnown.resolve project.compilation
  let framework := if table.hasLoggingFramework then [] else [.noLoggingFramework project.name]
  table.diagnostics ++ framework

/-- What there is to say about gathering records. -/
def gatherDiagnostics (projects : List Snapshot) (cancelled : Bool) : List Diagnostic :=
  let files :=
    if cancelled then []
    else (workItems projects).flatMap fun item =>
      analyzeFileDiagnostics Analyzer.all item.table item.file
  projects.flatMap Snapshot.symbolDiagnostics ++ files

/-- What there is to say about a finished census. -/
def Census.diagnostics (census : Census) (projects : List Snapshot) (cancelled : Bool) :
    List Diagnostic :=
  gatherDiagnostics projects cancelled ++
    [.extractionFinished census.summary.totalUsages census.summary.totalParameters
      census.summary.inconsistencies.length census.cancelled]

end LogCensus
