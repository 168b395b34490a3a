import LogCensus.Analysis.Analyzer

/-!
# Batches of work

The work of a run is a list of files, each with the well-known symbols of its project. It is divided
into contiguous pieces; each piece gives a batch of records, and the batches of neighbouring pieces
are merged in order.

* `Plan.evenly`: divides work into a number of pieces.
* `Batch.ofPlan`: the batch of divided work.
-/

namespace LogCensus

/-- A file with the well-known symbols of its project. -/
structure WorkItem where
  table : WellKnown
  file : SourceFile

/-- How work is divided into contiguous pieces, and in which order the pieces are put together. -/
inductive Plan where
  | piece (work : List WorkItem)
  | join (left right : Plan)

namespace Plan

/-- Divides work into a number of pieces of about the same length. -/
def evenly : Nat → List WorkItem → Plan
  | 0, work => .piece work
  | 1, work => .piece work
  | pieces + 2, work =>
    let size := work.length / (pieces + 2)
    .join (.piece (work.take size)) (evenly (pieces + 1) (work.drop size))

end Plan

/-- The records of a piece of work. -/
structure Batch where
  records : List UsageRecord := []
  /-- Whether a file was left out because the run was cancelled. -/
  skipped : Bool := false
deriving DecidableEq

namespace Batch

/-- The batches of two neighbouring pieces as one. -/
def merge (left right : Batch) : Batch :=
  ⟨left.records ++ right.records, left.skipped || right.skipped⟩

/-- Adds the records of one file, or notes that it is left out. -/
def add (analyzers : List Analyzer) (cancelled : Bool) (batch : Batch) (item : WorkItem) : Batch :=
  if cancelled then { batch with skipped := true }
  else { batch with records := batch.records ++ analyzeFile analyzers item.table item.file }

/-- The batch of divided work. -/
def ofPlan (analyzers : List Analyzer) (cancelled : Bool) : Plan → Batch
  | .piece work => work.foldl (add analyzers cancelled) {}
  | .join left right => merge (ofPlan analyzers cancelled left) (ofPlan analyzers cancelled right)

end Batch

end LogCensus
