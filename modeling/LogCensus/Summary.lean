import LogCensus.SortedMap
import LogCensus.Usage

/-!
# Summaries

How the parameters of many records agree: the types used with each name, the names used with more
than one type, and the names used most often. Names are compared exactly, so names that differ in
case are different names.

* `Tally`: the counts over a list of records.
* `summarize`: the summary of a list of records.
-/

namespace LogCensus

/-- How often each type is used with each name, and the other counts over records. -/
structure Tally where
  /-- Names, then types, then the number of uses. -/
  types : SortedMap String (SortedMap String Nat) := .empty
  kinds : SortedMap CallKind Nat := .empty
  parameters : Nat := 0
  failures : Nat := 0
deriving DecidableEq

namespace Tally

/-- Counts one parameter. -/
def addParameter (tally : Tally) (parameter : Parameter) : Tally :=
  { tally with
    types := tally.types.update parameter.name .empty fun types =>
      types.update parameter.type 0 (· + 1)
    parameters := tally.parameters + 1 }

/-- Counts one record and all its parameters. -/
def addRecord (tally : Tally) (record : UsageRecord) : Tally :=
  let counted :=
    { tally with
      kinds := tally.kinds.update record.kind 0 (· + 1)
      failures := tally.failures + if record.extractionFailed then 1 else 0 }
  record.parameters.foldl addParameter counted

/-- The counts over a list of records. -/
def ofRecords (records : List UsageRecord) : Tally :=
  records.foldl addRecord {}

end Tally

/-- Why a name is reported. -/
inductive Issue where
  /-- The name is used with more than one type. -/
  | typeMismatch
deriving DecidableEq

namespace Issue

/-- The name in JSON. -/
def name : Issue → String
  | .typeMismatch => "typeMismatch"

/-- The name in reports. -/
def label : Issue → String
  | .typeMismatch => "type mismatch"

end Issue

/-- A name that is used with several types. -/
structure Inconsistency where
  name : String
  /-- The types, ascending. -/
  types : List String
  issues : List Issue
deriving DecidableEq

/-- A name with the number of its uses. -/
structure CommonName where
  name : String
  count : Nat
  /-- The type used most often with the name. -/
  mainType : String
deriving DecidableEq

namespace CommonName

/-- Whether a name may stand before another one in the ranking: by count, then by name. -/
def le (left right : CommonName) : Bool :=
  ((compare right.count left.count).then (compare left.name right.name)).isLE

end CommonName

/-- What a list of records amounts to. -/
structure Summary where
  totalUsages : Nat := 0
  totalParameters : Nat := 0
  uniqueNames : Nat := 0
  /-- The types used with each name, ascending. -/
  typesByName : List (String × List String) := []
  inconsistencies : List Inconsistency := []
  commonNames : List CommonName := []
  usagesByKind : List (CallKind × Nat) := []
  failedExtractions : Nat := 0
deriving DecidableEq

namespace Summary

/-- The length of the ranking when none is asked for. -/
def defaultTop : Nat := 10

/-- Whether some name is used with several types. -/
def hasInconsistencies (summary : Summary) : Bool :=
  !summary.inconsistencies.isEmpty

/-- The first pair with the largest count. -/
def largest? : List (String × Nat) → Option (String × Nat)
  | [] => none
  | first :: rest =>
    some (rest.foldl (fun best next => if next.2 ≤ best.2 then best else next) first)

/-- The type used most often; of several such types, the smallest. -/
def mainType (types : SortedMap String Nat) : String :=
  (largest? types.entries).elim "object" Prod.fst

/-- The report on a name; none when it has a single type. -/
def inconsistency? (name : String) (types : SortedMap String Nat) : Option Inconsistency :=
  if 1 < types.size then some ⟨name, types.keys, [.typeMismatch]⟩ else none

/-- The ranking entry of a name. -/
def commonName (name : String) (types : SortedMap String Nat) : CommonName :=
  ⟨name, types.values.foldr (· + ·) 0, mainType types⟩

/-- All names in the order of the ranking. -/
def ranking (types : SortedMap String (SortedMap String Nat)) : List CommonName :=
  (types.entries.map fun (name, types) => commonName name types).mergeSort CommonName.le

/-- The summary of the counts over a number of records. -/
def ofTally (usages top : Nat) (tally : Tally) : Summary where
  totalUsages := usages
  totalParameters := tally.parameters
  uniqueNames := tally.types.size
  typesByName := tally.types.entries.map fun (name, types) => (name, types.keys)
  inconsistencies := tally.types.entries.filterMap fun (name, types) => inconsistency? name types
  commonNames := (ranking tally.types).take top
  usagesByKind := tally.kinds.entries
  failedExtractions := tally.failures

end Summary

/-- The summary of a list of records, with a ranking of the given length. -/
def summarize (records : List UsageRecord) (top : Nat := Summary.defaultTop) : Summary :=
  .ofTally records.length top (.ofRecords records)

end LogCensus
