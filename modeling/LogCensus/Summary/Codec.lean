import LogCensus.Json.Basic
import LogCensus.Summary

/-!
# Summaries in JSON

Every type of an inconsistent name is written together with the name.
-/

namespace LogCensus

namespace Inconsistency

/-- The JSON form of one type of a name. -/
def typeToJson (name type : String) : Json :=
  .object [("name", .string name), ("type", .string type)]

/-- The JSON form. -/
def toJson (finding : Inconsistency) : Json :=
  .object
    [("name", .string finding.name),
     ("types", .array (finding.types.map (typeToJson finding.name))),
     ("issueKinds", .array (finding.issues.map fun issue => .string issue.name))]

end Inconsistency

/-- The JSON form. -/
def CommonName.toJson (entry : CommonName) : Json :=
  .object
    [("name", .string entry.name),
     ("count", .ofNat entry.count),
     ("mostCommonType", .string entry.mainType)]

/-- The JSON form. -/
def Summary.toJson (summary : Summary) : Json :=
  let typesByName := summary.typesByName.map fun (name, types) =>
    (name, Json.array (types.map .string))
  let usagesByKind := summary.usagesByKind.map fun (kind, count) => (kind.name, Json.ofNat count)
  .object
    [("totalLogUsages", .ofNat summary.totalUsages),
     ("totalParameterUsage", .ofNat summary.totalParameters),
     ("uniqueParameterNameCount", .ofNat summary.uniqueNames),
     ("parameterTypesByName", .object typesByName),
     ("inconsistentParameterNames", .array (summary.inconsistencies.map Inconsistency.toJson)),
     ("commonParameterNames", .array (summary.commonNames.map CommonName.toJson)),
     ("usagesByKind", .object usagesByKind),
     ("failedExtractions", .ofNat summary.failedExtractions)]

end LogCensus
