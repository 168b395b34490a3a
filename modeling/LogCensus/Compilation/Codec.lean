import LogCensus.Compilation
import LogCensus.Symbol.Codec

/-!
# Symbol tables in JSON

The JSON forms of symbol tables and their readers. The index is not written; a table that is read
has none until it is rebuilt.
-/

namespace LogCensus

open Json

namespace MemberEntry

/-- The JSON form of a member. -/
def toJson (entry : MemberEntry) : Json :=
  .object [("name", .string entry.name), ("id", entry.id.toJson)]

/-- Reads a member. -/
def read : Reader MemberEntry
  | 0, _ => none
  | _ + 1, value => do
    let fields ← value.fields? ["name", "id"]
    return {
      name := ← fields.required "name" string?
      id := ← fields.required "id" SymbolId.ofJson? }

end MemberEntry

namespace TypeEntry

/-- The JSON form of a type entry. -/
def toJson (entry : TypeEntry) : Json :=
  .object
    [("metadataName", .string entry.metadataName),
     ("id", entry.id.toJson),
     ("members", .ofList MemberEntry.toJson entry.members)]

/-- Reads a type entry. -/
def read : Reader TypeEntry
  | 0, _ => none
  | levels + 1, value => do
    let fields ← value.fields? ["metadataName", "id", "members"]
    return {
      metadataName := ← fields.required "metadataName" string?
      id := ← fields.required "id" SymbolId.ofJson?
      members := ← fields.defaulted "members" [] (Reader.list MemberEntry.read levels) }

end TypeEntry

namespace Compilation

/-- The JSON form of a symbol table. -/
def toJson (compilation : Compilation) : Json :=
  .object [("types", .ofList TypeEntry.toJson compilation.types)]

/-- Reads a symbol table, without an index. -/
def read : Reader Compilation
  | 0, _ => none
  | levels + 1, value => do
    let fields ← value.fields? ["types"]
    return { types := ← fields.defaulted "types" [] (Reader.list TypeEntry.read levels) }

end Compilation

end LogCensus
