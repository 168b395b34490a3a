import LogCensus.Symbol

/-!
# Symbol tables of compilations

The types known to one compilation with their members, and the look-up of types by metadata name and
of members by declaring type and name. An index over the metadata names may be built; a name that is
not in the index is searched for in the table. When a metadata name is repeated, the index leads to
its last entry and the search to its first.
-/

namespace LogCensus

/-- A named member of a type. -/
structure MemberEntry where
  name : String
  id : SymbolId
deriving DecidableEq

/-- A type known to a compilation. -/
structure TypeEntry where
  metadataName : String
  id : SymbolId
  members : List MemberEntry := []
deriving DecidableEq

/-- The symbol table of one compilation. -/
structure Compilation where
  types : List TypeEntry := []
  /-- Positions of types by metadata name; the first pair with a name counts. -/
  index : List (String × Nat) := []
deriving DecidableEq

namespace Compilation

/-- The positions of all types by metadata name, the last type first. -/
def indexOf (types : List TypeEntry) : List (String × Nat) :=
  types.zipIdx.foldl (fun index (entry, position) => (entry.metadataName, position) :: index) []

/-- The same table with an index over all its types. -/
def rebuildIndex (compilation : Compilation) : Compilation :=
  { compilation with index := indexOf compilation.types }

/-- The entry of a type, through the index when the name is in it. -/
def entry? (compilation : Compilation) (metadataName : String) : Option TypeEntry :=
  match compilation.index.lookup metadataName with
  | some position => compilation.types[position]?
  | none => compilation.types.find? fun entry => entry.metadataName == metadataName

/-- The handle of a type by its metadata name. -/
def typeNamed? (compilation : Compilation) (metadataName : String) : Option SymbolId :=
  (compilation.entry? metadataName).map TypeEntry.id

/-- The handles of the members of a type with a name, over all entries of the type. -/
def members (compilation : Compilation) (type : SymbolId) (name : String) : List SymbolId :=
  let entries := compilation.types.filter fun entry => entry.id == type
  let named := (entries.flatMap TypeEntry.members).filter fun entry => entry.name == name
  named.map MemberEntry.id

end Compilation

end LogCensus
