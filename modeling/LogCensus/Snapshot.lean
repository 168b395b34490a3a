import LogCensus.Compilation
import LogCensus.Operation

/-!
# Snapshots

A snapshot is what a front end records about one project: the symbol table of its compilation and,
for each source file, the calls and the method declarations that may matter. The symbol handles in
the files have a meaning only together with the table of their own snapshot.
-/

namespace LogCensus

/-- A range of lines, counted from zero. -/
structure LineSpan where
  startLine : UInt64
  endLine : UInt64
deriving DecidableEq

/-- A call in a source file. -/
structure CallSite where
  span : LineSpan
  invocation : Invocation

/-- A method declared in a source file, with the attributes applied to it. -/
structure MethodDeclaration where
  span : LineSpan
  method : MethodRef
  attributes : List Attribute := []
deriving DecidableEq

/-- One source file. -/
structure SourceFile where
  path : String
  callSites : List CallSite := []
  methods : List MethodDeclaration := []

/-- One project. -/
structure Snapshot where
  name : String := ""
  compilation : Compilation := {}
  files : List SourceFile := []

end LogCensus
