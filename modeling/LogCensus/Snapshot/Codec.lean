import LogCensus.Compilation.Codec
import LogCensus.Json.Parser
import LogCensus.Operation.Codec
import LogCensus.Snapshot

/-!
# Snapshots in JSON

The JSON forms of snapshots and their readers, and the reading of a whole snapshot text.
-/

namespace LogCensus

open Json

namespace LineSpan

/-- The JSON form of a range of lines. -/
def toJson (span : LineSpan) : Json :=
  .object [("startLine", .int span.startLine.toNat), ("endLine", .int span.endLine.toNat)]

/-- Reads a range of lines. -/
def read : Reader LineSpan
  | 0, _ => none
  | _ + 1, value => do
    let fields ← value.fields? ["startLine", "endLine"]
    return {
      startLine := ← fields.required "startLine" uint64?
      endLine := ← fields.required "endLine" uint64? }

end LineSpan

namespace CallSite

/-- The JSON form of a call. -/
def toJson (call : CallSite) : Json :=
  .object [("span", call.span.toJson), ("invocation", call.invocation.toJson)]

/-- Reads a call. -/
def read : Reader CallSite
  | 0, _ => none
  | levels + 1, value => do
    let fields ← value.fields? ["span", "invocation"]
    return {
      span := ← fields.required "span" (LineSpan.read levels)
      invocation := ← fields.required "invocation" (Invocation.read levels) }

end CallSite

namespace MethodDeclaration

/-- The JSON form of a method declaration. -/
def toJson (declaration : MethodDeclaration) : Json :=
  .object
    [("span", declaration.span.toJson),
     ("method", declaration.method.toJson),
     ("attributes", .ofList Attribute.toJson declaration.attributes)]

/-- Reads a method declaration. -/
def read : Reader MethodDeclaration
  | 0, _ => none
  | levels + 1, value => do
    let fields ← value.fields? ["span", "method", "attributes"]
    return {
      span := ← fields.required "span" (LineSpan.read levels)
      method := ← fields.required "method" (MethodRef.read levels)
      attributes := ← fields.defaulted "attributes" [] (Reader.list Attribute.read levels) }

end MethodDeclaration

namespace SourceFile

/-- The JSON form of a source file. -/
def toJson (file : SourceFile) : Json :=
  .object
    [("path", .string file.path),
     ("callSites", .ofList CallSite.toJson file.callSites),
     ("methods", .ofList MethodDeclaration.toJson file.methods)]

/-- Reads a source file. -/
def read : Reader SourceFile
  | 0, _ => none
  | levels + 1, value => do
    let fields ← value.fields? ["path", "callSites", "methods"]
    return {
      path := ← fields.required "path" string?
      callSites := ← fields.defaulted "callSites" [] (Reader.list CallSite.read levels)
      methods := ← fields.defaulted "methods" [] (Reader.list MethodDeclaration.read levels) }

end SourceFile

namespace Snapshot

/-- The JSON form of a snapshot. -/
def toJson (snapshot : Snapshot) : Json :=
  .object
    [("name", .string snapshot.name),
     ("compilation", snapshot.compilation.toJson),
     ("files", .ofList SourceFile.toJson snapshot.files)]

/-- Reads a snapshot. -/
def read : Reader Snapshot
  | 0, _ => none
  | levels + 1, value => do
    let fields ← value.fields? ["name", "compilation", "files"]
    return {
      name := ← fields.defaulted "name" "" string?
      compilation := ← fields.defaulted "compilation" {} (Compilation.read levels)
      files := ← fields.defaulted "files" [] (Reader.list SourceFile.read levels) }

/-- Reads the text of a snapshot. -/
def ofText? (text : String) : Option Snapshot := do
  read textLevels (← Json.parse? text)

end Snapshot

end LogCensus
