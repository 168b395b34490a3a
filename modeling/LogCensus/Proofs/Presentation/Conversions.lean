import LogCensus.Proofs.Presentation.Records

/-!
# Conversions are transparent

A front end may wrap a value in conversions, with types and constants of their own, as often as it
likes. Taking all of them away is a presentation that keeps all else, and it keeps the records too.
So two files that differ in such conversions alone have the same records.

* `SourceFile.withoutConversions`: a file whose values stand by themselves.
* `records_unaffected_by_conversions`: the records of files that differ in conversions alone.
-/

namespace LogCensus

/-- The same program without conversions around its values. -/
def Presentation.withoutConversions : Presentation where
  handle := id
  handle_injective := Function.injective_id
  keepsDisplays := true
  keepsConversions := false

/-- A file whose values stand by themselves: the receivers and arguments of calls, the arguments of
constructors and indexers, the elements of arrays, the members of anonymous objects, assigned values
and declared initializers, at any depth. -/
def SourceFile.withoutConversions (file : SourceFile) : SourceFile :=
  file.present .withoutConversions

/-- Conversions are transparent: files that are the same without the conversions around values have
the same records. -/
theorem records_unaffected_by_conversions (table : WellKnown) (file file' : SourceFile)
    (hsame : file.withoutConversions = file'.withoutConversions) :
    analyzeFile Analyzer.all table file = analyzeFile Analyzer.all table file' := by
  have htable : table.present .withoutConversions = table :=
    WellKnown.present_of_handle_eq_id rfl table
  have hbare : ∀ file : SourceFile,
      analyzeFile Analyzer.all table file.withoutConversions =
        analyzeFile Analyzer.all table file := by
    intro file
    have hpresent := analyzeFile_present (p := .withoutConversions) rfl table file
    rw [htable] at hpresent
    exact hpresent
  calc analyzeFile Analyzer.all table file
    _ = analyzeFile Analyzer.all table file.withoutConversions := (hbare file).symm
    _ = analyzeFile Analyzer.all table file'.withoutConversions := by rw [hsame]
    _ = analyzeFile Analyzer.all table file' := hbare file'

/-- A log call with a template and two values, and a scope with a state; every value in them is
wrapped in the same way. -/
def valuesFile (wrap : Operation → Operation) : SourceFile :=
  let literal : Operation := wrap { constant := some (.int 42), shape := .literal }
  let template : Operation := wrap
    { constant := some (.string "{UserId} {Users}"), shape := .literal }
  let index : Operation := { shape := .propertyReference "Item" [⟨none, literal⟩] }
  let users : Operation := wrap
    { shape := .objectCreation
        { arguments := [⟨none, literal⟩]
          initializer := some [{ shape := .assignment index literal }] } }
  let userId : Operation := wrap { shape := .localReference "userId" (some literal) }
  let values : Operation := wrap { shape := .arrayCreation [userId, users] }
  let request : Operation := wrap { shape := .anonymousObjectCreation [⟨"Id", literal⟩] }
  let state : Operation := wrap { shape := .anonymousObjectCreation [⟨"Request", request⟩] }
  { path := "User.cs"
    callSites :=
      [{ span := ⟨3, 3⟩
         invocation :=
          { method := { symbol := ⟨21⟩, name := "LogInformation" }
            arguments :=
              [argumentOf { symbol := some ⟨5⟩, display := "string" } template,
               argumentOf { display := "object[]", elementType := some { display := "object" } }
                values] } },
       { span := ⟨5, 5⟩
         invocation :=
          { method := { symbol := ⟨90⟩, genericDefinition := some ⟨12⟩, name := "BeginScope" }
            arguments := [⟨none, state⟩] } }] }

/-- A value under conversions, the outermost one first. -/
def Operation.converted (value : Operation) :
    List (Option TypeRef × Option Constant) → Operation
  | [] => value
  | (type, constant) :: inner => ⟨type, constant, .conversion (value.converted inner)⟩

theorem records_unaffected_by_conversions_valuesFile :
    let table := WellKnown.resolve smallCompilation
    let wrap := fun value : Operation => value.converted
      [(some { display := "object" }, some (.string "text")), (none, some .null)]
    (valuesFile wrap).withoutConversions = (valuesFile id).withoutConversions ∧
      analyzeFile Analyzer.all table (valuesFile wrap) =
        analyzeFile Analyzer.all table (valuesFile id) ∧
      (analyzeFile Analyzer.all table (valuesFile id)).map (·.kind) =
        [.logMethod, .beginScope] := by
  intro table wrap
  have hsame : (valuesFile wrap).withoutConversions = (valuesFile id).withoutConversions := rfl
  exact ⟨hsame, records_unaffected_by_conversions table _ _ hsame, by decide⟩

end LogCensus
