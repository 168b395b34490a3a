import LogCensus.Proofs.Analysis.Records
import LogCensus.Proofs.EventId.Emptiness
import LogCensus.Proofs.Presentation.Extraction

/-!
# Records of presented calls

A presented call gives the presented record, apart from one choice: which argument is the state of a
call. The state is looked for by comparing types as a whole, display texts included, so what is said
here takes the chosen state as given. When the display texts are kept the choice is the same.

* `EventId.resolve_present`: the event identifier of a presented call.
* `LogCall.contentWith`, `Scope.contentWith?`: the content of a call with a given state.
* `LogCall.recordWith?_present` and its companions: the record of a presented call.
* `Analysis.stateBindings`, `Analysis.stateWith?`: the comparisons that decide the state of a call,
  and the state that follows from them.
* `analyzeFile_present`: the records of a presented file, when display texts are kept.
-/

namespace LogCensus

variable (p : Presentation)

/-! ## Event identifiers -/

/-- One half of an identifier as it is presented: a half without a name of its own is named by the
type of the expression. -/
def EventPart.present : EventPart → EventPart
  | .reference .other name => .reference .other (p.shown name)
  | part => part

/-- An identifier as it is presented. -/
def EventId.present : EventId → EventId
  | .details id name => .details (id.present p) (name.present p)
  | .reference kind name => .reference kind name

/-- What is known about an expression of identifier type, as it is presented. -/
def EventIdResolution.present : EventIdResolution → EventIdResolution
  | .absent => .absent
  | .found id => .found (id.present p)
  | .unresolvable type => .unresolvable (p.shown type)

theorem EventIdResolution.eventId?_present (resolution : EventIdResolution) :
    (resolution.present p).eventId? = resolution.eventId?.map (EventId.present p) := by
  cases resolution <;> rfl

@[simp] theorem EventPart.isMissing_present (part : EventPart) :
    (part.present p).isMissing = part.isMissing := by
  cases part with
  | reference kind name => cases kind <;> rfl
  | _ => rfl

@[simp] theorem EventPart.isZero_present (part : EventPart) :
    (part.present p).isZero = part.isZero := by
  cases part with
  | reference kind name => cases kind <;> rfl
  | _ => rfl

theorem Operation.referenceKind?_present (operation : Operation) :
    (operation.present p).referenceKind? = operation.referenceKind? := by
  rw [referenceKind?, shape_present, referenceKind?]
  cases operation.shape <;> rfl

theorem Operation.isDefaultValue_present (operation : Operation) :
    (operation.present p).isDefaultValue = operation.isDefaultValue := by
  rw [isDefaultValue, shape_present, isDefaultValue]
  cases operation.shape <;> rfl

/-- An expression without a name of its own is of no known kind of reference. -/
theorem EventPart.present_reference (operation : Operation) :
    EventPart.reference (operation.referenceKind?.getD .other)
        (operation.referenceName?.getD (p.shown operation.typeDisplay)) =
      (EventPart.reference (operation.referenceKind?.getD .other)
        (operation.referenceName?.getD operation.typeDisplay)).present p := by
  obtain ⟨type, constant, shape⟩ := operation
  cases shape <;> rfl

theorem EventPart.ofOperation_presentValue (value : Operation) :
    .ofOperation (value.presentValue p) = (EventPart.ofOperation value).present p := by
  simp only [ofOperation, Operation.unwrap_presentValue, Operation.constant_present,
    Operation.isDefaultValue_present, Operation.referenceKind?_present,
    Operation.referenceName?_present, Operation.typeDisplay_present, present_reference]
  cases value.unwrap.constant with
  | none =>
    dsimp only
    split <;> rfl
  | some known =>
    dsimp only
    split <;> rfl

namespace EventId

theorem ofParts_present (id name : EventPart) :
    ofParts (id.present p) (name.present p) = (ofParts id name).present p := by
  simp only [ofParts, EventPart.isZero_present, EventPart.isMissing_present]
  split <;> rfl

theorem creationArgument?_present (arguments : List Argument) (name : String) (position : Nat) :
    creationArgument? (arguments.map (Argument.present p)) name position =
      (creationArgument? arguments name position).map (Argument.present p) := by
  have hnamed : (fun argument : Argument => argument.parameter.any fun parameter =>
      Text.eqIgnoringCase parameter.name name) ∘ Argument.present p =
        fun argument => argument.parameter.any fun parameter =>
          Text.eqIgnoringCase parameter.name name := by
    funext argument
    rw [Function.comp_apply, Argument.parameter_present, Option.any_map]
    rfl
  have hbound : (fun argument : Argument => argument.parameter.isSome) ∘ Argument.present p =
      fun argument => argument.parameter.isSome := by
    funext argument
    rw [Function.comp_apply, Argument.parameter_present, Option.isSome_map]
  simp only [creationArgument?, List.find?_map, hnamed, List.any_map, hbound, List.getElem?_map]
  cases arguments.find? fun argument => argument.parameter.any fun parameter =>
      Text.eqIgnoringCase parameter.name name with
  | some argument => rfl
  | none =>
    dsimp only [Option.map_none]
    split <;> rfl

theorem creationPart_present (arguments : List Argument) (name : String) (position : Nat) :
    creationPart (arguments.map (Argument.present p)) name position =
      (creationPart arguments name position).present p := by
  simp only [creationPart, creationArgument?_present]
  cases creationArgument? arguments name position with
  | none => rfl
  | some argument =>
    simp only [Option.map_some, Option.elim_some, Argument.value_present,
      EventPart.ofOperation_presentValue]

/-- An expression that refers to a symbol of identifier type keeps the name of the symbol. -/
theorem ofReference_present (table : WellKnown) (value : Operation) :
    ofReference (table.present p) (value.unwrap.present p) =
      (ofReference table value.unwrap).present p := by
  have hpart : EventPart.ofOperation (value.unwrap.present p) =
      (EventPart.ofOperation value.unwrap).present p := by
    rw [← Operation.unwrap_presentValue, EventPart.ofOperation_unwrap,
      EventPart.ofOperation_presentValue, EventPart.ofOperation_unwrap]
  simp only [ofReference, Operation.type_present, Option.any_map, WellKnown.isEventId_present,
    Operation.referenceKind?_present, Operation.referenceName?_present,
    Operation.typeDisplay_present, hpart, EventPart.isMissing_present]
  split
  · cases value.unwrap.referenceKind? <;> rfl
  · split
    · rfl
    · exact ofParts_present p _ .missing

theorem resolveValue_present (table : WellKnown) (value : Operation) :
    resolveValue (table.present p) (value.presentValue p) =
      (resolveValue table value).present p := by
  have hreference := ofReference_present p table value
  simp only [resolveValue, Operation.unwrap_presentValue, Operation.shape_present]
  cases value.unwrap.shape with
  | objectCreation creation =>
    simp only [Shape.present, ObjectCreation.arguments_present, List.isEmpty_map,
      creationPart_present, ofParts_present]
    split <;> rfl
  | defaultValue => rfl
  | _ => exact hreference

end EventId

/-! ## Arguments -/

/-- A test that presentation does not affect finds the same argument. -/
theorem find?_isBoundTo_present {test test' : TypeRef → Bool}
    (htest : ∀ type, test' (type.present p) = test type) (arguments : List Argument) :
    (arguments.map (Argument.present p)).find? (fun argument => argument.isBoundTo test') =
      (arguments.find? fun argument => argument.isBoundTo test).map (Argument.present p) := by
  have hbound : (fun argument : Argument => argument.isBoundTo test') ∘ Argument.present p =
      fun argument => argument.isBoundTo test := by
    funext argument
    rw [Function.comp_apply, Argument.isBoundTo_present]
    simp only [htest]
  rw [List.find?_map, hbound]

theorem EventId.resolve_present (table : WellKnown) (arguments : List Argument) :
    resolve (table.present p) (arguments.map (Argument.present p)) =
      (resolve table arguments).present p := by
  simp only [resolve, find?_isBoundTo_present p (table.isEventId_present p)]
  cases arguments.find? fun argument => argument.isBoundTo table.isEventId with
  | none => rfl
  | some argument =>
    simp only [Option.map_some, Option.elim_some, Argument.value_present, resolveValue_present]

namespace Analysis

theorem template?_present (table : WellKnown) (arguments : List Argument) :
    template? (table.present p) (arguments.map (Argument.present p)) =
      template? table arguments := by
  simp only [template?, find?_isBoundTo_present p (table.isString_present p)]
  cases arguments.find? fun argument => argument.isBoundTo table.isString with
  | none => rfl
  | some argument =>
    simp only [Option.map_some, Option.bind_eq_bind, Option.bind_some, Argument.value_present,
      Operation.unwrap_presentValue, Operation.constantString?_present]

theorem severity?_present (table : WellKnown) (arguments : List Argument) :
    severity? (table.present p) (arguments.map (Argument.present p)) =
      severity? table arguments := by
  simp only [severity?, find?_isBoundTo_present p (table.isLogLevel_present p)]
  cases arguments.find? fun argument => argument.isBoundTo table.isLogLevel with
  | none => rfl
  | some argument =>
    simp only [Option.map_some, Option.bind_eq_bind, Option.bind_some, Argument.value_present,
      Operation.unwrap_presentValue, Operation.constant_present]

theorem values?_present (arguments : List Argument) :
    values? (arguments.map (Argument.present p)) =
      (values? arguments).map (Operation.presentValue p) := by
  have harray : ∀ type : TypeRef,
      (type.present p).elementType.isSome = type.elementType.isSome := by
    intro type
    rw [TypeRef.elementType_present, Option.isSome_map]
  have hfind : (arguments.map (Argument.present p)).find? Argument.isValueArray =
      (arguments.find? Argument.isValueArray).map (Argument.present p) :=
    find?_isBoundTo_present p harray arguments
  rw [values?, hfind, values?, Option.map_map, Option.map_map]
  congr 1
  funext argument
  exact Argument.value_present p argument

theorem hasFrameworkRole_present (table : WellKnown) (argument : Argument) :
    (argument.present p).hasFrameworkRole (table.present p) = argument.hasFrameworkRole table := by
  rw [Argument.hasFrameworkRole, Argument.isBoundTo_present]
  simp only [WellKnown.isLogger_present, WellKnown.isLogLevel_present,
    WellKnown.isEventId_present, WellKnown.isException_present]
  rfl

/-- Which arguments are bound to the type that a method is constructed for. Of a method with no or
several type arguments nothing is asked. -/
def stateBindings (method : MethodRef) (arguments : List Argument) : List Bool :=
  match method.typeArguments with
  | [type] => arguments.map fun argument => argument.isBoundTo fun bound => bound == type
  | _ => []

/-- The state among arguments of which it is known whether they are bound to its type. -/
def stateWith? (table : WellKnown) (arguments : List Argument) (bindings : List Bool) :
    Option Operation :=
  if bindings.any id then ((arguments.zip bindings).find? Prod.snd).map (·.1.value)
  else (arguments.find? fun argument => !argument.hasFrameworkRole table).map Argument.value

theorem state?_eq (table : WellKnown) (method : MethodRef) (arguments : List Argument) :
    state? table method arguments =
      stateWith? table arguments (stateBindings method arguments) := by
  -- an argument and its binding are found together
  have hfind : ∀ test : Argument → Bool,
      ((arguments.zip (arguments.map test)).find? Prod.snd).map (·.1.value) =
        (arguments.find? test).map Argument.value := by
    intro test
    have hzip := List.zip_map' (f := id) (g := test) (l := arguments)
    rw [List.map_id] at hzip
    rw [hzip, List.find?_map, Option.map_map]
    rfl
  unfold state? Argument.isState stateBindings stateWith?
  rcases method.typeArguments with _ | ⟨type, _ | ⟨second, rest⟩⟩
  · rfl
  · simp only [List.any_map, hfind, Function.id_comp]
    split <;> rfl
  · rfl

theorem stateWith?_present (table : WellKnown) (arguments : List Argument)
    (bindings : List Bool) :
    stateWith? (table.present p) (arguments.map (Argument.present p)) bindings =
      (stateWith? table arguments bindings).map (Operation.presentValue p) := by
  have hframework : (fun argument : Argument => !argument.hasFrameworkRole (table.present p)) ∘
      Argument.present p = fun argument => !argument.hasFrameworkRole table := by
    funext argument
    exact congrArg (!·) (hasFrameworkRole_present p table argument)
  have hvalue : Argument.value ∘ Argument.present p =
      Operation.presentValue p ∘ Argument.value := by
    funext argument
    exact Argument.value_present p argument
  simp only [stateWith?, List.zip_map_left, List.find?_map, hframework]
  split
  · rw [Option.map_map, Option.map_map]
    congr 1
    funext entry
    exact Argument.value_present p entry.1
  · rw [Option.map_map, Option.map_map, hvalue]

/-- With the display texts kept, types are equal after presentation only if they were before. -/
theorem stateBindings_present {p : Presentation} (hkeeps : p.keepsDisplays = true)
    (method : MethodRef) (arguments : List Argument) :
    stateBindings (method.present p) (arguments.map (Argument.present p)) =
      stateBindings method arguments := by
  unfold stateBindings
  simp only [MethodRef.present]
  rcases method.typeArguments with _ | ⟨type, _ | ⟨second, rest⟩⟩
  · rfl
  · show (arguments.map (Argument.present p)).map _ = arguments.map _
    rw [List.map_map]
    congr 1
    funext argument
    rw [Function.comp_apply, Argument.isBoundTo_present]
    congr 1
    funext bound
    rw [Bool.eq_iff_iff, beq_iff_eq, beq_iff_eq]
    exact ⟨TypeRef.present_injective hkeeps bound type, congrArg (TypeRef.present p)⟩
  · rfl

theorem state?_present {p : Presentation} (hkeeps : p.keepsDisplays = true) (table : WellKnown)
    (method : MethodRef) (arguments : List Argument) :
    state? (table.present p) (method.present p) (arguments.map (Argument.present p)) =
      (state? table method arguments).map (Operation.presentValue p) := by
  rw [state?_eq, stateBindings_present hkeeps, stateWith?_present, ← state?_eq]

end Analysis

/-! ## Contents -/

/-- A content with the type texts that are shown. -/
def Content.present (content : Content) : Content :=
  { content with parameters := content.parameters.map (Parameter.present p) }

theorem Content.ofValues_presentValue (template : Option String) (values : Operation) :
    ofValues template (values.presentValue p) = (ofValues template values).present p := by
  rw [ofValues, ArrayLiteral.extract_present]
  rfl

theorem Content.ofState_presentValue (template : Option String) (table : WellKnown)
    (state : Operation) :
    ofState template (.ofState (table.present p) (state.presentValue p)) =
      (ofState template (.ofState table state)).present p := by
  simp only [StateReading.ofState, Outcome.ofState?_present, Operation.unwrap_presentValue,
    Operation.constantString?_present]
  cases Outcome.ofState? table state with
  | some outcome => rfl
  | none => cases state.unwrap.constantString? <;> rfl

/-- The content of a log call with a given state, which counts only if the method takes one. -/
def LogCall.contentWith (table : WellKnown) (call : Invocation) (state : Option Operation) :
    Content :=
  let template := Analysis.template? table call.arguments
  match Analysis.values? call.arguments with
  | some values => .ofValues template values
  | none =>
    match if takesState table call.method then state else none with
    | some state => .ofState template (.ofState table state)
    | none => .ofTemplate template

theorem LogCall.takesState_present (table : WellKnown) (method : MethodRef) :
    takesState (table.present p) (method.present p) = takesState table method := by
  simp only [takesState, WellKnown.present, MethodRef.present, Option.isSome_map,
    p.map_handle_beq]

theorem LogCall.contentWith_present (table : WellKnown) (call : Invocation)
    (state : Option Operation) :
    contentWith (table.present p) (call.present p) (state.map (Operation.presentValue p)) =
      (contentWith table call state).present p := by
  simp only [contentWith, Invocation.arguments_present, Invocation.method_present,
    Analysis.template?_present, Analysis.values?_present, takesState_present]
  cases Analysis.values? call.arguments with
  | some values => exact Content.ofValues_presentValue p _ values
  | none =>
    cases takesState table call.method with
    | false => rfl
    | true =>
      cases state with
      | none => rfl
      | some state => exact Content.ofState_presentValue p _ table state

theorem MessageFactory.content_present (table : WellKnown) (call : Invocation) :
    content (table.present p) (call.present p) = (content table call).present p := by
  simp only [content, Invocation.arguments_present, Invocation.method_present,
    Analysis.template?_present, TypeArguments.extract_present]
  rfl

/-- The content of the start of a scope with a given state. -/
def Scope.contentWith? (table : WellKnown) (call : Invocation) (state : Option Operation) :
    Option Content :=
  if startsWithState table call then some ((state.map (.ofState table)).elim {} (.ofState none))
  else if startsWithTemplate table call then some (templateContent table call)
  else none

theorem Scope.templateContent_present (table : WellKnown) (call : Invocation) :
    templateContent (table.present p) (call.present p) =
      (templateContent table call).present p := by
  simp only [templateContent, Invocation.arguments_present, Analysis.template?_present,
    Analysis.values?_present]
  cases Analysis.values? call.arguments with
  | some values => exact Content.ofValues_presentValue p _ values
  | none => rfl

theorem Scope.contentWith?_present (table : WellKnown) (call : Invocation)
    (state : Option Operation) :
    contentWith? (table.present p) (call.present p) (state.map (Operation.presentValue p)) =
      (contentWith? table call state).map (Content.present p) := by
  have hstate : startsWithState (table.present p) (call.present p) = startsWithState table call :=
    call.contains_definition_present p table.scopeMethods
  have htemplate : startsWithTemplate (table.present p) (call.present p) =
      startsWithTemplate table call :=
    call.contains_definition_present p table.scopeExtensionMethods
  simp only [contentWith?, hstate, htemplate, templateContent_present]
  split
  · cases state with
    | none => rfl
    | some state => exact congrArg some (Content.ofState_presentValue p none table state)
  · split <;> rfl

/-! ## Records -/

/-- A record as it is presented. -/
def UsageRecord.present (record : UsageRecord) : UsageRecord :=
  { record with
    eventId := record.eventId.map (EventId.present p)
    parameters := record.parameters.map (Parameter.present p) }

/-- The record of a log call with a given state. -/
def LogCall.recordWith? (table : WellKnown) (path : String) (site : CallSite)
    (state : Option Operation) : Option UsageRecord :=
  let call := site.invocation
  (table.severitySource? call.method.definition).map fun source =>
    (contentWith table call state).record .logMethod call.method.name
      (severity? table source call.arguments) (EventId.resolve table call.arguments).eventId?
      (.ofSpan path site.span)

theorem LogCall.record?_eq (table : WellKnown) (path : String) (site : CallSite) :
    record? table path site = recordWith? table path site
      (Analysis.state? table site.invocation.method site.invocation.arguments) := rfl

theorem LogCall.recordWith?_present (table : WellKnown) (path : String) (site : CallSite)
    (state : Option Operation) :
    recordWith? (table.present p) path (site.present p) (state.map (Operation.presentValue p)) =
      (recordWith? table path site state).map (UsageRecord.present p) := by
  have hseverity : ∀ source, severity? (table.present p) source
      (site.invocation.arguments.map (Argument.present p)) =
        severity? table source site.invocation.arguments := by
    intro source
    cases source with
    | fixed severity => rfl
    | argument => exact Analysis.severity?_present p table _
  simp only [recordWith?, CallSite.present, contentWith_present, Invocation.method_present,
    Invocation.arguments_present, MethodRef.definition_present, WellKnown.severitySource?_present,
    hseverity, EventId.resolve_present, EventIdResolution.eventId?_present]
  cases table.severitySource? site.invocation.method.definition <;> rfl

/-- The record of the start of a scope with a given state. -/
def Scope.recordWith? (table : WellKnown) (path : String) (site : CallSite)
    (state : Option Operation) : Option UsageRecord :=
  (contentWith? table site.invocation state).map fun content =>
    content.record .beginScope site.invocation.method.name none none (.ofSpan path site.span)

theorem Scope.record?_eq (table : WellKnown) (path : String) (site : CallSite) :
    record? table path site = recordWith? table path site
      (Analysis.state? table site.invocation.method site.invocation.arguments) := rfl

theorem Scope.recordWith?_present (table : WellKnown) (path : String) (site : CallSite)
    (state : Option Operation) :
    recordWith? (table.present p) path (site.present p) (state.map (Operation.presentValue p)) =
      (recordWith? table path site state).map (UsageRecord.present p) := by
  simp only [recordWith?, CallSite.present, contentWith?_present, Invocation.method_present]
  cases contentWith? table site.invocation state <;> rfl

theorem MessageFactory.record?_present (table : WellKnown) (path : String) (site : CallSite) :
    record? (table.present p) path (site.present p) =
      (record? table path site).map (UsageRecord.present p) := by
  have hscope : buildsScope (table.present p) (site.invocation.present p) =
      buildsScope table site.invocation :=
    site.invocation.contains_definition_present p table.defineScopeMethods
  have hmessage : buildsMessage (table.present p) (site.invocation.present p) =
      buildsMessage table site.invocation :=
    site.invocation.contains_definition_present p table.defineMethods
  simp only [record?, CallSite.present, hscope, hmessage, content_present,
    Invocation.arguments_present, Analysis.severity?_present, EventId.resolve_present,
    EventIdResolution.eventId?_present, Invocation.method_present]
  split
  · rfl
  · split <;> rfl

namespace MessageMethod

theorem constant?_present (applied : Attribute) (name : String) :
    constant? (applied.present p) name = constant? applied name := by
  rw [constant?, Attribute.argument?_present, constant?]
  cases applied.argument? name <;> rfl

/-- The identifier of an attribute is made of constants, which every presentation keeps. -/
theorem eventId?_present (applied : Attribute) :
    eventId? (applied.present p) = (eventId? applied).map (EventId.present p) := by
  have hpart : ∀ value, (eventPart value).present p = eventPart value := by
    intro value
    cases value with
    | none => rfl
    | some value =>
      simp only [eventPart]
      split <;> rfl
  simp only [eventId?, constant?_present]
  cases constant? applied "eventId" with
  | none =>
    cases constant? applied "eventName" with
    | none => rfl
    | some name => simp only [Option.map_some, EventId.present, hpart]
  | some id => simp only [Option.map_some, EventId.present, hpart]

theorem applied?_present (table : WellKnown) (declaration : MethodDeclaration) :
    applied? (table.present p) (declaration.present p) =
      (applied? table declaration).map (Attribute.present p) := by
  unfold applied?
  simp only [WellKnown.present, MethodDeclaration.present]
  cases table.loggerMessageAttribute with
  | none => rfl
  | some type =>
    simp only [Option.map_some, Option.bind_eq_bind, Option.bind_some, Attribute.find?_present]

theorem record?_present (table : WellKnown) (path : String) (declaration : MethodDeclaration) :
    record? (table.present p) path (declaration.present p) =
      (record? table path declaration).map (UsageRecord.present p) := by
  simp only [record?, applied?_present]
  cases applied? table declaration with
  | none => rfl
  | some applied =>
    simp only [Option.map_some, template?, severity?, constant?_present, eventId?_present]
    simp only [MethodDeclaration.present, MethodSignature.extract_present]
    rfl

end MessageMethod

/-! ## Files -/

section

variable {p : Presentation} (hkeeps : p.keepsDisplays = true)
include hkeeps

theorem EventPart.present_of_keepsDisplays (part : EventPart) : part.present p = part := by
  cases part with
  | reference kind name =>
    cases kind with
    | other => rw [present, Presentation.shown_of_keepsDisplays hkeeps]
    | _ => rfl
  | _ => rfl

theorem EventId.present_of_keepsDisplays (eventId : EventId) : eventId.present p = eventId := by
  cases eventId with
  | details id name => simp only [present, EventPart.present_of_keepsDisplays hkeeps]
  | reference kind name => rfl

/-- Of a presentation a record shows display texts only. -/
theorem UsageRecord.present_of_keepsDisplays (record : UsageRecord) :
    record.present p = record := by
  have hevent : EventId.present p = id := funext (EventId.present_of_keepsDisplays hkeeps)
  have hparameter : Parameter.present p = id := by
    funext parameter
    rw [Parameter.present, Presentation.shown_of_keepsDisplays hkeeps]
    rfl
  rw [present, hevent, hparameter, Option.map_id, List.map_id]
  rfl

/-- With the display texts kept, a file has the same records in every presentation. -/
theorem analyzeFile_present (table : WellKnown) (file : SourceFile) :
    analyzeFile Analyzer.all (table.present p) (file.present p) =
      analyzeFile Analyzer.all table file := by
  have hrecord : ∀ record? : Option UsageRecord, record?.map (UsageRecord.present p) = record? := by
    intro record?
    rw [funext (UsageRecord.present_of_keepsDisplays hkeeps), Option.map_id']
  have hlog : LogCall.record? (table.present p) file.path ∘ CallSite.present p =
      LogCall.record? table file.path := by
    funext site
    rw [Function.comp_apply, LogCall.record?_eq, LogCall.record?_eq, CallSite.present,
      Invocation.method_present, Invocation.arguments_present, Analysis.state?_present hkeeps]
    exact (LogCall.recordWith?_present p table file.path site _).trans (hrecord _)
  have hscope : Scope.record? (table.present p) file.path ∘ CallSite.present p =
      Scope.record? table file.path := by
    funext site
    rw [Function.comp_apply, Scope.record?_eq, Scope.record?_eq, CallSite.present,
      Invocation.method_present, Invocation.arguments_present, Analysis.state?_present hkeeps]
    exact (Scope.recordWith?_present p table file.path site _).trans (hrecord _)
  have hfactory : MessageFactory.record? (table.present p) file.path ∘ CallSite.present p =
      MessageFactory.record? table file.path := by
    funext site
    exact (MessageFactory.record?_present p table file.path site).trans (hrecord _)
  have hmethod : MessageMethod.record? (table.present p) file.path ∘ MethodDeclaration.present p =
      MessageMethod.record? table file.path := by
    funext declaration
    exact (MessageMethod.record?_present p table file.path declaration).trans (hrecord _)
  simp only [analyzeFile_all, LogCall.records, MessageMethod.records, MessageFactory.records,
    Scope.records, SourceFile.present, List.filterMap_map, hlog, hscope, hfactory, hmethod]

end

end LogCensus
