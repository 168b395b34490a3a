import LogCensus.Analysis.Analyzer

/-!
# The records of a file

The four analyzers run over a file one after the other. Here a record of the whole list is led back
to the call or declaration it was made for, and to the content that was found there.

* `analyzeFile_all`: the list is the lists of the analyzers, one behind the other.
* `LogCall.of_record?` and its companions: what a record of each analyzer says.
* `Content.Found`: the ways in which content is found.
* `describes_of_mem_analyzeFile`: what every record of a file says.
-/

namespace LogCensus

/-- The content that a record was made from. -/
def UsageRecord.content (record : UsageRecord) : Content :=
  ⟨record.messageTemplate, record.parameters, record.extraction⟩

/-- A record of the given kind for a method at a place. -/
structure UsageRecord.Describes (record : UsageRecord) (kind : CallKind) (method : MethodRef)
    (location : Location) : Prop where
  kind_eq : record.kind = kind
  methodName_eq : record.methodName = method.name
  location_eq : record.location = location

theorem Content.describes_record (content : Content) (kind : CallKind) (method : MethodRef)
    (severity : Option Severity) (eventId : Option EventId) (location : Location) :
    (content.record kind method.name severity eventId location).Describes kind method location :=
  ⟨rfl, rfl, rfl⟩

theorem analyzeFile_all (table : WellKnown) (file : SourceFile) :
    analyzeFile Analyzer.all table file =
      LogCall.records table file ++ MessageMethod.records table file ++
        MessageFactory.records table file ++ Scope.records table file := by
  simp only [analyzeFile, Analyzer.all, List.flatMap_cons, List.flatMap_nil, List.append_nil,
    List.append_assoc]
  rfl

/-! ## What the values are read as -/

theorem ArrayLiteral.strategy_extract (argument : Operation) (names : List String) :
    (ArrayLiteral.extract argument names).strategy = .arrayLiteral := by
  unfold ArrayLiteral.extract
  split <;> rfl

theorem KeyValue.strategy_extract (table : WellKnown) (argument : Operation) :
    (KeyValue.extract table argument).strategy = .keyValueCollection := by
  unfold KeyValue.extract
  split <;> rfl

theorem AnonymousObject.strategy_extract (argument : Operation) :
    (AnonymousObject.extract argument).strategy = .anonymousObject := by
  unfold AnonymousObject.extract
  split <;> rfl

/-- The values of a state are the pairs of a collection or the members of an anonymous object. -/
theorem StateReading.strategy_of_values {table : WellKnown} {state : Operation} {outcome : Outcome}
    (h : StateReading.ofState table state = .values outcome) :
    outcome.strategy = .keyValueCollection ∨ outcome.strategy = .anonymousObject := by
  unfold StateReading.ofState at h
  split at h
  · next found hfound =>
    cases h
    simp only [Outcome.ofState?] at hfound
    split at hfound
    · cases hfound
      exact .inl (KeyValue.strategy_extract table state)
    · split at hfound
      · cases hfound
        exact .inr (AnonymousObject.strategy_extract state)
      · cases hfound
  · split at h <;> cases h

/-! ## What the content of a call is made of -/

/-- The ways in which the content of a record is found. -/
inductive Content.Found (table : WellKnown) : Content → Prop
  | values (template : Option String) (values : Operation) : Found table (.ofValues template values)
  | state (template : Option String) (state : Operation) :
      Found table (.ofState template (.ofState table state))
  | template (template : Option String) : Found table (.ofTemplate template)
  | signature (template : Option String) (method : MethodRef) :
      Found table (.ofOutcome template
        (MethodSignature.extract table method (placeholders template)))
  | typeArguments (template : Option String) (method : MethodRef) :
      Found table (.ofOutcome template (TypeArguments.extract method (placeholders template)))
  /-- A scope without a state. -/
  | nothing : Found table {}

theorem LogCall.found_content (table : WellKnown) (call : Invocation) :
    (LogCall.content table call).Found table := by
  simp only [LogCall.content]
  split
  · next values _ => exact .values _ values
  · split
    · next state _ => exact .state _ state
    · exact .template _

theorem Scope.found_content {table : WellKnown} {call : Invocation} {content : Content}
    (h : Scope.content? table call = some content) : content.Found table := by
  unfold Scope.content? at h
  split at h
  · cases h
    unfold Scope.stateContent Scope.reading?
    cases Analysis.state? table call.method call.arguments with
    | none => exact .nothing
    | some state => exact .state none state
  · split at h
    · cases h
      simp only [Scope.templateContent]
      split
      · next values _ => exact .values _ values
      · exact .template _
    · cases h

/-! ## What a record of each analyzer says -/

section

variable {table : WellKnown} {path : String} {site : CallSite} {record : UsageRecord}

theorem LogCall.of_record? (h : LogCall.record? table path site = some record) :
    record.Describes .logMethod site.invocation.method (.ofSpan path site.span) ∧
      record.content = LogCall.content table site.invocation := by
  obtain ⟨source, -, rfl⟩ := Option.map_eq_some_iff.mp h
  exact ⟨Content.describes_record .., rfl⟩

theorem MessageMethod.of_record? {declaration : MethodDeclaration}
    (h : MessageMethod.record? table path declaration = some record) :
    record.Describes .messageAttribute declaration.method (.ofSpan path declaration.span) ∧
      ∃ template, record.content = .ofOutcome template
        (MethodSignature.extract table declaration.method (placeholders template)) := by
  obtain ⟨applied, -, rfl⟩ := Option.map_eq_some_iff.mp h
  exact ⟨Content.describes_record .., template? applied, rfl⟩

theorem MessageFactory.of_record? (h : MessageFactory.record? table path site = some record) :
    record.Describes .messageDefine site.invocation.method (.ofSpan path site.span) ∧
      record.content = MessageFactory.content table site.invocation := by
  simp only [MessageFactory.record?] at h
  split at h
  · cases h
    exact ⟨Content.describes_record .., rfl⟩
  · split at h
    · cases h
      exact ⟨Content.describes_record .., rfl⟩
    · cases h

theorem Scope.of_record? (h : Scope.record? table path site = some record) :
    record.Describes .beginScope site.invocation.method (.ofSpan path site.span) ∧
      Scope.content? table site.invocation = some record.content := by
  obtain ⟨content, hcontent, rfl⟩ := Option.map_eq_some_iff.mp h
  exact ⟨Content.describes_record .., hcontent⟩

end

/-- Every record of a file describes a method at a place in that file, and its content was found in
one of the ways there are. -/
theorem describes_of_mem_analyzeFile {table : WellKnown} {file : SourceFile} {record : UsageRecord}
    (hmem : record ∈ analyzeFile Analyzer.all table file) :
    (∃ kind method span, record.Describes kind method (.ofSpan file.path span)) ∧
      record.content.Found table := by
  simp only [analyzeFile_all, List.mem_append, LogCall.records, MessageMethod.records,
    MessageFactory.records, Scope.records, List.mem_filterMap] at hmem
  rcases hmem with ((⟨site, -, hsite⟩ | ⟨declaration, -, hdeclared⟩) | ⟨site, -, hsite⟩) |
    ⟨site, -, hsite⟩
  · -- a log call
    obtain ⟨hdescribes, hcontent⟩ := LogCall.of_record? hsite
    exact ⟨⟨_, _, _, hdescribes⟩, hcontent ▸ LogCall.found_content table site.invocation⟩
  · -- a declared message method
    obtain ⟨hdescribes, template, hcontent⟩ := MessageMethod.of_record? hdeclared
    exact ⟨⟨_, _, _, hdescribes⟩, hcontent ▸ .signature template declaration.method⟩
  · -- a call of the message factory
    obtain ⟨hdescribes, hcontent⟩ := MessageFactory.of_record? hsite
    exact ⟨⟨_, _, _, hdescribes⟩, hcontent ▸ .typeArguments _ site.invocation.method⟩
  · -- the start of a scope
    obtain ⟨hdescribes, hcontent⟩ := Scope.of_record? hsite
    exact ⟨⟨_, _, _, hdescribes⟩, Scope.found_content hcontent⟩

/-- The records of a file lie in that file. -/
theorem filePath_of_mem_analyzeFile {table : WellKnown} {file : SourceFile} {record : UsageRecord}
    (hmem : record ∈ analyzeFile Analyzer.all table file) :
    record.location.filePath = file.path := by
  obtain ⟨⟨kind, method, span, hdescribes⟩, -⟩ := describes_of_mem_analyzeFile hmem
  rw [hdescribes.location_eq]
  rfl

/-! ## A small project -/

/-- The symbol table of a small project, at which the statements about records are tried. -/
def smallCompilation : Compilation where
  types :=
    [{ metadataName := WellKnown.loggerName, id := ⟨1⟩
       members := [⟨"Log", ⟨11⟩⟩, ⟨"BeginScope", ⟨12⟩⟩] },
     { metadataName := WellKnown.loggerExtensionsName, id := ⟨2⟩
       members := [⟨"LogInformation", ⟨21⟩⟩, ⟨"BeginScope", ⟨22⟩⟩] },
     { metadataName := WellKnown.loggerMessageName, id := ⟨3⟩
       members := [⟨"Define", ⟨31⟩⟩] },
     { metadataName := WellKnown.loggerMessageAttributeName, id := ⟨4⟩ },
     { metadataName := WellKnown.stringName, id := ⟨5⟩ }]

/-- An argument bound to a parameter of the given type. -/
def argumentOf (type : TypeRef) (value : Operation) : Argument where
  parameter := some { name := "p", type := type }
  value := value

end LogCensus
