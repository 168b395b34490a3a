import LogCensus.Proofs.Analysis.StatePaths
import LogCensus.Proofs.Reordering

/-!
# The order of arguments

The arguments of a call may be passed by name, in any order. Each argument that matters is found by
a search of its own, for the template, the severity, the event identifier, the values and the state,
and each search stops at the first argument it accepts. So a call keeps its record in every order of
its arguments as long as no search has a choice.

* `Invocation.ReadsAs`: all searches among the arguments of two calls find the same.
* `Invocation.HasClearRoles`: no search among the arguments has a choice.
* `Invocation.HasClearRoles.readsAs`: then every order of the arguments is read alike.
* `records_unaffected_by_argument_order`: the records of a file.
-/

namespace LogCensus

/-! ## What a record depends on -/

/-- Whether a call is one of the logger itself, which takes a state: by the type that contains its
method, or by the scope methods that the logger declares. -/
def Invocation.isOnLogger (table : WellKnown) (call : Invocation) : Bool :=
  LogCall.takesState table call.method || Scope.startsWithState table call

/-- Two calls of one method among whose arguments all searches find the same. -/
structure Invocation.ReadsAs (table : WellKnown) (call call' : Invocation) : Prop where
  method_eq : call.method = call'.method
  template_eq : Analysis.template? table call.arguments = Analysis.template? table call'.arguments
  severity_eq : Analysis.severity? table call.arguments = Analysis.severity? table call'.arguments
  eventId_eq : EventId.resolve table call.arguments = EventId.resolve table call'.arguments
  values_eq : Analysis.values? call.arguments = Analysis.values? call'.arguments
  /-- Only calls of the logger itself are searched for a state. -/
  state_eq : call.isOnLogger table = true →
    Analysis.state? table call.method call.arguments =
      Analysis.state? table call'.method call'.arguments

namespace Invocation.ReadsAs

variable {table : WellKnown} {call call' : Invocation} (h : call.ReadsAs table call')

include h

theorem logCall_severity?_eq (source : SeveritySource) :
    LogCall.severity? table source call.arguments =
      LogCall.severity? table source call'.arguments := by
  cases source with
  | fixed severity => rfl
  | argument => exact h.severity_eq

theorem logCall_content_eq : LogCall.content table call = LogCall.content table call' := by
  have hstate : (if LogCall.takesState table call.method then
        Analysis.state? table call.method call.arguments else none) =
      if LogCall.takesState table call'.method then
        Analysis.state? table call'.method call'.arguments else none := by
    rw [← h.method_eq]
    split
    · next htakes =>
      have hsame := h.state_eq (Bool.or_eq_true_iff.mpr (.inl htakes))
      rwa [← h.method_eq] at hsame
    · rfl
  simp only [LogCall.content, h.template_eq, h.values_eq, hstate]

theorem messageFactory_content_eq :
    MessageFactory.content table call = MessageFactory.content table call' := by
  simp only [MessageFactory.content, h.template_eq, h.method_eq]

theorem scope_content?_eq : Scope.content? table call = Scope.content? table call' := by
  have hmethod : Scope.startsWithState table call' = Scope.startsWithState table call := by
    rw [Scope.startsWithState, Scope.startsWithState, h.method_eq]
  have htemplate : Scope.startsWithTemplate table call' = Scope.startsWithTemplate table call := by
    rw [Scope.startsWithTemplate, Scope.startsWithTemplate, h.method_eq]
  unfold Scope.content?
  rw [hmethod, htemplate]
  split
  · next hstarts =>
    have hstate := h.state_eq (Bool.or_eq_true_iff.mpr (.inr hstarts))
    simp only [Scope.stateContent, Scope.reading?, hstate]
  · simp only [Scope.templateContent, h.template_eq, h.values_eq]

end Invocation.ReadsAs

/-- Two call sites on the same lines whose calls are read alike. -/
structure CallSite.ReadsAs (table : WellKnown) (site site' : CallSite) : Prop where
  span_eq : site.span = site'.span
  invocation : site.invocation.ReadsAs table site'.invocation

namespace CallSite.ReadsAs

variable {table : WellKnown} {site site' : CallSite} (h : site.ReadsAs table site') (path : String)

include h

theorem logCall_record?_eq :
    LogCall.record? table path site = LogCall.record? table path site' := by
  simp only [LogCall.record?, h.span_eq, h.invocation.method_eq, h.invocation.eventId_eq,
    h.invocation.logCall_content_eq, h.invocation.logCall_severity?_eq]

theorem messageFactory_record?_eq :
    MessageFactory.record? table path site = MessageFactory.record? table path site' := by
  have hscope : MessageFactory.buildsScope table site.invocation =
      MessageFactory.buildsScope table site'.invocation := by
    rw [MessageFactory.buildsScope, MessageFactory.buildsScope, h.invocation.method_eq]
  have hmessage : MessageFactory.buildsMessage table site.invocation =
      MessageFactory.buildsMessage table site'.invocation := by
    rw [MessageFactory.buildsMessage, MessageFactory.buildsMessage, h.invocation.method_eq]
  dsimp only [MessageFactory.record?]
  rw [hscope, hmessage, h.span_eq, h.invocation.method_eq, h.invocation.severity_eq,
    h.invocation.eventId_eq, h.invocation.messageFactory_content_eq]

theorem scope_record?_eq : Scope.record? table path site = Scope.record? table path site' := by
  simp only [Scope.record?, h.span_eq, h.invocation.method_eq, h.invocation.scope_content?_eq]

end CallSite.ReadsAs

/-- Call sites that are read alike one by one have the same records. -/
theorem analyzeFile_eq_of_readsAs {table : WellKnown} {sites sites' : List CallSite}
    (h : List.Forall₂ (CallSite.ReadsAs table) sites sites') (path : String)
    (methods : List MethodDeclaration) :
    analyzeFile Analyzer.all table ⟨path, sites, methods⟩ =
      analyzeFile Analyzer.all table ⟨path, sites', methods⟩ := by
  have hrecords : ∀ record? : CallSite → Option UsageRecord,
      (∀ site site', site.ReadsAs table site' → record? site = record? site') →
        sites.filterMap record? = sites'.filterMap record? := by
    intro record? hrecord?
    induction h with
    | nil => rfl
    | cons hsite _ ih => rw [List.filterMap_cons, List.filterMap_cons, hrecord? _ _ hsite, ih]
  rw [analyzeFile_all, analyzeFile_all]
  simp only [LogCall.records, MessageMethod.records, MessageFactory.records, Scope.records,
    hrecords (LogCall.record? table path) fun _ _ hsite => hsite.logCall_record?_eq path,
    hrecords (MessageFactory.record? table path) fun _ _ hsite =>
      hsite.messageFactory_record?_eq path,
    hrecords (Scope.record? table path) fun _ _ hsite => hsite.scope_record?_eq path]

/-! ## Clear roles -/

/-- Whether an argument is bound to a given type. -/
def Argument.hasType (type : TypeRef) (argument : Argument) : Bool :=
  argument.isBoundTo fun bound => bound == type

/-- A call whose arguments leave no choice of a state: exactly one has the type that the method is
constructed for; or none has, and at most one is neither logger, severity, event identifier nor
exception. -/
def Invocation.HasClearState (table : WellKnown) (call : Invocation) : Prop :=
  (∃ type, call.method.typeArguments = [type] ∧
    call.arguments.countP (Argument.hasType type) = 1) ∨
  ((∀ type, call.method.typeArguments = [type] →
      call.arguments.countP (Argument.hasType type) = 0) ∧
    (call.arguments.countP fun argument => !argument.hasFrameworkRole table) ≤ 1)

/-- A call in which no role can be taken by two arguments. The state matters only in calls of the
logger itself. -/
structure Invocation.HasClearRoles (table : WellKnown) (call : Invocation) : Prop where
  one_template : (call.arguments.countP fun argument => argument.isBoundTo table.isString) ≤ 1
  one_severity : (call.arguments.countP fun argument => argument.isBoundTo table.isLogLevel) ≤ 1
  one_eventId : (call.arguments.countP fun argument => argument.isBoundTo table.isEventId) ≤ 1
  one_values : call.arguments.countP Argument.isValueArray ≤ 1
  clear_state : call.isOnLogger table = true → call.HasClearState table

section

variable {table : WellKnown} {method : MethodRef} {arguments arguments' : List Argument}

/-- The test for the state does not depend on the order of the arguments. -/
theorem Argument.isState_perm (hperm : arguments.Perm arguments') :
    isState table method arguments = isState table method arguments' := by
  unfold isState
  split
  · simp only [hperm.any_eq]
  · rfl

theorem Argument.isState_of_any {type : TypeRef} (htype : method.typeArguments = [type])
    (hany : arguments.any (hasType type) = true) :
    isState table method arguments = hasType type := by
  unfold isState
  rw [htype]
  exact if_pos hany

theorem Argument.isState_of_none
    (hnone : ∀ type, method.typeArguments = [type] → arguments.any (hasType type) = false) :
    isState table method arguments = fun argument => !argument.hasFrameworkRole table := by
  unfold isState
  split
  · next type htype => exact if_neg (ne_true_of_eq_false (hnone type htype))
  · rfl

end

namespace Invocation

variable {table : WellKnown} {call : Invocation} {arguments' : List Argument}

/-- When there is no choice of a state, at most one argument passes the test for it. -/
theorem HasClearState.one_state (h : call.HasClearState table) :
    call.arguments.countP (Argument.isState table call.method call.arguments) ≤ 1 := by
  rcases h with ⟨type, htype, hone⟩ | ⟨hnone, hother⟩
  · have hany : call.arguments.any (Argument.hasType type) = true := by
      rw [List.any_eq_true, ← List.countP_pos_iff, hone]
      exact Nat.one_pos
    rw [Argument.isState_of_any htype hany]
    exact Nat.le_of_eq hone
  · have hany : ∀ type, call.method.typeArguments = [type] →
        call.arguments.any (Argument.hasType type) = false := by
      intro type htype
      rw [List.any_eq_false]
      exact List.countP_eq_zero.mp (hnone type htype)
    rwa [Argument.isState_of_none hany]

/-- Calls with clear roles are read alike in every order of their arguments. -/
theorem HasClearRoles.readsAs (h : call.HasClearRoles table)
    (hperm : call.arguments.Perm arguments') :
    call.ReadsAs table { call with arguments := arguments' } where
  method_eq := rfl
  template_eq := by
    simp only [Analysis.template?, find?_eq_of_perm hperm h.one_template]
  severity_eq := by
    simp only [Analysis.severity?, find?_eq_of_perm hperm h.one_severity]
  eventId_eq := by
    simp only [EventId.resolve, find?_eq_of_perm hperm h.one_eventId]
  values_eq := by
    simp only [Analysis.values?, find?_eq_of_perm hperm h.one_values]
  state_eq hlogger := by
    have hone := (h.clear_state hlogger).one_state
    simp only [Analysis.state?, ← Argument.isState_perm hperm, find?_eq_of_perm hperm hone]

theorem ReadsAs.refl (table : WellKnown) (call : Invocation) : call.ReadsAs table call :=
  ⟨rfl, rfl, rfl, rfl, rfl, fun _ => rfl⟩

end Invocation

/-! ## The records of a file -/

/-- A call site as it is; or, when its arguments have clear roles, the same with the arguments in
another order, each bound to its own parameter. -/
inductive CallSite.Reordered (table : WellKnown) : CallSite → CallSite → Prop where
  | kept (site : CallSite) : Reordered table site site
  | permuted (span : LineSpan) {call : Invocation} {arguments' : List Argument}
      (roles : call.HasClearRoles table) (perm : call.arguments.Perm arguments') :
      Reordered table ⟨span, call⟩ ⟨span, { call with arguments := arguments' }⟩

theorem CallSite.Reordered.readsAs {table : WellKnown} {site site' : CallSite}
    (h : site.Reordered table site') : site.ReadsAs table site' := by
  cases h with
  | kept => exact ⟨rfl, .refl table _⟩
  | permuted span roles perm => exact ⟨rfl, roles.readsAs perm⟩

/-- Arguments are told apart by type and not by position. In any calls of a file in which no role
can be taken by two arguments, the arguments may be put in another order: the records of the file
are the same. -/
theorem records_unaffected_by_argument_order (table : WellKnown) {sites sites' : List CallSite}
    (h : List.Forall₂ (CallSite.Reordered table) sites sites') (path : String)
    (methods : List MethodDeclaration) :
    analyzeFile Analyzer.all table ⟨path, sites, methods⟩ =
      analyzeFile Analyzer.all table ⟨path, sites', methods⟩ :=
  analyzeFile_eq_of_readsAs (h.imp fun _ _ hsite => hsite.readsAs) path methods

/-- The symbol table of a small project that also knows severities, event identifiers and
exceptions. -/
def rolesCompilation : Compilation where
  types := smallCompilation.types ++
    [{ metadataName := WellKnown.logLevelName, id := ⟨6⟩ },
     { metadataName := WellKnown.eventIdName, id := ⟨7⟩ },
     { metadataName := WellKnown.exceptionName, id := ⟨8⟩ }]

def loginEvent : Argument :=
  argumentOf { symbol := some ⟨7⟩, display := "EventId" }
    { type := some { symbol := some ⟨7⟩, display := "EventId" }
      shape := .fieldReference "Login" none }

def loginState : Argument :=
  argumentOf { display := "LoginState" }
    { shape := .anonymousObjectCreation [⟨"UserId", { shape := .literal }⟩] }

/-- A log method of the logger, with all five arguments. -/
def stateLog : Invocation where
  method :=
    { symbol := ⟨90⟩, genericDefinition := some ⟨11⟩, name := "Log"
      containingType := some ⟨1⟩, typeArguments := [{ display := "LoginState" }] }
  arguments :=
    [argumentOf { symbol := some ⟨6⟩, display := "LogLevel" }
      { constant := some (.int 2), shape := .literal },
     loginEvent,
     loginState,
     argumentOf { symbol := some ⟨8⟩, display := "Exception" } { shape := .literal },
     argumentOf { display := "Func" } { shape := .parameterReference "formatter" }]

/-- A log method with a template and one value. -/
def messageLog : Invocation where
  method := { symbol := ⟨21⟩, name := "LogInformation" }
  arguments :=
    [loginEvent,
     argumentOf { symbol := some ⟨5⟩, display := "string" }
      { constant := some (.string "Found {UserId}"), shape := .literal },
     argumentOf { display := "object[]", elementType := some { display := "object" } }
      { shape := .arrayCreation [{ shape := .parameterReference "id" }] }]

/-- A scope whose method has no type argument, so that the state is what is left. -/
def stateScope : Invocation where
  method := { symbol := ⟨12⟩, name := "BeginScope" }
  arguments :=
    [argumentOf { symbol := some ⟨1⟩, display := "ILogger" }
      { shape := .parameterReference "logger" },
     loginState]

/-- Three calls with all their arguments in reverse. -/
theorem records_unaffected_by_argument_order_reversed :
    let table := WellKnown.resolve rolesCompilation
    let sites : List CallSite := [⟨⟨3, 3⟩, stateLog⟩, ⟨⟨5, 5⟩, messageLog⟩, ⟨⟨7, 7⟩, stateScope⟩]
    let sites' := sites.map fun site =>
      ⟨site.span, { site.invocation with arguments := site.invocation.arguments.reverse }⟩
    List.Forall₂ (CallSite.Reordered table) sites sites' ∧
      analyzeFile Analyzer.all table ⟨"User.cs", sites, []⟩ =
        analyzeFile Analyzer.all table ⟨"User.cs", sites', []⟩ ∧
      (analyzeFile Analyzer.all table ⟨"User.cs", sites, []⟩).map
          (·.extraction.bind ExtractionReport.strategy) =
        [some .anonymousObject, some .arrayLiteral, some .anonymousObject] := by
  intro table sites sites'
  have hstateLog : stateLog.HasClearRoles table :=
    ⟨by decide, by decide, by decide, by decide, fun _ => .inl ⟨_, rfl, by decide⟩⟩
  have hmessageLog : messageLog.HasClearRoles table :=
    ⟨by decide, by decide, by decide, by decide, fun hlogger => absurd hlogger (by decide)⟩
  have hstateScope : stateScope.HasClearRoles table := by
    refine ⟨by decide, by decide, by decide, by decide, fun _ => .inr ⟨?_, by decide⟩⟩
    intro type htype
    cases htype
  have hreversed : ∀ {call : Invocation} (span : LineSpan), call.HasClearRoles table →
      CallSite.Reordered table ⟨span, call⟩
        ⟨span, { call with arguments := call.arguments.reverse }⟩ :=
    fun span hroles => .permuted span hroles (List.reverse_perm _).symm
  have hreordered : List.Forall₂ (CallSite.Reordered table) sites sites' :=
    .cons (hreversed _ hstateLog) (.cons (hreversed _ hmessageLog)
      (.cons (hreversed _ hstateScope) .nil))
  exact ⟨hreordered, records_unaffected_by_argument_order table hreordered "User.cs" [], by decide⟩

end LogCensus
