import LogCensus.Proofs.Analysis.Recognition

/-!
# One state on two paths

The logger takes a state object in two places: its log method takes one among other arguments, and
its scope method takes nothing else. The scope always reads the state itself. A log call first looks
for an argument bound to an array, which in the extension class holds the values of the template;
a state that is an array is taken for such values. So the two paths agree on a state exactly when
its type is not an array.

* `Invocation.PassesState`: a call that passes a state of the type it is constructed for.
* `LogCall.content_of_passesState`, `Scope.content?_of_passesState`: what each path makes of it.
* `state_paths_agree_iff`: when the two paths agree.
-/

namespace LogCensus

/-- A call of a member of the logger itself, constructed for a type of state: one argument passes
the state and is bound to that type, and no other argument is bound to that type or to an array. -/
structure Invocation.PassesState (call : Invocation) (compilation : Compilation) (member : String)
    (type : TypeRef) (state : Operation) : Prop where
  declared : compilation.declares WellKnown.loggerName member call.method.definition = true
  containingType_eq : call.method.containingType = compilation.typeNamed? WellKnown.loggerName
  constructed : call.method.typeArguments = [type]
  bound : ∃ before parameter after,
    call.arguments = before ++ ⟨some parameter, state⟩ :: after ∧ parameter.type = type ∧
      ∀ other ∈ before ++ after, ∀ bound ∈ other.parameter,
        bound.type ≠ type ∧ bound.type.elementType = none

theorem Argument.isBoundTo_eq_false {argument : Argument} {test : TypeRef → Bool}
    (h : ∀ bound ∈ argument.parameter, test bound.type = false) :
    argument.isBoundTo test = false := by
  unfold Argument.isBoundTo
  cases hparameter : argument.parameter with
  | none => rfl
  | some bound => exact h bound (by rw [hparameter]; rfl)

/-- A test that no other argument passes finds the argument with the state, or nothing. -/
theorem find?_isBoundTo (test : TypeRef → Bool) {before after : List Argument}
    (hothers : ∀ other ∈ before ++ after, ∀ bound ∈ other.parameter, test bound.type = false)
    (parameter : ParameterSymbol) (state : Operation) :
    (before ++ ⟨some parameter, state⟩ :: after).find? (fun argument => argument.isBoundTo test) =
      if test parameter.type then some ⟨some parameter, state⟩ else none := by
  have hnone : ∀ {part : List Argument}, (∀ other ∈ part, other ∈ before ++ after) →
      part.find? (fun argument => argument.isBoundTo test) = none := by
    intro part hpart
    rw [List.find?_eq_none]
    intro other hother
    rw [Argument.isBoundTo_eq_false (hothers other (hpart other hother))]
    exact Bool.false_ne_true
  rw [List.find?_append, hnone (fun _ => List.mem_append_left after), Option.none_or,
    List.find?_cons, hnone (fun _ => List.mem_append_right before)]
  show (match test parameter.type with | true => _ | false => _) = _
  cases test parameter.type <;> rfl

section

variable {compilation : Compilation} {member : String} {type : TypeRef} {state : Operation}
  {call : Invocation}

/-- The state is found by its type. -/
theorem Invocation.PassesState.state?_eq (h : call.PassesState compilation member type state)
    (table : WellKnown) : Analysis.state? table call.method call.arguments = some state := by
  obtain ⟨before, parameter, after, harguments, rfl, hothers⟩ := h.bound
  have hfind : call.arguments.find?
      (fun argument => argument.isBoundTo fun bound => bound == parameter.type) =
        some ⟨some parameter, state⟩ := by
    rw [harguments, find?_isBoundTo, if_pos (beq_self_eq_true _)]
    intro other hother bound hbound
    exact beq_false_of_ne (hothers other hother bound hbound).1
  have hany : call.arguments.any
      (fun argument => argument.isBoundTo fun bound => bound == parameter.type) = true := by
    rw [← List.isSome_find?, hfind]
    rfl
  unfold Analysis.state? Argument.isState
  rw [h.constructed]
  simp only [hany, if_true, hfind, Option.map_some]

/-- An array is found among the arguments exactly when the state is one. -/
theorem Invocation.PassesState.values?_eq (h : call.PassesState compilation member type state) :
    Analysis.values? call.arguments = if type.elementType.isSome then some state else none := by
  obtain ⟨before, parameter, after, harguments, rfl, hothers⟩ := h.bound
  have hplain : ∀ other ∈ before ++ after, ∀ bound ∈ other.parameter,
      bound.type.elementType.isSome = false := by
    intro other hother bound hbound
    rw [(hothers other hother bound hbound).2]
    rfl
  have hfind := find?_isBoundTo (fun bound => bound.elementType.isSome) hplain parameter state
  show (call.arguments.find? fun argument =>
    argument.isBoundTo fun bound => bound.elementType.isSome).map Argument.value = _
  rw [harguments, hfind]
  cases parameter.type.elementType.isSome <;> rfl

theorem Invocation.PassesState.takesState (h : call.PassesState compilation member type state) :
    LogCall.takesState (WellKnown.resolve compilation) call.method = true := by
  obtain ⟨entry, -, hlogger, -⟩ := Compilation.declares_iff.mp h.declared
  show ((compilation.typeNamed? WellKnown.loggerName).isSome &&
    call.method.containingType == compilation.typeNamed? WellKnown.loggerName) = true
  rw [h.containingType_eq, hlogger]
  simp

/-- A log call reads an array as the values of its template, and any other state as a state. -/
theorem LogCall.content_of_passesState (h : call.PassesState compilation "Log" type state) :
    LogCall.content (WellKnown.resolve compilation) call =
      if type.elementType.isSome then
        .ofValues (Analysis.template? (WellKnown.resolve compilation) call.arguments) state
      else
        .ofState (Analysis.template? (WellKnown.resolve compilation) call.arguments)
          (.ofState (WellKnown.resolve compilation) state) := by
  simp only [LogCall.content, h.values?_eq, h.takesState, h.state?_eq, if_true]
  cases type.elementType.isSome <;> rfl

/-- A scope reads the state, whatever its type is. -/
theorem Scope.content?_of_passesState (h : call.PassesState compilation "BeginScope" type state) :
    Scope.content? (WellKnown.resolve compilation) call =
      some (.ofState none (.ofState (WellKnown.resolve compilation) state)) := by
  have hstarts : Scope.startsWithState (WellKnown.resolve compilation) call = true :=
    (WellKnown.contains_membersOf ..).trans h.declared
  unfold Scope.content? Scope.stateContent Scope.reading?
  rw [if_pos hstarts, h.state?_eq]
  rfl

end

/-! ## The two records -/

section

variable {compilation : Compilation} {type : TypeRef} {state : Operation} {site : CallSite}

theorem LogCall.exists_record_of_passesState (path : String)
    (h : site.invocation.PassesState compilation "Log" type state) :
    ∃ record, LogCall.record? (WellKnown.resolve compilation) path site = some record ∧
      record.content = LogCall.content (WellKnown.resolve compilation) site.invocation := by
  have hsome : (LogCall.record? (WellKnown.resolve compilation) path site).isSome = true := by
    rw [LogCall.isSome_record?]
    exact List.any_eq_true.mpr ⟨_, List.mem_cons_self, h.declared⟩
  obtain ⟨record, hrecord⟩ := Option.isSome_iff_exists.mp hsome
  exact ⟨record, hrecord, (LogCall.of_record? hrecord).2⟩

theorem Scope.exists_record_of_passesState (path : String)
    (h : site.invocation.PassesState compilation "BeginScope" type state) :
    ∃ record, Scope.record? (WellKnown.resolve compilation) path site = some record ∧
      record.content = .ofState none (.ofState (WellKnown.resolve compilation) state) := by
  have hsome : (Scope.record? (WellKnown.resolve compilation) path site).isSome = true := by
    rw [Scope.isSome_record?]
    exact List.any_eq_true.mpr ⟨_, List.mem_cons_self, h.declared⟩
  obtain ⟨record, hrecord⟩ := Option.isSome_iff_exists.mp hsome
  have hcontent := (Scope.of_record? hrecord).2
  rw [Scope.content?_of_passesState h] at hcontent
  exact ⟨record, hrecord, (Option.some.inj hcontent).symm⟩

end

/-- A state is never read as an array of values. -/
theorem StateReading.strategy_ne_arrayLiteral (table : WellKnown) (state : Operation) :
    (StateReading.ofState table state).report.strategy ≠ some .arrayLiteral := by
  intro harray
  cases hreading : StateReading.ofState table state with
  | values outcome =>
    rw [hreading] at harray
    have houtcome : outcome.strategy = .arrayLiteral := Option.some.inj harray
    rcases StateReading.strategy_of_values hreading with hpairs | hmembers
    · rw [hpairs] at houtcome
      cases houtcome
    · rw [hmembers] at houtcome
      cases houtcome
  | text text => rw [hreading] at harray; cases harray
  | unknown type => rw [hreading] at harray; cases harray

/-- So an array of values and a state are never reported alike. -/
theorem Content.extraction_ofValues_ne_ofState (table : WellKnown) (template : Option String)
    (values state : Operation) :
    (Content.ofValues template values).extraction ≠
      (Content.ofState none (.ofState table state)).extraction := by
  intro hsame
  have hstrategy := congrArg ExtractionReport.strategy (Option.some.inj hsame)
  apply StateReading.strategy_ne_arrayLiteral table state
  rw [← hstrategy]
  show some (ArrayLiteral.extract values (placeholders template)).strategy = _
  rw [ArrayLiteral.strategy_extract]

/-- A log call and a scope that pass the same state both have a record. The two records have the
same parameters and the same report exactly when the type of the state is not an array: an array is
read by the log call as the values of a template, and by the scope as the collection it is. -/
theorem state_paths_agree_iff {compilation : Compilation} {type : TypeRef} {state : Operation}
    {logSite scopeSite : CallSite} (path path' : String)
    (hlog : logSite.invocation.PassesState compilation "Log" type state)
    (hscope : scopeSite.invocation.PassesState compilation "BeginScope" type state) :
    ∃ logRecord scopeRecord,
      LogCall.record? (WellKnown.resolve compilation) path logSite = some logRecord ∧
      Scope.record? (WellKnown.resolve compilation) path' scopeSite = some scopeRecord ∧
      ((logRecord.parameters = scopeRecord.parameters ∧
        logRecord.extraction = scopeRecord.extraction) ↔ type.elementType = none) := by
  obtain ⟨logRecord, hlogRecord, hlogContent⟩ := LogCall.exists_record_of_passesState path hlog
  obtain ⟨scopeRecord, hscopeRecord, hscopeContent⟩ :=
    Scope.exists_record_of_passesState path' hscope
  refine ⟨logRecord, scopeRecord, hlogRecord, hscopeRecord, ?_⟩
  rw [LogCall.content_of_passesState hlog] at hlogContent
  have hscopeExtraction := congrArg Content.extraction hscopeContent
  cases harray : type.elementType with
  | none =>
    -- both records are made from one reading of the state
    rw [harray] at hlogContent
    have hlogParameters := congrArg Content.parameters hlogContent
    have hlogExtraction := congrArg Content.extraction hlogContent
    have hscopeParameters := congrArg Content.parameters hscopeContent
    exact iff_of_true ⟨hlogParameters.trans hscopeParameters.symm,
      hlogExtraction.trans hscopeExtraction.symm⟩ rfl
  | some element =>
    -- the log call reports a strategy that no state is read by
    rw [harray] at hlogContent
    have hlogExtraction := congrArg Content.extraction hlogContent
    refine iff_of_false (fun hagree => ?_) (Option.some_ne_none element)
    exact Content.extraction_ofValues_ne_ofState _ _ _ _
      ((hlogExtraction.symm.trans hagree.2).trans hscopeExtraction)

/-- A log call with a state between a severity and a formatter. -/
def logWith (type : TypeRef) (state : Operation) : CallSite where
  span := ⟨3, 3⟩
  invocation :=
    { method := { symbol := ⟨90⟩, genericDefinition := some ⟨11⟩, name := "Log"
                  containingType := some ⟨1⟩, typeArguments := [type] }
      arguments :=
        [argumentOf { display := "LogLevel" } { shape := .literal },
         argumentOf type state,
         argumentOf { display := "Func" } { shape := .parameterReference "formatter" }] }

/-- A scope that is started with a state. -/
def scopeWith (type : TypeRef) (state : Operation) : CallSite where
  span := ⟨4, 4⟩
  invocation :=
    { method := { symbol := ⟨91⟩, genericDefinition := some ⟨12⟩, name := "BeginScope"
                  containingType := some ⟨1⟩, typeArguments := [type] }
      arguments := [argumentOf type state] }

theorem passesState_logWith (type : TypeRef) (state : Operation)
    (hlevel : { display := "LogLevel" } ≠ type) (hformatter : { display := "Func" } ≠ type) :
    (logWith type state).invocation.PassesState smallCompilation "Log" type state where
  declared := rfl
  containingType_eq := rfl
  constructed := rfl
  bound := by
    refine ⟨[_], _, [_], rfl, rfl, ?_⟩
    intro other hother bound hbound
    rcases List.mem_pair.mp hother with rfl | rfl
    · cases hbound
      exact ⟨hlevel, rfl⟩
    · cases hbound
      exact ⟨hformatter, rfl⟩

theorem passesState_scopeWith (type : TypeRef) (state : Operation) :
    (scopeWith type state).invocation.PassesState smallCompilation "BeginScope" type state where
  declared := rfl
  containingType_eq := rfl
  constructed := rfl
  bound := ⟨[], _, [], rfl, rfl, fun _ hother => nomatch hother⟩

/-- The type of an array of pairs with string keys. -/
def pairArrayType : TypeRef where
  display := "KeyValuePair<string, object>[]"
  elementType := some
    { symbol := some ⟨6⟩, display := "KeyValuePair<string, object>"
      typeArguments := [{ symbol := some ⟨5⟩, display := "string" }, { display := "object" }] }

/-- On an array of pairs the two paths differ. -/
theorem state_paths_agree_iff_pairArray :
    let pairs : Operation := { type := some pairArrayType, shape := .parameterReference "pairs" }
    (logWith pairArrayType pairs).invocation.PassesState
      smallCompilation "Log" pairArrayType pairs ∧
    (scopeWith pairArrayType pairs).invocation.PassesState
      smallCompilation "BeginScope" pairArrayType pairs ∧
    ∃ logRecord scopeRecord,
      LogCall.record? (WellKnown.resolve smallCompilation) "User.cs"
        (logWith pairArrayType pairs) = some logRecord ∧
      Scope.record? (WellKnown.resolve smallCompilation) "User.cs"
        (scopeWith pairArrayType pairs) = some scopeRecord ∧
      ¬ (logRecord.parameters = scopeRecord.parameters ∧
        logRecord.extraction = scopeRecord.extraction) := by
  intro pairs
  have hne : ∀ other : TypeRef, other.elementType = none → other ≠ pairArrayType := by
    rintro other hplain rfl
    cases hplain
  have hlog := passesState_logWith pairArrayType pairs (hne _ rfl) (hne _ rfl)
  have hscope := passesState_scopeWith pairArrayType pairs
  obtain ⟨logRecord, scopeRecord, hlogRecord, hscopeRecord, hagree⟩ :=
    state_paths_agree_iff "User.cs" "User.cs" hlog hscope
  refine ⟨hlog, hscope, logRecord, scopeRecord, hlogRecord, hscopeRecord, fun hsame => ?_⟩
  exact Option.some_ne_none _ (hagree.mp hsame)

end LogCensus
