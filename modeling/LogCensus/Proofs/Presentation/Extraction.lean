import LogCensus.Extraction.ArrayLiteral
import LogCensus.Extraction.MethodSignature
import LogCensus.Extraction.State
import LogCensus.Extraction.TypeArguments
import LogCensus.Proofs.Presentation.Symbols

/-!
# Extraction from presented expressions

Each strategy finds in a presented expression what it finds in the expression itself: the same
parameters in the same order, with the same names and provenances, only with the type texts that the
presentation shows.

* `Parameter.ofValue_presentValue`: the parameter of a single value.
* `KeyValue.collect_present`: the pairs of a collection, case by case along the recursion.
* `Outcome.ofState?_present`: the parameters of a state object.
-/

namespace LogCensus

variable (p : Presentation)

/-- A parameter with the type text that is shown. -/
def Parameter.present (parameter : Parameter) : Parameter :=
  { parameter with type := p.shown parameter.type }

/-- An outcome with the type texts that are shown. -/
def Outcome.present (outcome : Outcome) : Outcome :=
  { outcome with parameters := outcome.parameters.map (Parameter.present p) }

/-! ## Values -/

theorem Operation.provenance_presentValue (value : Operation) :
    (value.presentValue p).provenance = value.provenance := by
  simp only [Operation.provenance, unwrap_presentValue, shape_present, constant_present]
  cases value.unwrap.shape <;> rfl

theorem Parameter.ofValue_presentValue (name : String) (value : Operation) :
    .ofValue name (value.presentValue p) = (Parameter.ofValue name value).present p := by
  simp only [ofValue, present, Operation.unwrap_presentValue, Operation.typeDisplay_present,
    Operation.provenance_presentValue]

/-! ## Arrays and type arguments -/

theorem ArrayLiteral.elements?_present (argument : Operation) :
    elements? (argument.presentValue p) =
      (elements? argument).map (List.map (Operation.presentValue p)) := by
  unfold elements?
  rw [Operation.origin_presentValue, Operation.shape_present]
  cases argument.origin.shape with
  | arrayCreation elements => exact congrArg some (Operation.presentValues_eq p elements)
  | _ => rfl

theorem ArrayLiteral.extract_present (argument : Operation) (names : List String) :
    extract (argument.presentValue p) names = (extract argument names).present p := by
  simp only [extract, elements?_present]
  cases elements? argument with
  | none => rfl
  | some elements =>
    simp only [Option.map_some, List.zipWith_map_right, Parameter.ofValue_presentValue,
      List.length_map, Outcome.found, Outcome.present, List.map_zipWith]

theorem TypeArguments.extract_present (method : MethodRef) (names : List String) :
    extract (method.present p) names = (extract method names).present p := by
  have hparameter : ∀ name (type : TypeRef),
      parameter name (type.present p) = (parameter name type).present p := by
    intro name type
    simp only [parameter, TypeRef.displayOrObject_present, Parameter.present]
  simp only [extract, MethodRef.present, List.zipWith_map_right, hparameter, List.length_map,
    Outcome.found, Outcome.present, List.map_zipWith]

/-! ## Declared methods -/

namespace MethodSignature

theorem isMessageParameter_present (table : WellKnown) (parameter : ParameterSymbol) :
    isMessageParameter (table.present p) (parameter.present p) =
      isMessageParameter table parameter := by
  simp only [isMessageParameter, ParameterSymbol.present, WellKnown.isLogger_present,
    WellKnown.isLogLevel_present, WellKnown.isException_present]

theorem customTagName?_present (table : WellKnown) (parameter : ParameterSymbol) :
    customTagName? (table.present p) (parameter.present p) = customTagName? table parameter := by
  unfold customTagName?
  simp only [WellKnown.present, ParameterSymbol.present]
  cases table.tagNameAttribute with
  | none => rfl
  | some type =>
    simp only [Option.map_some, Option.bind_eq_bind, Option.bind_some, Attribute.find?_present]
    cases parameter.attributes.find? fun applied => applied.type == type with
    | none => rfl
    | some applied =>
      -- the argument that is chosen keeps its value
      simp only [Option.map_some, Option.bind_some, Attribute.argument?_present]
      simp only [Attribute.present, List.head?_map]
      cases applied.argument? "tagName" with
      | some argument => rfl
      | none => cases applied.constructorArguments.head? <;> rfl

theorem toParameter_present (table : WellKnown) (parameter : ParameterSymbol) :
    toParameter (table.present p) (parameter.present p) =
      (toParameter table parameter).present p := by
  simp only [toParameter, customTagName?_present, Parameter.present]
  simp only [ParameterSymbol.present, TypeRef.displayOrObject_present]

theorem takeNamed_present (placeholder : String) (parameters : List ParameterSymbol) :
    takeNamed placeholder (parameters.map (ParameterSymbol.present p)) =
      (takeNamed placeholder parameters).map
        (Prod.map (ParameterSymbol.present p) (List.map (ParameterSymbol.present p))) := by
  induction parameters with
  | nil => rfl
  | cons parameter rest ih =>
    simp only [List.map_cons, takeNamed, ih, ParameterSymbol.present]
    split
    · rfl
    · rw [Option.map_map, Option.map_map]
      rfl

theorem matchNames_present (placeholders : List String) (left : List ParameterSymbol) :
    matchNames placeholders (left.map (ParameterSymbol.present p)) =
      Prod.map (List.map (Option.map (ParameterSymbol.present p)))
        (List.map (ParameterSymbol.present p)) (matchNames placeholders left) := by
  induction placeholders generalizing left with
  | nil => rfl
  | cons placeholder rest ih =>
    simp only [matchNames, takeNamed_present]
    cases takeNamed placeholder left with
    | none =>
      simp only [Option.map_none, ih]
      rfl
    | some taken =>
      simp only [Option.map_some, Prod.map, ih]
      rfl

theorem fillGaps_present (slots : List (Option ParameterSymbol)) (left : List ParameterSymbol) :
    fillGaps (slots.map (Option.map (ParameterSymbol.present p)))
        (left.map (ParameterSymbol.present p)) =
      Prod.map (List.map (Option.map (ParameterSymbol.present p)))
        (List.map (ParameterSymbol.present p)) (fillGaps slots left) := by
  fun_induction fillGaps slots left with
  | case1 left => rfl
  | case2 found rest left slots remaining hrest ih =>
    simp only [List.map_cons, Option.map_some, fillGaps, ih, hrest]
    rfl
  | case3 rest next left slots remaining hrest ih =>
    simp only [List.map_cons, Option.map_none, fillGaps, ih, hrest]
    rfl
  | case4 rest slots remaining hrest ih =>
    simp only [List.map_cons, List.map_nil, Option.map_none, fillGaps] at ih ⊢
    simp only [ih, hrest]
    rfl

theorem extract_present (table : WellKnown) (method : MethodRef) (names : List String) :
    extract (table.present p) (method.present p) names =
      (extract table method names).present p := by
  have htest : isMessageParameter (table.present p) ∘ ParameterSymbol.present p =
      isMessageParameter table := by
    funext parameter
    exact isMessageParameter_present p table parameter
  have hparameter : toParameter (table.present p) ∘ ParameterSymbol.present p =
      Parameter.present p ∘ toParameter table := by
    funext parameter
    exact toParameter_present p table parameter
  have htaken : Option.isSome ∘ Option.map (ParameterSymbol.present p) = Option.isSome := by
    funext slot
    exact Option.isSome_map
  have hchosen : ∀ slots : List (Option ParameterSymbol),
      (slots.map (Option.map (ParameterSymbol.present p))).filterMap id =
        (slots.filterMap id).map (ParameterSymbol.present p) := by
    intro slots
    rw [List.filterMap_map, List.map_filterMap]
    rfl
  simp only [extract, MethodRef.present, List.filter_map, htest, matchNames_present,
    fillGaps_present, Prod.map, Outcome.found, Outcome.present, hchosen, List.all_map, htaken,
    List.isEmpty_map, List.map_append, List.map_map, hparameter]

end MethodSignature

/-! ## Anonymous objects -/

namespace AnonymousObject

mutual
theorem flatten_present (path : String) : (members : List AnonymousMember) →
    flatten path (AnonymousMember.presentList p members) =
      (flatten path members).map (Parameter.present p)
  | [] => rfl
  | ⟨name, value⟩ :: rest => by
    have hnested := nested?_present (qualified path name) value
    have hrest := flatten_present path rest
    simp only [AnonymousMember.presentList, AnonymousMember.present, flatten, flattenMember,
      hnested, hrest, List.map_append, Parameter.ofValue_presentValue]
    cases nested? (qualified path name) value <;> rfl
theorem nested?_present (path : String) : (value : Operation) →
    nested? path (value.presentValue p) = (nested? path value).map (List.map (Parameter.present p))
  | ⟨type, constant, shape⟩ => by
    cases shape with
    | conversion operand =>
      rw [Operation.presentValue_conversion]
      split <;> exact nested?_present path operand
    | anonymousObjectCreation members => exact congrArg some (flatten_present path members)
    | _ => rfl
end

theorem members?_present (argument : Operation) :
    members? (argument.presentValue p) =
      (members? argument).map (AnonymousMember.presentList p) := by
  unfold members?
  rw [Operation.origin_presentValue, Operation.shape_present]
  cases argument.origin.shape <;> rfl

theorem extract_present (argument : Operation) :
    extract (argument.presentValue p) = (extract argument).present p := by
  simp only [extract, members?_present]
  cases members? argument with
  | none => rfl
  | some members =>
    simp only [Option.map_some, flatten_present, Outcome.found, Outcome.present]

end AnonymousObject

/-! ## Collections of pairs -/

/-- The pairs found so far, with the type texts that are shown. -/
def Pairs.present (pairs : Pairs) : Pairs :=
  { pairs with parameters := pairs.parameters.map (Parameter.present p) }

namespace Pairs

theorem push_present (pairs : Pairs) (parameter : Parameter) :
    (pairs.present p).push (parameter.present p) = (pairs.push parameter).present p := by
  simp only [push, present, List.map_append, List.map_cons, List.map_nil]

theorem skip_present (pairs : Pairs) : (pairs.present p).skip = pairs.skip.present p := rfl

theorem add_present (pairs : Pairs) (key value : Operation) :
    (pairs.present p).add (key.presentValue p) (value.presentValue p) =
      (pairs.add key value).present p := by
  simp only [add, Operation.unwrap_presentValue, Operation.constantString?_present]
  cases key.unwrap.constantString? with
  | none => rfl
  | some name => simp only [Parameter.ofValue_presentValue, push_present]

theorem addOpaque_present (pairs : Pairs) (name : String) (type : Option TypeRef) :
    (pairs.present p).addOpaque name (type.map (TypeRef.present p)) =
      (pairs.addOpaque name type).present p := by
  have htype : (type.map (TypeRef.present p)).elim "object" TypeRef.displayOrObject =
      p.shown (type.elim "object" TypeRef.displayOrObject) :=
    Operation.typeDisplay_present p ⟨type, none, .other⟩
  rw [addOpaque, htype]
  exact push_present p pairs ⟨name, type.elim "object" TypeRef.displayOrObject, _, none⟩

theorem addArguments_present (pairs : Pairs) (arguments : List Argument) :
    (pairs.present p).addArguments (arguments.map (Argument.present p)) =
      (pairs.addArguments arguments).present p := by
  rcases arguments with _ | ⟨key, _ | ⟨value, _ | ⟨third, rest⟩⟩⟩
  · rfl
  · rfl
  · simp only [List.map_cons, List.map_nil, addArguments, Argument.value_present, add_present]
  · rfl

end Pairs

namespace KeyValue

theorem isCollection_present (table : WellKnown) (type : Option TypeRef) :
    isCollection (table.present p) (type.map (TypeRef.present p)) = isCollection table type := by
  simp only [isCollection, Option.any_map, WellKnown.isKeyValueCollection_present]

theorem collectPair_present (table : WellKnown) (expression : Operation) (pairs : Pairs) :
    collectPair (table.present p) (expression.presentValue p) (pairs.present p) =
      (collectPair table expression pairs).present p := by
  simp only [collectPair, Operation.unwrap_presentValue, Operation.shape_present,
    Operation.type_present, Option.any_map, WellKnown.isStringPair_present]
  cases expression.unwrap.shape with
  | objectCreation creation =>
    simp only [Shape.present, ObjectCreation.arguments_present, Pairs.addArguments_present,
      Pairs.skip_present]
    split <;> rfl
  | invocation call =>
    simp only [Shape.present, Invocation.method_present, MethodRef.definition_present,
      Invocation.arguments_present, Pairs.addArguments_present, Pairs.skip_present,
      WellKnown.present, WellKnown.contains_map_handle]
    split <;> rfl
  | _ => rfl

theorem collectItem_present (table : WellKnown) (item : Operation) (pairs : Pairs) :
    collectItem (table.present p) (item.present p) (pairs.present p) =
      (collectItem table item pairs).present p := by
  obtain ⟨type, constant, shape⟩ := item
  cases shape with
  | invocation call =>
    simp only [Operation.present, Shape.present, collectItem, Invocation.arguments_present]
    -- one argument is a pair, two are a key and a value
    rcases call.arguments with _ | ⟨first, _ | ⟨second, _ | ⟨third, rest⟩⟩⟩
    · rfl
    · simp only [List.map_cons, List.map_nil, Argument.value_present, collectPair_present]
    · simp only [List.map_cons, List.map_nil, Argument.value_present, Pairs.add_present]
    · rfl
  | assignment target value =>
    obtain ⟨targetType, targetConstant, targetShape⟩ := target
    cases targetShape with
    | propertyReference name arguments =>
      simp only [Operation.present, Shape.present, collectItem, Argument.presentList_eq]
      rcases arguments with _ | ⟨index, _ | ⟨second, rest⟩⟩
      · rfl
      · simp only [List.map_cons, List.map_nil, Argument.value_present, Pairs.add_present]
      · rfl
    | _ => rfl
  | _ => rfl

theorem collectItems_present (table : WellKnown) (items : List Operation) (pairs : Pairs) :
    collectItems (table.present p) (items.map (Operation.present p)) (pairs.present p) =
      (collectItems table items pairs).present p := by
  induction items generalizing pairs with
  | nil => rfl
  | cons item items ih =>
    simp only [collectItems, List.map_cons, List.foldl_cons, collectItem_present] at ih ⊢
    exact ih _

theorem collectElements_present (table : WellKnown) (elements : List Operation) (pairs : Pairs) :
    collectElements (table.present p) (elements.map (Operation.presentValue p)) (pairs.present p) =
      (collectElements table elements pairs).present p := by
  induction elements generalizing pairs with
  | nil => rfl
  | cons element elements ih =>
    simp only [collectElements, List.map_cons, List.foldl_cons, collectPair_present] at ih ⊢
    exact ih _

/-- An operation gives pairs only if its type is that of a collection, in every presentation. -/
theorem guarded_present (table : WellKnown) (type : Option TypeRef)
    {pairs found found' : Pairs} (hfound : found' = found.present p) :
    (if isCollection (table.present p) (type.map (TypeRef.present p)) then (true, found')
        else (false, pairs.present p)) =
      Prod.map id (Pairs.present p)
        (if isCollection table type then (true, found) else (false, pairs)) := by
  rw [isCollection_present, hfound]
  split <;> rfl

mutual
/-- The pairs of a presented operation, and whether it is a collection at all. -/
theorem collect_present (table : WellKnown) : (operation : Operation) → (pairs : Pairs) →
    collect (table.present p) (operation.presentValue p) (pairs.present p) =
      Prod.map id (Pairs.present p) (collect table operation pairs)
  | ⟨type, constant, shape⟩, pairs => by
    cases shape with
    | conversion operand =>
      rw [Operation.presentValue_conversion]
      split <;> exact collect_present table operand pairs
    | objectCreation creation =>
      exact guarded_present p table type (collectCreation_present table creation pairs)
    | arrayCreation elements =>
      have helements := collectElements_present p table elements pairs
      rw [← Operation.presentValues_eq] at helements
      exact guarded_present p table type helements
    | localReference name initializer =>
      exact guarded_present p table type
        (collectInitializer_present table name type initializer pairs)
    | fieldReference name initializer =>
      exact guarded_present p table type
        (collectInitializer_present table name type initializer pairs)
    | parameterReference name =>
      exact guarded_present p table type (Pairs.addOpaque_present p pairs name type)
    | propertyReference name arguments =>
      exact guarded_present p table type (Pairs.addOpaque_present p pairs name type)
    | invocation call =>
      obtain ⟨method, receiver, arguments⟩ := call
      exact guarded_present p table type (Pairs.addOpaque_present p pairs method.name type)
    | _ => rfl
theorem collectCreation_present (table : WellKnown) : (creation : ObjectCreation) →
    (pairs : Pairs) → collectCreation (table.present p) (creation.present p) (pairs.present p) =
      (collectCreation table creation pairs).present p
  | ⟨method, arguments, initializer⟩, pairs => by
    have harguments := collectArguments_present table arguments pairs
    have hitems : (Operation.presentInitializer p initializer).getD [] =
        (initializer.getD []).map (Operation.present p) := by
      cases initializer with
      | none => rfl
      | some items => exact Operation.presentItems_eq p items
    simp only [ObjectCreation.present, collectCreation, harguments, hitems, collectItems_present]
theorem collectArguments_present (table : WellKnown) : (arguments : List Argument) →
    (pairs : Pairs) →
    collectArguments (table.present p) (Argument.presentList p arguments) (pairs.present p) =
      (collectArguments table arguments pairs).present p
  | [], _ => rfl
  | argument :: rest, pairs => by
    have hargument := collectArgument_present table argument pairs
    have hrest := collectArguments_present table rest (collectArgument table argument pairs)
    simp only [Argument.presentList, collectArguments, hargument, hrest]
theorem collectArgument_present (table : WellKnown) : (argument : Argument) → (pairs : Pairs) →
    collectArgument (table.present p) (argument.present p) (pairs.present p) =
      (collectArgument table argument pairs).present p
  | ⟨parameter, value⟩, pairs => by
    have ih := collect_present table value pairs
    simp only [Argument.present, collectArgument, Operation.unwrap_presentValue,
      Operation.type_present, isCollection_present, ih]
    split <;> rfl
theorem collectInitializer_present (table : WellKnown) (name : String) (type : Option TypeRef) :
    (initializer : Option Operation) → (pairs : Pairs) →
    collectInitializer (table.present p) name (type.map (TypeRef.present p))
        (Operation.presentOption p initializer) (pairs.present p) =
      (collectInitializer table name type initializer pairs).present p
  | none, pairs => Pairs.addOpaque_present p pairs name type
  | some initializer, pairs => by
    have ih := collect_present table initializer pairs
    simp only [Operation.presentOption, collectInitializer, ih]
    obtain ⟨known, found⟩ := collect table initializer pairs
    cases known with
    | true => rfl
    | false => exact Pairs.addOpaque_present p found name type
end

theorem extract_present (table : WellKnown) (argument : Operation) :
    extract (table.present p) (argument.presentValue p) = (extract table argument).present p := by
  have hcollect : collect (table.present p) (argument.presentValue p) {} = _ :=
    collect_present p table argument {}
  simp only [extract, hcollect]
  obtain ⟨known, pairs⟩ := collect table argument {}
  cases known <;> rfl

end KeyValue

/-! ## State objects -/

theorem Outcome.ofState?_present (table : WellKnown) (state : Operation) :
    Outcome.ofState? (table.present p) (state.presentValue p) =
      (Outcome.ofState? table state).map (Outcome.present p) := by
  simp only [ofState?, KeyValue.extract_present, AnonymousObject.extract_present]
  show (if (KeyValue.extract table state).recognized = true then _ else
    if (AnonymousObject.extract state).recognized = true then _ else _) = _
  split
  · rfl
  · split <;> rfl

end LogCensus
