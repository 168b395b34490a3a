import LogCensus.Extraction.ArrayLiteral
import LogCensus.Extraction.MethodSignature
import LogCensus.Extraction.State
import LogCensus.Extraction.TypeArguments
import LogCensus.Proofs.Extraction.Leaves
import LogCensus.Proofs.Extraction.Pairs

/-!
# The origins of parameters

A parameter is made for a value, for a collection of which only the type is known, for a formal
parameter of a method, or for a type argument. All strategies make their parameters in these ways,
however deep the expressions are that they look through, so what holds of parameters of all four
origins holds of whatever is extracted.

* `Parameter.Arises`: the four origins.
* `Parameter.Arises.type_ne`: a parameter of any origin has a type.
* `KeyValue.arise_collect`, `AnonymousObject.arise_flatten`: the pairs of a collection and the
  members of an object have an origin, at any depth.
-/

namespace LogCensus

/-! ## The four origins -/

/-- What a parameter is made for. -/
inductive Parameter.Arises : Parameter → Prop
  | value (name : String) (value : Operation) : Arises (.ofValue name value)
  | collection (name : String) (type : Option TypeRef) :
      Arises ⟨name, type.elim "object" TypeRef.displayOrObject, .keyValueCollection, none⟩
  | formal (table : WellKnown) (symbol : ParameterSymbol) :
      Arises (MethodSignature.toParameter table symbol)
  | typeArgument (name : String) (type : TypeRef) : Arises (TypeArguments.parameter name type)

theorem TypeRef.displayOrObject_ne (type : TypeRef) : type.displayOrObject ≠ "" := by
  unfold displayOrObject
  split
  · decide
  · next hshown =>
    intro hempty
    rw [hempty] at hshown
    exact hshown rfl

/-- A type that is not known, or has no text, is displayed as well. -/
theorem TypeRef.elim_displayOrObject_ne (type : Option TypeRef) :
    type.elim "object" displayOrObject ≠ "" := by
  cases type with
  | none => decide
  | some type => exact type.displayOrObject_ne

theorem Parameter.Arises.type_ne {parameter : Parameter} (h : parameter.Arises) :
    parameter.type ≠ "" := by
  cases h with
  | value name value => exact TypeRef.elim_displayOrObject_ne value.unwrap.type
  | collection name type => exact TypeRef.elim_displayOrObject_ne type
  | formal table symbol => exact symbol.type.displayOrObject_ne
  | typeArgument name type => exact type.displayOrObject_ne

/-- All parameters have an origin. -/
def Arise (parameters : List Parameter) : Prop :=
  ∀ parameter ∈ parameters, parameter.Arises

theorem arise_nil : Arise [] := List.forall_mem_nil _

theorem arise_append {first second : List Parameter} (hfirst : Arise first)
    (hsecond : Arise second) : Arise (first ++ second) :=
  List.forall_mem_append.mpr ⟨hfirst, hsecond⟩

theorem arise_singleton {parameter : Parameter} (h : parameter.Arises) : Arise [parameter] :=
  List.forall_mem_singleton.mpr h

/-- Items that serve names by position. -/
theorem arise_zipWith {α : Type} {f : String → α → Parameter}
    (h : ∀ name item, (f name item).Arises) (names : List String) (items : List α) :
    Arise (names.zipWith f items) := by
  rw [← List.map_uncurry_zip_eq_zipWith]
  exact List.forall_mem_map.mpr fun pair _ => h pair.1 pair.2

/-! ## Pairs of a collection -/

/-- A step of the collection adds the parameter that something gives, or none. -/
theorem Pairs.Contributes.arise {gives : Parameter → Prop} {step : Pairs → Pairs}
    (h : Contributes gives step) (hgives : ∀ parameter, gives parameter → parameter.Arises)
    {pairs : Pairs} (hpairs : Arise pairs.parameters) : Arise (step pairs).parameters := by
  cases h with
  | one parameter hone hstep =>
    rw [hstep]
    exact arise_append hpairs (arise_singleton (hgives parameter ((hone parameter).mpr rfl)))
  | none _ hstep =>
    rw [hstep]
    exact arise_append hpairs arise_nil

theorem Pairs.arise_foldl {α : Type} {gives : α → Parameter → Prop} {step : Pairs → α → Pairs}
    (h : ∀ item, Contributes (gives item) fun pairs => step pairs item)
    (hgives : ∀ item parameter, gives item parameter → parameter.Arises) (items : List α)
    {pairs : Pairs} (hpairs : Arise pairs.parameters) :
    Arise (items.foldl step pairs).parameters := by
  induction items generalizing pairs with
  | nil => exact hpairs
  | cons item rest ih => exact ih ((h item).arise (hgives item) hpairs)

theorem Pairs.arise_addOpaque {pairs : Pairs} (hpairs : Arise pairs.parameters) (name : String)
    (type : Option TypeRef) : Arise (pairs.addOpaque name type).parameters :=
  arise_append hpairs (arise_singleton (.collection name type))

namespace KeyValue

theorem ArgumentsGive.arises {arguments : List Argument} {parameter : Parameter}
    (h : ArgumentsGive arguments parameter) : parameter.Arises := by
  obtain ⟨⟨hname⟩⟩ := h
  exact .value _ _

theorem ExpressionGives.arises {table : WellKnown} (expression : Operation) (parameter : Parameter)
    (h : ExpressionGives table expression parameter) : parameter.Arises := by
  cases h with
  | constructor _ _ _ harguments => exact harguments.arises
  | factory _ _ _ harguments => exact harguments.arises

theorem ItemGives.arises {table : WellKnown} (item : Operation) (parameter : Parameter)
    (h : ItemGives table item parameter) : parameter.Arises := by
  cases h with
  | keyAndValue _ _ harguments => exact harguments.arises
  | pair _ argument _ _ hgives => exact ExpressionGives.arises argument.value parameter hgives
  | indexer _ _ _ _ _ _ hpair =>
    cases hpair
    exact .value _ _

variable {table : WellKnown}

/-- What is found in an expression is put behind parameters that have an origin, and has one. -/
def KeepsOrigins (table : WellKnown) (expression : Operation) : Prop :=
  ∀ pairs : Pairs, Arise pairs.parameters → Arise (collect table expression pairs).2.parameters

/-- An expression that adds pairs only if its type is that of a collection. -/
theorem keepsOrigins_of_guarded {expression : Operation} {known : Bool} {add : Pairs → Pairs}
    (hcollect : ∀ pairs, collect table expression pairs =
      if known then (true, add pairs) else (false, pairs))
    (hadd : ∀ pairs : Pairs, Arise pairs.parameters → Arise (add pairs).parameters) :
    KeepsOrigins table expression := by
  intro pairs hpairs
  rw [hcollect]
  split
  · exact hadd pairs hpairs
  · exact hpairs

theorem arise_collectInitializer {initial : Operation} (h : KeepsOrigins table initial)
    (name : String) (type : Option TypeRef) {pairs : Pairs} (hpairs : Arise pairs.parameters) :
    Arise (collectInitializer table name type (some initial) pairs).parameters := by
  have hfound := h pairs hpairs
  rw [collectInitializer]
  split
  · next hcollect => rwa [hcollect] at hfound
  · next hcollect =>
    rw [hcollect] at hfound
    exact Pairs.arise_addOpaque hfound name type

theorem arise_collectArguments {arguments : List Argument}
    (h : ∀ part ∈ arguments.map Argument.value, KeepsOrigins table part) {pairs : Pairs}
    (hpairs : Arise pairs.parameters) :
    Arise (collectArguments table arguments pairs).parameters := by
  induction arguments generalizing pairs with
  | nil => exact hpairs
  | cons argument rest ih =>
    obtain ⟨parameter, value⟩ := argument
    obtain ⟨hvalue, hrest⟩ := List.forall_mem_cons.mp h
    rw [collectArguments, collectArgument]
    apply ih hrest
    split
    · exact hvalue pairs hpairs
    · exact hpairs

/-- Whatever is found in an expression has an origin. -/
theorem arise_collect (expression : Operation) : KeepsOrigins table expression := by
  induction expression using Operation.inductionOnParts with
  | h operation ih =>
    cases hname : operation.referenceName? with
    | some name =>
      refine keepsOrigins_of_guarded (collect_reference hname) fun pairs hpairs => ?_
      cases hinitial : operation.initializer? with
      | none => exact Pairs.arise_addOpaque hpairs name operation.type
      | some initial =>
        exact arise_collectInitializer (ih initial (mem_parts_of_initializer hinitial)) name
          operation.type hpairs
    | none =>
      obtain ⟨type, constant, shape⟩ := operation
      cases shape with
      | conversion operand => exact ih operand (List.mem_singleton_self operand)
      | arrayCreation elements =>
        exact keepsOrigins_of_guarded (fun _ => rfl) fun pairs =>
          Pairs.arise_foldl (contributes_collectPair table) ExpressionGives.arises elements
      | objectCreation creation =>
        obtain ⟨method, arguments, initializer⟩ := creation
        have harguments : ∀ part ∈ arguments.map Argument.value, KeepsOrigins table part :=
          fun part hpart => ih part (List.mem_append_left _ hpart)
        refine keepsOrigins_of_guarded (fun _ => rfl) fun pairs hpairs => ?_
        apply Pairs.arise_foldl (contributes_collectItem table) ItemGives.arises
        exact arise_collectArguments harguments hpairs
      | localReference | fieldReference | parameterReference | propertyReference | invocation =>
        cases hname
      | literal | anonymousObjectCreation | defaultValue | assignment | other =>
        exact fun pairs hpairs => hpairs

theorem arise_extract (table : WellKnown) (argument : Operation) :
    Arise (extract table argument).parameters := by
  have hfound : Arise (collect table argument {}).2.parameters :=
    arise_collect argument {} arise_nil
  unfold extract
  split
  · next hcollect => rwa [hcollect] at hfound
  · exact arise_nil

end KeyValue

/-! ## Members of an anonymous object -/

namespace AnonymousObject

/-- The parameters below a path are made for the values of the leaves. -/
theorem Leaves.arise_flatten {members : List AnonymousMember} {leaves : List Leaf}
    (h : Leaves members leaves) (path : String) : Arise (flatten path members) := by
  induction h generalizing path with
  | nil => exact arise_nil
  | value hvalue _ ih =>
    rw [flatten_cons, nested?_of_not_isObject _ hvalue]
    exact arise_append (arise_singleton (.value _ _)) (ih path)
  | object hobject _ _ ihInner ihRest =>
    rw [flatten_cons, nested?_of_isObject _ hobject]
    exact arise_append (ihInner _) (ihRest path)

theorem arise_flatten (path : String) (members : List AnonymousMember) :
    Arise (flatten path members) := by
  obtain ⟨leaves, hleaves⟩ := exists_leaves members
  exact hleaves.arise_flatten path

theorem arise_extract (argument : Operation) : Arise (extract argument).parameters := by
  unfold extract
  split
  · exact arise_nil
  · exact arise_flatten "" _

end AnonymousObject

/-! ## The other strategies -/

theorem ArrayLiteral.arise_extract (argument : Operation) (names : List String) :
    Arise (extract argument names).parameters := by
  unfold extract
  split
  · exact arise_nil
  · exact arise_zipWith .value names _

theorem TypeArguments.arise_extract (method : MethodRef) (names : List String) :
    Arise (extract method names).parameters :=
  arise_zipWith .typeArgument names method.typeArguments

theorem MethodSignature.arise_extract (table : WellKnown) (method : MethodRef)
    (names : List String) : Arise (extract table method names).parameters :=
  List.forall_mem_map.mpr fun symbol _ => .formal table symbol

theorem Outcome.arise_ofState {table : WellKnown} {state : Operation} {outcome : Outcome}
    (h : Outcome.ofState? table state = some outcome) : Arise outcome.parameters := by
  simp only [ofState?] at h
  split at h
  · cases h
    exact KeyValue.arise_extract table state
  · split at h
    · cases h
      exact AnonymousObject.arise_extract state
    · cases h

end LogCensus
