import LogCensus.Extraction.KeyValue
import LogCensus.Proofs.Operation.Constants
import Mathlib.Data.List.Forall2

/-!
# Collecting pairs

The pairs of a collection are put behind those found before. Each element of an array and each item
of an initializer either gives one parameter or is noted as skipped, and an expression that is no
known collection adds nothing.

* `KeyValue.ExpressionGives`, `KeyValue.ItemGives`: the parameter that an element or an item gives.
* `Pairs.Contributes`: a step of the collection, with `KeyValue.contributes_collectPair` and
  `KeyValue.contributes_collectItem` for the two kinds of step.
* `KeyValue.collect_eq`: what an expression adds does not depend on what was found before it.
-/

namespace LogCensus

/-! ## Pairs in a row -/

namespace Pairs

/-- The pairs found in one part, then those found in the next. -/
instance : Append Pairs where
  append pairs more :=
    ⟨pairs.parameters ++ more.parameters, pairs.complete && more.complete⟩

theorem append_def (pairs more : Pairs) :
    pairs ++ more = ⟨pairs.parameters ++ more.parameters, pairs.complete && more.complete⟩ :=
  rfl

theorem empty_append (pairs : Pairs) : ({} : Pairs) ++ pairs = pairs := rfl

theorem append_empty (pairs : Pairs) : pairs ++ ({} : Pairs) = pairs := by
  rw [append_def, List.append_nil, Bool.and_true]

theorem append_assoc (first second third : Pairs) :
    first ++ second ++ third = first ++ (second ++ third) := by
  simp only [append_def, List.append_assoc, Bool.and_assoc]

/-- Parts are complete together exactly when each of them is. -/
theorem append_eq_complete_iff {first second : Pairs} {parameters : List Parameter} :
    first ++ second = ⟨parameters, true⟩ ↔
      ∃ before after, first = ⟨before, true⟩ ∧ second = ⟨after, true⟩ ∧
        before ++ after = parameters := by
  constructor
  · intro heq
    obtain ⟨hparameters, hcomplete⟩ := Pairs.mk.inj heq
    rw [Bool.and_eq_true] at hcomplete
    refine ⟨first.parameters, second.parameters, ?_, ?_, hparameters⟩
    · rw [← hcomplete.1]
    · rw [← hcomplete.2]
  · rintro ⟨before, after, rfl, rfl, rfl⟩
    rfl

theorem push_eq (pairs : Pairs) (parameter : Parameter) :
    pairs.push parameter = pairs ++ ⟨[parameter], true⟩ := by
  rw [push, append_def, Bool.and_true]

theorem skip_eq (pairs : Pairs) : pairs.skip = pairs ++ ⟨[], false⟩ := by
  rw [skip, append_def, List.append_nil, Bool.and_false]

/-- A step puts behind the pairs found so far the one parameter that something gives or, when it
gives none, the note that it is skipped. -/
inductive Contributes (gives : Parameter → Prop) (step : Pairs → Pairs) : Prop
  | one (parameter : Parameter) (hgives : ∀ other, gives other ↔ other = parameter)
      (hstep : ∀ pairs, step pairs = pairs ++ ⟨[parameter], true⟩)
  | none (hgives : ∀ other, ¬ gives other) (hstep : ∀ pairs, step pairs = pairs ++ ⟨[], false⟩)

theorem Contributes.congr {gives gives' : Parameter → Prop} {step step' : Pairs → Pairs}
    (h : Contributes gives step) (hgives : ∀ parameter, gives' parameter ↔ gives parameter)
    (hstep : ∀ pairs, step' pairs = step pairs) : Contributes gives' step' := by
  cases h with
  | one parameter hone hpush =>
    exact .one parameter (fun other => (hgives other).trans (hone other))
      fun pairs => (hstep pairs).trans (hpush pairs)
  | none hnone hskip =>
    exact .none (fun other hother => hnone other ((hgives other).mp hother))
      fun pairs => (hstep pairs).trans (hskip pairs)

/-- What is put behind the pairs found so far does not depend on them. -/
theorem Contributes.step_eq {gives : Parameter → Prop} {step : Pairs → Pairs}
    (h : Contributes gives step) (pairs : Pairs) : step pairs = pairs ++ step {} := by
  cases h with
  | one parameter _ hstep => rw [hstep pairs, hstep {}, empty_append]
  | none _ hstep => rw [hstep pairs, hstep {}, empty_append]

section

variable {α : Type} {gives : α → Parameter → Prop} {step : Pairs → α → Pairs}
  (h : ∀ item, Contributes (gives item) fun pairs => step pairs item)

include h

theorem foldl_eq (items : List α) (pairs : Pairs) :
    items.foldl step pairs = pairs ++ items.foldl step {} := by
  induction items generalizing pairs with
  | nil => exact (append_empty pairs).symm
  | cons item rest ih =>
    rw [List.foldl_cons, List.foldl_cons, ih, ih (step {} item), (h item).step_eq pairs,
      append_assoc]

/-- A loop over items is complete exactly when every item gives one parameter, and then these are
what it finds. -/
theorem foldl_eq_complete_iff (items : List α) (parameters : List Parameter) :
    items.foldl step {} = ⟨parameters, true⟩ ↔ List.Forall₂ gives items parameters := by
  induction items generalizing parameters with
  | nil =>
    rw [List.foldl_nil, List.forall₂_nil_left_iff]
    exact ⟨fun heq => (congrArg Pairs.parameters heq).symm, fun heq => heq ▸ rfl⟩
  | cons item rest ih =>
    rw [List.foldl_cons, foldl_eq h, append_eq_complete_iff, List.forall₂_cons_left_iff]
    cases h item with
    | one parameter hgives hstep =>
      rw [hstep, empty_append]
      constructor
      · rintro ⟨before, after, hbefore, hafter, rfl⟩
        cases hbefore
        exact ⟨parameter, after, (hgives parameter).mpr rfl, (ih after).mp hafter, rfl⟩
      · rintro ⟨given, after, hgiven, hafter, rfl⟩
        obtain rfl := (hgives given).mp hgiven
        exact ⟨[given], after, rfl, (ih after).mpr hafter, rfl⟩
    | none hgives hstep =>
      rw [hstep, empty_append]
      constructor
      · rintro ⟨before, after, hbefore, -⟩
        cases hbefore
      · rintro ⟨given, after, hgiven, -⟩
        exact absurd hgiven (hgives given)

end

end Pairs

namespace KeyValue

/-! ## What elements and items give -/

/-- The parameter that a key and a value give: the key has to be a constant string. -/
inductive PairGives (key value : Operation) : Parameter → Prop
  | constantKey {name : String} (hname : key.unwrap.constantString? = some name) :
      PairGives key value (.ofValue name value)

/-- The parameter that two arguments give as a key and a value. -/
inductive ArgumentsGive : List Argument → Parameter → Prop
  | pair {key value : Argument} {parameter : Parameter}
      (hpair : PairGives key.value value.value parameter) : ArgumentsGive [key, value] parameter

variable (table : WellKnown)

/-- The parameter that an expression gives when, under conversions, it creates a pair with a string
key: by the constructor or by the factory method. -/
inductive ExpressionGives (expression : Operation) (parameter : Parameter) : Prop
  | constructor (creation : ObjectCreation)
      (hshape : expression.unwrap.shape = .objectCreation creation)
      (htype : expression.unwrap.type.any table.isStringPair = true)
      (harguments : ArgumentsGive creation.arguments parameter)
  | factory (call : Invocation) (hshape : expression.unwrap.shape = .invocation call)
      (hmethod : table.keyValuePairCreate.contains call.method.definition = true)
      (harguments : ArgumentsGive call.arguments parameter)

/-- The parameter that an item of an initializer gives: an added key and value, an added pair, or an
assignment to an indexer. -/
inductive ItemGives (item : Operation) (parameter : Parameter) : Prop
  | keyAndValue (call : Invocation) (hshape : item.shape = .invocation call)
      (harguments : ArgumentsGive call.arguments parameter)
  | pair (call : Invocation) (argument : Argument) (hshape : item.shape = .invocation call)
      (hargument : call.arguments = [argument])
      (hgives : ExpressionGives table argument.value parameter)
  | indexer (target value : Operation) (name : String) (index : Argument)
      (hshape : item.shape = .assignment target value)
      (htarget : target.shape = .propertyReference name [index])
      (hpair : PairGives index.value value parameter)

open Pairs

theorem contributes_add (key value : Operation) :
    Contributes (PairGives key value) fun pairs => pairs.add key value := by
  cases hname : key.unwrap.constantString? with
  | some name =>
    refine .one (.ofValue name value) (fun other => ⟨?_, ?_⟩) fun pairs => ?_
    · rintro ⟨hother⟩
      rw [hname] at hother
      cases hother
      rfl
    · rintro rfl
      exact .constantKey hname
    · simp only [add, hname]
      exact pairs.push_eq _
  | none =>
    refine .none ?_ fun pairs => ?_
    · rintro _ ⟨hother⟩
      rw [hname] at hother
      cases hother
    · simp only [add, hname]
      exact pairs.skip_eq

theorem contributes_addArguments (arguments : List Argument) :
    Contributes (ArgumentsGive arguments) fun pairs => pairs.addArguments arguments := by
  rcases arguments with _ | ⟨key, _ | ⟨value, _ | ⟨third, rest⟩⟩⟩
  · exact .none (fun _ hgives => nomatch hgives) skip_eq
  · exact .none (fun _ hgives => nomatch hgives) skip_eq
  · refine (contributes_add key.value value.value).congr (fun parameter => ?_) fun _ => rfl
    exact ⟨fun ⟨hpair⟩ => hpair, .pair⟩
  · exact .none (fun _ hgives => nomatch hgives) skip_eq

theorem contributes_collectPair (expression : Operation) :
    Contributes (ExpressionGives table expression) fun pairs =>
      collectPair table expression pairs := by
  -- an expression of any other shape gives nothing
  have hskip (hconstructor : ∀ creation, expression.unwrap.shape = .objectCreation creation →
        ¬ expression.unwrap.type.any table.isStringPair = true)
      (hfactory : ∀ call, expression.unwrap.shape = .invocation call →
        ¬ table.keyValuePairCreate.contains call.method.definition = true) :
      ∀ parameter, ¬ ExpressionGives table expression parameter := by
    rintro parameter (⟨creation, hshape, htype, -⟩ | ⟨call, hshape, hmethod, -⟩)
    · exact hconstructor creation hshape htype
    · exact hfactory call hshape hmethod
  cases hshape : expression.unwrap.shape with
  | objectCreation creation =>
    by_cases htype : expression.unwrap.type.any table.isStringPair = true
    · refine (contributes_addArguments creation.arguments).congr (fun parameter => ⟨?_, ?_⟩) ?_
      · rintro (⟨creation', hshape', -, harguments⟩ | ⟨call, hshape', -, -⟩)
        · cases hshape.symm.trans hshape'
          exact harguments
        · cases hshape.symm.trans hshape'
      · exact .constructor creation hshape htype
      · intro pairs
        simp only [collectPair, hshape, if_pos htype]
    · refine .none (hskip (fun _ _ => htype) ?_) fun pairs => ?_
      · intro call hshape'
        cases hshape.symm.trans hshape'
      · simp only [collectPair, hshape, if_neg htype]
        exact pairs.skip_eq
  | invocation call =>
    by_cases hmethod : table.keyValuePairCreate.contains call.method.definition = true
    · refine (contributes_addArguments call.arguments).congr (fun parameter => ⟨?_, ?_⟩) ?_
      · rintro (⟨creation, hshape', -, -⟩ | ⟨call', hshape', -, harguments⟩)
        · cases hshape.symm.trans hshape'
        · cases hshape.symm.trans hshape'
          exact harguments
      · exact .factory call hshape hmethod
      · intro pairs
        simp only [collectPair, hshape, if_pos hmethod]
    · refine .none (hskip ?_ ?_) fun pairs => ?_
      · intro creation hshape'
        cases hshape.symm.trans hshape'
      · intro call' hshape'
        cases hshape.symm.trans hshape'
        exact hmethod
      · simp only [collectPair, hshape, if_neg hmethod]
        exact pairs.skip_eq
  | _ =>
    refine .none (hskip ?_ ?_) fun pairs => ?_
    · intro creation hshape'
      cases hshape.symm.trans hshape'
    · intro call hshape'
      cases hshape.symm.trans hshape'
    · simp only [collectPair, hshape]
      exact pairs.skip_eq

/-- An item that calls a method gives what its arguments give: one is a pair, two are a key and a
value. -/
theorem itemGives_invocation_iff {item : Operation} {method : MethodRef}
    {receiver : Option Operation} {arguments : List Argument}
    (hshape : item.shape = .invocation ⟨method, receiver, arguments⟩) (parameter : Parameter) :
    ItemGives table item parameter ↔
      ArgumentsGive arguments parameter ∨
        ∃ argument, arguments = [argument] ∧ ExpressionGives table argument.value parameter := by
  constructor
  · rintro (⟨call', hshape', harguments⟩ | ⟨call', argument, hshape', hargument, hgives⟩ |
      ⟨target, value, name, index, hshape', -, -⟩)
    · cases hshape.symm.trans hshape'
      exact .inl harguments
    · cases hshape.symm.trans hshape'
      exact .inr ⟨argument, hargument, hgives⟩
    · cases hshape.symm.trans hshape'
  · rintro (harguments | ⟨argument, hargument, hgives⟩)
    · exact .keyAndValue _ hshape harguments
    · exact .pair _ argument hshape hargument hgives

/-- An item that assigns to an indexer gives the pair of the index and the value. -/
theorem itemGives_assignment_iff {item target value : Operation}
    (hshape : item.shape = .assignment target value) (parameter : Parameter) :
    ItemGives table item parameter ↔
      ∃ name index, target.shape = .propertyReference name [index] ∧
        PairGives index.value value parameter := by
  constructor
  · rintro (⟨call, hshape', -⟩ | ⟨call, argument, hshape', -, -⟩ |
      ⟨target', value', name, index, hshape', htarget, hpair⟩)
    · cases hshape.symm.trans hshape'
    · cases hshape.symm.trans hshape'
    · cases hshape.symm.trans hshape'
      exact ⟨name, index, htarget, hpair⟩
  · rintro ⟨name, index, htarget, hpair⟩
    exact .indexer target value name index hshape htarget hpair

theorem contributes_collectItem (item : Operation) :
    Contributes (ItemGives table item) fun pairs => collectItem table item pairs := by
  cases hshape : item.shape with
  | invocation call =>
    obtain ⟨method, receiver, arguments⟩ := call
    have hgives := itemGives_invocation_iff table hshape
    rcases arguments with _ | ⟨first, _ | ⟨second, _ | ⟨third, rest⟩⟩⟩
    · refine .none (fun parameter hitem => ?_) fun pairs => ?_
      · rcases (hgives parameter).mp hitem with harguments | ⟨_, hargument, -⟩
        · cases harguments
        · cases hargument
      · simp only [collectItem, hshape]
        exact pairs.skip_eq
    · refine (contributes_collectPair table first.value).congr (fun parameter => ?_) fun pairs => ?_
      · rw [hgives]
        constructor
        · rintro (harguments | ⟨argument, hargument, hexpression⟩)
          · cases harguments
          · cases hargument
            exact hexpression
        · exact fun hexpression => .inr ⟨first, rfl, hexpression⟩
      · simp only [collectItem, hshape]
    · refine (contributes_add first.value second.value).congr (fun parameter => ?_) fun pairs => ?_
      · rw [hgives]
        constructor
        · rintro (harguments | ⟨_, hargument, -⟩)
          · cases harguments with
            | pair hpair => exact hpair
          · cases hargument
        · exact fun hpair => .inl (.pair hpair)
      · simp only [collectItem, hshape]
    · refine .none (fun parameter hitem => ?_) fun pairs => ?_
      · rcases (hgives parameter).mp hitem with harguments | ⟨_, hargument, -⟩
        · cases harguments
        · cases hargument
      · simp only [collectItem, hshape]
        exact pairs.skip_eq
  | assignment target value =>
    have hgives := itemGives_assignment_iff table hshape
    by_cases hindexer : ∃ name index, target.shape = .propertyReference name [index]
    · obtain ⟨name, index, htarget⟩ := hindexer
      refine (contributes_add index.value value).congr (fun parameter => ?_) fun pairs => ?_
      · rw [hgives]
        constructor
        · rintro ⟨name', index', htarget', hpair⟩
          cases htarget.symm.trans htarget'
          exact hpair
        · exact fun hpair => ⟨name, index, htarget, hpair⟩
      · simp only [collectItem, hshape, htarget]
    · refine .none (fun parameter hitem => ?_) fun pairs => ?_
      · obtain ⟨name, index, htarget, -⟩ := (hgives parameter).mp hitem
        exact hindexer ⟨name, index, htarget⟩
      · simp only [collectItem, hshape]
        split
        · next name index htarget => exact absurd ⟨name, index, htarget⟩ hindexer
        · exact pairs.skip_eq
  | _ =>
    refine .none (fun parameter hitem => ?_) fun pairs => ?_
    · rcases hitem with ⟨_, hshape', -⟩ | ⟨_, _, hshape', -, -⟩ | ⟨_, _, _, _, hshape', -, -⟩ <;>
        cases hshape.symm.trans hshape'
    · simp only [collectItem, hshape]
      exact pairs.skip_eq

/-! ## Known collections -/

/-- Whether an expression of this shape can show a collection or stand for one. -/
def holdsPairs : Shape → Bool
  | .objectCreation _ => true
  | .arrayCreation _ => true
  | .localReference _ _ => true
  | .fieldReference _ _ => true
  | .parameterReference _ => true
  | .propertyReference _ _ => true
  | .invocation _ => true
  | _ => false

/-- Whether an expression is a collection of pairs, under conversions, in a shape that shows its
pairs or stands for them. -/
def isKnown (expression : Operation) : Bool :=
  isCollection table expression.unwrap.type && holdsPairs expression.unwrap.shape

/-- An expression puts its pairs behind those found before, unless it is no known collection. -/
def Appends (expression : Operation) : Prop :=
  ∀ pairs, collect table expression pairs =
    if isKnown table expression then (true, pairs ++ (collect table expression {}).2)
    else (false, pairs)

variable {table}

/-- A name stands for its initializer or for itself. -/
theorem collect_reference {operation : Operation} {name : String}
    (hname : operation.referenceName? = some name) (pairs : Pairs) :
    collect table operation pairs =
      if isCollection table operation.type then
        (true, collectInitializer table name operation.type operation.initializer? pairs)
      else (false, pairs) := by
  obtain ⟨type, constant, shape⟩ := operation
  cases shape with
  | localReference | fieldReference | parameterReference | propertyReference | invocation =>
    cases hname
    rfl
  | _ => cases hname

theorem isKnown_reference {operation : Operation} {name : String}
    (hname : operation.referenceName? = some name) :
    isKnown table operation = isCollection table operation.type := by
  obtain ⟨type, constant, shape⟩ := operation
  cases shape with
  | localReference | fieldReference | parameterReference | propertyReference | invocation =>
    exact Bool.and_true _
  | _ => cases hname

theorem isKnown_of_not_holdsPairs {expression : Operation}
    (hshape : holdsPairs expression.unwrap.shape = false) : isKnown table expression = false := by
  rw [isKnown, hshape, Bool.and_false]

theorem mem_parts_of_initializer {operation initial : Operation}
    (hinitial : operation.initializer? = some initial) : initial ∈ operation.shape.parts := by
  obtain ⟨type, constant, shape⟩ := operation
  cases shape with
  | localReference | fieldReference => exact Option.mem_toList.mpr hinitial
  | _ => cases hinitial

theorem collectInitializer_none (name : String) (type : Option TypeRef) (pairs : Pairs) :
    collectInitializer table name type none pairs = pairs.addOpaque name type := rfl

theorem collectInitializer_some {initial : Operation} (h : Appends table initial) (name : String)
    (type : Option TypeRef) (pairs : Pairs) :
    collectInitializer table name type (some initial) pairs =
      if isKnown table initial then pairs ++ (collect table initial {}).2
      else pairs.addOpaque name type := by
  rw [collectInitializer, h pairs]
  cases isKnown table initial <;> rfl

theorem collectArgument_eq {argument : Argument} (h : Appends table argument.value)
    (pairs : Pairs) :
    collectArgument table argument pairs =
      if isKnown table argument.value then pairs ++ (collect table argument.value {}).2
      else pairs := by
  obtain ⟨parameter, value⟩ := argument
  rw [collectArgument, h pairs]
  cases htype : isCollection table value.unwrap.type with
  | true => cases isKnown table value <;> rfl
  | false =>
    have hunknown : isKnown table value = false := by rw [isKnown, htype, Bool.false_and]
    rw [hunknown]
    rfl

theorem collectArguments_eq {arguments : List Argument}
    (h : ∀ part ∈ arguments.map Argument.value, Appends table part) (pairs : Pairs) :
    collectArguments table arguments pairs = pairs ++ collectArguments table arguments {} := by
  induction arguments generalizing pairs with
  | nil => exact (Pairs.append_empty pairs).symm
  | cons argument rest ih =>
    have hargument := collectArgument_eq (h argument.value List.mem_cons_self)
    have hrest := ih fun part hpart => h part (List.mem_cons_of_mem _ hpart)
    rw [collectArguments, collectArguments, hrest, hrest (collectArgument table argument {}),
      hargument pairs, hargument {}]
    split
    · rw [Pairs.empty_append, Pairs.append_assoc]
    · rw [Pairs.empty_append]

theorem collectCreation_eq {creation : ObjectCreation}
    (h : ∀ part ∈ creation.arguments.map Argument.value, Appends table part) (pairs : Pairs) :
    collectCreation table creation pairs = pairs ++ collectCreation table creation {} := by
  obtain ⟨method, arguments, initializer⟩ := creation
  have hitems : ∀ found, collectItems table (initializer.getD []) found =
      found ++ collectItems table (initializer.getD []) {} :=
    Pairs.foldl_eq (contributes_collectItem table) _
  rw [collectCreation, collectCreation, hitems, hitems (collectArguments table arguments {}),
    collectArguments_eq h, Pairs.append_assoc]

/-- An expression that adds pairs only if its type is that of a collection. -/
theorem appends_of_guarded {expression : Operation} {type : Option TypeRef} {add : Pairs → Pairs}
    (hknown : isKnown table expression = isCollection table type)
    (hcollect : ∀ pairs, collect table expression pairs =
      if isCollection table type then (true, add pairs) else (false, pairs))
    (hadd : ∀ pairs, add pairs = pairs ++ add {}) : Appends table expression := by
  intro pairs
  rw [hcollect, hcollect, hknown, hadd]
  cases isCollection table type <;> rfl

/-- What an expression adds does not depend on what was found before it; an expression that is no
known collection adds nothing. -/
theorem collect_eq (expression : Operation) : Appends table expression := by
  induction expression using Operation.inductionOnParts with
  | h operation ih =>
    cases hname : operation.referenceName? with
    | some name =>
      refine appends_of_guarded (isKnown_reference hname) (collect_reference hname) fun pairs => ?_
      cases hinitial : operation.initializer? with
      | none => exact pairs.push_eq _
      | some initial =>
        have hpart := ih initial (mem_parts_of_initializer hinitial)
        rw [collectInitializer_some hpart, collectInitializer_some hpart]
        split
        · rfl
        · exact pairs.push_eq _
    | none =>
      obtain ⟨type, constant, shape⟩ := operation
      cases shape with
      | conversion operand => exact ih operand (List.mem_singleton_self operand)
      | arrayCreation elements =>
        exact appends_of_guarded (Bool.and_true _) (fun _ => rfl)
          (Pairs.foldl_eq (contributes_collectPair table) elements)
      | objectCreation creation =>
        refine appends_of_guarded (Bool.and_true _) (fun _ => rfl) (collectCreation_eq ?_)
        exact fun part hpart => ih part (List.mem_append_left _ hpart)
      | localReference | fieldReference | parameterReference | propertyReference | invocation =>
        cases hname
      | literal | anonymousObjectCreation | defaultValue | assignment | other =>
        intro pairs
        rw [isKnown_of_not_holdsPairs rfl]
        rfl

end KeyValue

end LogCensus
