import LogCensus.Proofs.Extraction.Completeness

/-!
# Collecting behind what was found before

One accumulator goes through a whole collection: through the collections that are copied, the items
of initializers and the initializers of names. Here the collection of an expression is compared with
its collection from nothing.

* `KeyValue.fst_collect`: whether an expression is a known collection, by its type and its shape.
* `KeyValue.collect_opaque`: a name without an initializer that is a known collection.
* `KeyValue.collect_composes`: the pairs of an expression come behind those found before, and an
  expression that is no known collection leaves them as they are.
-/

namespace LogCensus.KeyValue

variable {table : WellKnown}

/-- A collection is looked for under conversions. -/
theorem collect_unwrap (expression : Operation) (pairs : Pairs) :
    collect table expression.unwrap pairs = collect table expression pairs := by
  induction expression using Operation.inductionOnParts with
  | h operation ih =>
    obtain ⟨type, constant, shape⟩ := operation
    cases shape with
    | conversion operand => exact ih operand (List.mem_singleton_self operand)
    | _ => rfl

theorem fst_collect (expression : Operation) (pairs : Pairs) :
    (collect table expression pairs).1 = isKnown table expression := by
  rw [collect_eq expression pairs]
  cases isKnown table expression <;> rfl

/-- A name of a collection without an initializer that is a known collection stands for itself. -/
theorem collect_opaque {reference : Operation} {name : String} {pairs : Pairs}
    (hname : reference.referenceName? = some name)
    (htype : isCollection table reference.type = true)
    (hunknown : ∀ initial, reference.initializer? = some initial →
      (collect table initial pairs).1 = false) :
    collect table reference pairs = (true, pairs.addOpaque name reference.type) := by
  rw [collect_reference hname, if_pos htype]
  cases hinitial : reference.initializer? with
  | none => rw [collectInitializer_none]
  | some initial =>
    have hinitialUnknown := hunknown initial hinitial
    rw [fst_collect] at hinitialUnknown
    rw [collectInitializer_some (collect_eq initial), hinitialUnknown, if_neg Bool.false_ne_true]

/-- Whether an expression is a known collection does not depend on the pairs found before it. If it
is one, its own pairs come behind those, and nothing is missing when nothing is missing from either;
if it is none, the pairs found before stay as they are. So a name of collection type without an
initializer that is a known collection adds one parameter for itself and nothing else. -/
theorem collect_composes (table : WellKnown) (expression : Operation) (pairs : Pairs) :
    (collect table expression pairs).1 = (collect table expression {}).1 ∧
    ((collect table expression pairs).1 = true ↔ isKnown table expression = true) ∧
    ((collect table expression pairs).1 = true →
      (collect table expression pairs).2.parameters =
          pairs.parameters ++ (collect table expression {}).2.parameters ∧
        (collect table expression pairs).2.complete =
          (pairs.complete && (collect table expression {}).2.complete)) ∧
    ((collect table expression pairs).1 = false → (collect table expression pairs).2 = pairs) ∧
    (∀ name, expression.unwrap.referenceName? = some name →
      isCollection table expression.unwrap.type = true →
      (∀ initial, expression.unwrap.initializer? = some initial →
        (collect table initial pairs).1 = false) →
      collect table expression pairs =
        (true,
          ⟨pairs.parameters ++ [⟨name, expression.unwrap.typeDisplay, .keyValueCollection, none⟩],
            pairs.complete⟩)) := by
  refine ⟨by rw [fst_collect, fst_collect], by rw [fst_collect], fun hknown => ?_,
    fun hunknown => ?_, fun name hname htype hunknown => ?_⟩
  · rw [fst_collect] at hknown
    rw [collect_eq expression pairs, if_pos hknown]
    exact ⟨rfl, rfl⟩
  · rw [fst_collect] at hunknown
    rw [collect_eq expression pairs, hunknown, if_neg Bool.false_ne_true]
  · rw [← collect_unwrap, collect_opaque hname htype hunknown]
    rfl

/-- A field whose initializer chooses between two collections, behind one pair that was found. -/
theorem collect_composes_conditionalField :
    let reference : Operation :=
      { type := some dictionaryType
        shape := .fieldReference "scopeState"
          (some { type := some dictionaryType, shape := .other }) }
    let found : Parameter := ⟨"UserId", "int", .literal, none⟩
    collect pairTable reference ⟨[found], false⟩ =
      (true, ⟨[found, ⟨"scopeState", "Dictionary<string, object>", .keyValueCollection, none⟩],
        false⟩) := by
  intro reference found
  refine (collect_composes pairTable reference ⟨[found], false⟩).2.2.2.2 "scopeState" rfl
    (by decide) fun initial hinitial => ?_
  obtain rfl := Option.some.inj hinitial
  decide

end LogCensus.KeyValue
