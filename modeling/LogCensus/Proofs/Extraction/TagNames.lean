import LogCensus.Extraction.MethodSignature

/-!
# Tag names

An attribute can give a formal parameter a tag name. It is the text of one argument of the first
attribute of the right class, and which argument that is depends on what the arguments are called.

* `HoldsTagName`: the argument of an attribute that holds the tag name.
* `HasTagName`: the tag name of a formal parameter.
* `IsMadeFrom`: what a parameter of a message has from its formal parameter.
-/

namespace LogCensus.MethodSignature

variable {table : WellKnown} {parameter : ParameterSymbol} {applied : Attribute}
  {arguments : List AttributeArgument} {argument : AttributeArgument}

/-- Whether an argument of an attribute is called `tagName`, in any case of ASCII letters. -/
def IsTagName (argument : AttributeArgument) : Prop :=
  Text.eqIgnoringCase argument.name "tagName" = true

instance : Decidable (IsTagName argument) :=
  inferInstanceAs (Decidable (_ = true))

/-- The argument that holds the tag name: the first named argument that is called so; without one,
the first argument of the constructor that is called so; without one, the first argument of the
constructor. -/
inductive HoldsTagName (applied : Attribute) : AttributeArgument → Prop
  | named {before after : List AttributeArgument} {argument : AttributeArgument}
      (hnamed : applied.namedArguments = before ++ argument :: after)
      (hbefore : ∀ other ∈ before, ¬ IsTagName other) (htag : IsTagName argument) :
      HoldsTagName applied argument
  | constructor {before after : List AttributeArgument} {argument : AttributeArgument}
      (hnamed : ∀ other ∈ applied.namedArguments, ¬ IsTagName other)
      (hconstructor : applied.constructorArguments = before ++ argument :: after)
      (hbefore : ∀ other ∈ before, ¬ IsTagName other) (htag : IsTagName argument) :
      HoldsTagName applied argument
  | first {rest : List AttributeArgument} {argument : AttributeArgument}
      (hnamed : ∀ other ∈ applied.namedArguments, ¬ IsTagName other)
      (hconstructor : applied.constructorArguments = argument :: rest)
      (hnone : ∀ other ∈ applied.constructorArguments, ¬ IsTagName other) :
      HoldsTagName applied argument

/-- The tag name of a formal parameter: the text in the first of its attributes whose class is that
of tag names. There is none without such a class, attribute, argument or text. -/
def HasTagName (table : WellKnown) (parameter : ParameterSymbol) (tag : String) : Prop :=
  ∃ before applied after argument, parameter.attributes = before ++ applied :: after ∧
    table.tagNameAttribute = some applied.type ∧
    (∀ other ∈ before, table.tagNameAttribute ≠ some other.type) ∧
    HoldsTagName applied argument ∧ argument.value = some (.string tag)

/-- Whether a parameter of a message is made from a formal parameter: it has the name of that one,
the display text of its type, `object` when that is empty, and its tag name. -/
structure IsMadeFrom (table : WellKnown) (parameter : ParameterSymbol) (made : Parameter) :
    Prop where
  name_eq : made.name = parameter.name
  type_eq : made.type = if parameter.type.display = "" then "object" else parameter.type.display
  kind_eq : made.kind = .methodParameter
  tag_iff : ∀ tag, made.customTagName = some tag ↔ HasTagName table parameter tag

/-! ## The argument -/

theorem find?_tagName_eq_some_iff :
    (arguments.find? fun argument => Text.eqIgnoringCase argument.name "tagName") = some argument ↔
      IsTagName argument ∧ ∃ before after, arguments = before ++ argument :: after ∧
        ∀ other ∈ before, ¬ IsTagName other := by
  simp only [List.find?_eq_some_iff_append, IsTagName, Bool.not_eq_true']
  simp only [Bool.not_eq_true]

theorem find?_tagName_eq_none_iff :
    (arguments.find? fun argument => Text.eqIgnoringCase argument.name "tagName") = none ↔
      ∀ other ∈ arguments, ¬ IsTagName other :=
  List.find?_eq_none

theorem argument?_tagName_iff :
    (applied.argument? "tagName" <|> applied.constructorArguments.head?) = some argument ↔
      HoldsTagName applied argument := by
  rw [Attribute.argument?]
  constructor
  · intro h
    cases hnamed : applied.namedArguments.find?
        fun argument => Text.eqIgnoringCase argument.name "tagName" with
    | some found =>
      rw [hnamed] at h
      cases h
      obtain ⟨htag, before, after, heq, hbefore⟩ := find?_tagName_eq_some_iff.mp hnamed
      exact .named heq hbefore htag
    | none =>
      have hnone := find?_tagName_eq_none_iff.mp hnamed
      cases hconstructor : applied.constructorArguments.find?
          fun argument => Text.eqIgnoringCase argument.name "tagName" with
      | some found =>
        rw [hnamed, hconstructor] at h
        cases h
        obtain ⟨htag, before, after, heq, hbefore⟩ := find?_tagName_eq_some_iff.mp hconstructor
        exact .constructor hnone heq hbefore htag
      | none =>
        rw [hnamed, hconstructor] at h
        obtain ⟨rest, heq⟩ := List.head?_eq_some_iff.mp h
        exact .first hnone heq (find?_tagName_eq_none_iff.mp hconstructor)
  · intro h
    cases h with
    | named hnamed hbefore htag =>
      rw [find?_tagName_eq_some_iff.mpr ⟨htag, _, _, hnamed, hbefore⟩]
      rfl
    | constructor hnamed hconstructor hbefore htag =>
      rw [find?_tagName_eq_none_iff.mpr hnamed,
        find?_tagName_eq_some_iff.mpr ⟨htag, _, _, hconstructor, hbefore⟩]
      rfl
    | first hnamed hconstructor hnone =>
      rw [find?_tagName_eq_none_iff.mpr hnamed, find?_tagName_eq_none_iff.mpr hnone, hconstructor]
      rfl

/-! ## The tag name -/

theorem asString?_eq_some_iff {value : Constant} {text : String} :
    value.asString? = some text ↔ value = .string text := by
  cases value <;> simp [Constant.asString?]

theorem customTagName?_eq_some_iff {tag : String} :
    customTagName? table parameter = some tag ↔ HasTagName table parameter tag := by
  simp only [customTagName?, Option.bind_eq_bind, Option.bind_eq_some_iff, argument?_tagName_iff,
    asString?_eq_some_iff, List.find?_eq_some_iff_append, beq_iff_eq]
  constructor
  · rintro ⟨_, htype, applied, ⟨rfl, before, after, heq, hbefore⟩, argument, hholds, _, hvalue, rfl⟩
    refine ⟨before, applied, after, argument, heq, htype, ?_, hholds, hvalue⟩
    intro other hother hsame
    have hne := hbefore other hother
    rw [Option.some.inj (htype.symm.trans hsame), beq_self_eq_true] at hne
    exact absurd hne (by decide)
  · rintro ⟨before, applied, after, argument, heq, htype, hbefore, hholds, hvalue⟩
    refine ⟨_, htype, applied, ⟨rfl, before, after, heq, ?_⟩, argument, hholds, _, hvalue, rfl⟩
    intro other hother
    have hne : other.type ≠ applied.type := fun hsame => hbefore other hother (hsame ▸ htype)
    rw [beq_eq_false_iff_ne.mpr hne]
    rfl

/-- The parameter of a message that is made from a formal parameter. -/
theorem isMadeFrom_toParameter (table : WellKnown) (parameter : ParameterSymbol) :
    IsMadeFrom table parameter (toParameter table parameter) := by
  refine ⟨rfl, ?_, rfl, fun tag => customTagName?_eq_some_iff⟩
  simp only [toParameter, TypeRef.displayOrObject, String.isEmpty_iff]

end LogCensus.MethodSignature
