import LogCensus.Proofs.Extraction.Pairs

/-!
# Complete collections

An extraction from a collection of pairs is complete when nothing of the collection is missing from
its parameters. A success says so of the elements of arrays and of the items of initializers, but
not of the collections that a created collection copies: an argument that is a collection in a shape
that shows no pairs, such as a conditional expression, is passed over without a note.

* `KeyValue.Shows`: the parameters show a whole collection, with the arguments that are required.
* `KeyValue.Overlooks`: the extraction passes over a required argument.
* `KeyValue.shows_iff`: a collection is shown when the extraction succeeds and overlooks nothing.
* `KeyValue.success_shows_iff`: what a success says, and what is missing for a whole collection.
-/

namespace LogCensus.KeyValue

section

variable (table : WellKnown) (required : Operation → Prop)

mutual
/-- The parameters show a whole collection, in order: one for each element of an array, one for each
item of an initializer and, before these, those of every required argument of the constructor. A
local or a field is shown by its initializer; a name whose initializer is not visible, or is no
known collection, is shown by one parameter for itself. -/
inductive Shows : Operation → List Parameter → Prop
  | conversion {type : Option TypeRef} {constant : Option Constant} {operand : Operation}
      {parameters : List Parameter} (hoperand : Shows operand parameters) :
      Shows ⟨type, constant, .conversion operand⟩ parameters
  | array {type : Option TypeRef} {constant : Option Constant} {elements : List Operation}
      {parameters : List Parameter} (htype : isCollection table type = true)
      (helements : List.Forall₂ (ExpressionGives table) elements parameters) :
      Shows ⟨type, constant, .arrayCreation elements⟩ parameters
  | creation {type : Option TypeRef} {constant : Option Constant} {method : Option MethodRef}
      {arguments : List Argument} {initializer : Option (List Operation)}
      {copied added : List Parameter} (htype : isCollection table type = true)
      (harguments : ShowsCopies arguments copied)
      (hitems : List.Forall₂ (ItemGives table) (initializer.getD []) added) :
      Shows ⟨type, constant, .objectCreation ⟨method, arguments, initializer⟩⟩ (copied ++ added)
  | initializer {operation initial : Operation} {parameters : List Parameter}
      (htype : isCollection table operation.type = true)
      (hinitial : operation.initializer? = some initial) (hshows : Shows initial parameters) :
      Shows operation parameters
  | name {operation : Operation} {name : String}
      (htype : isCollection table operation.type = true)
      (hname : operation.referenceName? = some name)
      (hunknown : ∀ initial, operation.initializer? = some initial →
        isKnown table initial = false) :
      Shows operation [⟨name, operation.typeDisplay, .keyValueCollection, none⟩]
/-- The parameters show the required arguments of a constructor, one after another. -/
inductive ShowsCopies : List Argument → List Parameter → Prop
  | nil : ShowsCopies [] []
  | other {argument : Argument} {rest : List Argument} {parameters : List Parameter}
      (hrequired : ¬ required argument.value) (hrest : ShowsCopies rest parameters) :
      ShowsCopies (argument :: rest) parameters
  | copy {argument : Argument} {rest : List Argument} {copied parameters : List Parameter}
      (hcopied : Shows argument.value copied) (hrest : ShowsCopies rest parameters) :
      ShowsCopies (argument :: rest) (copied ++ parameters)
end

/-- The extraction follows an expression to a created collection and passes over a required argument
of its constructor. -/
inductive Overlooks : Operation → Prop
  | conversion {type : Option TypeRef} {constant : Option Constant} {operand : Operation}
      (hoperand : Overlooks operand) : Overlooks ⟨type, constant, .conversion operand⟩
  | initializer {operation initial : Operation} (htype : isCollection table operation.type = true)
      (hinitial : operation.initializer? = some initial) (hoverlooks : Overlooks initial) :
      Overlooks operation
  | copied {type : Option TypeRef} {constant : Option Constant} {creation : ObjectCreation}
      {argument : Argument} (htype : isCollection table type = true)
      (hargument : argument ∈ creation.arguments) (hoverlooks : Overlooks argument.value) :
      Overlooks ⟨type, constant, .objectCreation creation⟩
  | argument {type : Option TypeRef} {constant : Option Constant} {creation : ObjectCreation}
      {argument : Argument} (htype : isCollection table type = true)
      (hargument : argument ∈ creation.arguments) (hrequired : required argument.value)
      (hunknown : isKnown table argument.value = false) :
      Overlooks ⟨type, constant, .objectCreation creation⟩

end

variable {table : WellKnown} {required : Operation → Prop} {operation : Operation}
  {parameters : List Parameter}

theorem referenceName?_of_initializer {initial : Operation}
    (hinitial : operation.initializer? = some initial) :
    ∃ name, operation.referenceName? = some name := by
  obtain ⟨type, constant, shape⟩ := operation
  cases shape with
  | localReference name | fieldReference name => exact ⟨name, rfl⟩
  | _ => cases hinitial

/-- Only a known collection is followed far enough to overlook something. -/
theorem Overlooks.isKnown (h : Overlooks table required operation) :
    isKnown table operation = true := by
  induction h with
  | conversion _ ih => exact ih
  | initializer htype hinitial =>
    obtain ⟨name, hname⟩ := referenceName?_of_initializer hinitial
    rw [isKnown_reference hname, htype]
  | copied htype => exact (Bool.and_true _).trans htype
  | argument htype => exact (Bool.and_true _).trans htype

theorem not_overlooks_of_unknown (hunknown : isKnown table operation = false) :
    ¬ Overlooks table required operation := by
  intro hoverlooks
  rw [hoverlooks.isKnown] at hunknown
  cases hunknown

/-! ## One level of a collection -/

/-- The extraction from an expression finds exactly what shows it, unless it overlooks something. -/
def FoundWhenShown (table : WellKnown) (required : Operation → Prop) (operation : Operation) :
    Prop :=
  ∀ parameters, Shows table required operation parameters ↔
    collect table operation {} = (true, ⟨parameters, true⟩) ∧ ¬ Overlooks table required operation

theorem shows_reference_iff {name : String} (hname : operation.referenceName? = some name) :
    Shows table required operation parameters ↔ isCollection table operation.type = true ∧
      ((∃ initial, operation.initializer? = some initial ∧
          Shows table required initial parameters) ∨
        ((∀ initial, operation.initializer? = some initial → isKnown table initial = false) ∧
          parameters = [⟨name, operation.typeDisplay, .keyValueCollection, none⟩])) := by
  constructor
  · intro h
    cases h with
    | conversion => cases hname
    | array => cases hname
    | creation => cases hname
    | initializer htype hinitial hshows => exact ⟨htype, .inl ⟨_, hinitial, hshows⟩⟩
    | name htype hname' hunknown =>
      cases hname.symm.trans hname'
      exact ⟨htype, .inr ⟨hunknown, rfl⟩⟩
  · rintro ⟨htype, ⟨initial, hinitial, hshows⟩ | ⟨hunknown, rfl⟩⟩
    · exact .initializer htype hinitial hshows
    · exact .name htype hname hunknown

theorem overlooks_reference_iff {name : String} (hname : operation.referenceName? = some name) :
    Overlooks table required operation ↔ isCollection table operation.type = true ∧
      ∃ initial, operation.initializer? = some initial ∧ Overlooks table required initial := by
  constructor
  · intro h
    cases h with
    | conversion => cases hname
    | initializer htype hinitial hoverlooks => exact ⟨htype, _, hinitial, hoverlooks⟩
    | copied => cases hname
    | argument => cases hname
  · rintro ⟨htype, initial, hinitial, hoverlooks⟩
    exact .initializer htype hinitial hoverlooks

/-- A known collection is found complete when its own pairs are. -/
theorem collect_eq_complete_iff (hknown : isKnown table operation = true) :
    collect table operation {} = (true, ⟨parameters, true⟩) ↔
      (collect table operation {}).2 = ⟨parameters, true⟩ := by
  rw [collect_eq operation {}, if_pos hknown, Prod.mk.injEq]
  exact and_iff_right rfl

/-- An expression that is no known collection is not shown by anything. -/
theorem FoundWhenShown.not_shows (h : FoundWhenShown table required operation)
    (hunknown : isKnown table operation = false) :
    ¬ Shows table required operation parameters := by
  intro hshows
  have hcollect := ((h parameters).mp hshows).1
  rw [collect_eq operation {}, hunknown] at hcollect
  cases hcollect

theorem foundWhenShown_reference {name : String} (hname : operation.referenceName? = some name)
    (ih : ∀ initial, operation.initializer? = some initial →
      FoundWhenShown table required initial) :
    FoundWhenShown table required operation := by
  intro parameters
  rw [shows_reference_iff hname, overlooks_reference_iff hname, collect_reference hname]
  cases htype : isCollection table operation.type with
  | false => simp
  | true =>
    have hself : Pairs.addOpaque {} name operation.type = ⟨parameters, true⟩ ↔
        parameters = [⟨name, operation.typeDisplay, .keyValueCollection, none⟩] :=
      ⟨fun heq => (congrArg Pairs.parameters heq).symm, fun heq => heq ▸ rfl⟩
    cases hinitial : operation.initializer? with
    | none => simp [collectInitializer_none, hself]
    | some initial =>
      rw [collectInitializer_some (collect_eq initial)]
      cases hknown : isKnown table initial with
      | true =>
        simp [Pairs.empty_append, ← collect_eq_complete_iff hknown, ih initial hinitial parameters,
          hknown]
      | false =>
        have hshows : ¬ Shows table required initial parameters :=
          (ih initial hinitial).not_shows hknown
        have hoverlooks : ¬ Overlooks table required initial := not_overlooks_of_unknown hknown
        simp [hself, hshows, hoverlooks, hknown]

/-! ## Arguments that are copied -/

theorem showsCopies_nil_iff : ShowsCopies table required [] parameters ↔ parameters = [] :=
  ⟨fun h => by cases h; rfl, fun h => h ▸ .nil⟩

theorem showsCopies_cons_iff {argument : Argument} {rest : List Argument} :
    ShowsCopies table required (argument :: rest) parameters ↔
      (¬ required argument.value ∧ ShowsCopies table required rest parameters) ∨
        ∃ copied after, Shows table required argument.value copied ∧
          ShowsCopies table required rest after ∧ copied ++ after = parameters := by
  constructor
  · intro h
    cases h with
    | other hother hrest => exact .inl ⟨hother, hrest⟩
    | copy hcopied hrest => exact .inr ⟨_, _, hcopied, hrest, rfl⟩
  · rintro (⟨hother, hrest⟩ | ⟨copied, after, hcopied, hrest, rfl⟩)
    · exact .other hother hrest
    · exact .copy hcopied hrest

theorem showsCopies_iff (hrequired : ∀ value, isKnown table value = true → required value)
    {arguments : List Argument}
    (h : ∀ part ∈ arguments.map Argument.value, FoundWhenShown table required part) :
    ShowsCopies table required arguments parameters ↔
      collectArguments table arguments {} = ⟨parameters, true⟩ ∧
        ∀ argument ∈ arguments, (required argument.value → isKnown table argument.value = true) ∧
          ¬ Overlooks table required argument.value := by
  induction arguments generalizing parameters with
  | nil =>
    rw [showsCopies_nil_iff]
    exact ⟨fun heq => ⟨heq ▸ rfl, fun _ hmem => nomatch hmem⟩,
      fun ⟨heq, _⟩ => (congrArg Pairs.parameters heq).symm⟩
  | cons argument rest ih =>
    have hargument := h argument.value List.mem_cons_self
    have hcollect : collectArguments table (argument :: rest) {} =
        collectArgument table argument {} ++ collectArguments table rest {} := by
      rw [collectArguments]
      exact collectArguments_eq (fun part _ => collect_eq part) _
    rw [showsCopies_cons_iff, hcollect, collectArgument_eq (collect_eq _), List.forall_mem_cons]
    simp only [ih fun part hpart => h part (List.mem_cons_of_mem _ hpart)]
    cases hknown : isKnown table argument.value with
    | true =>
      rw [if_pos rfl, Pairs.empty_append, Pairs.append_eq_complete_iff]
      constructor
      · rintro (⟨hother, -⟩ | ⟨copied, after, hcopied, ⟨hafter, hrest⟩, rfl⟩)
        · exact absurd (hrequired _ hknown) hother
        · obtain ⟨hfound, hoverlooks⟩ := (hargument copied).mp hcopied
          rw [collect_eq_complete_iff hknown] at hfound
          exact ⟨⟨copied, after, hfound, hafter, rfl⟩, ⟨fun _ => rfl, hoverlooks⟩, hrest⟩
      · rintro ⟨⟨copied, after, hfound, hafter, rfl⟩, ⟨-, hoverlooks⟩, hrest⟩
        rw [← collect_eq_complete_iff hknown] at hfound
        have hcopied := (hargument copied).mpr ⟨hfound, hoverlooks⟩
        exact .inr ⟨copied, after, hcopied, ⟨hafter, hrest⟩, rfl⟩
    | false =>
      have hshows : ∀ copied, ¬ Shows table required argument.value copied :=
        fun _ => hargument.not_shows hknown
      have hoverlooks : ¬ Overlooks table required argument.value :=
        not_overlooks_of_unknown hknown
      simp only [hshows, false_and, exists_false, or_false, hoverlooks, not_false_eq_true, and_true,
        Bool.false_eq_true, if_false, Pairs.empty_append, imp_false]
      exact and_left_comm

/-! ## Created collections -/

section

variable {type : Option TypeRef} {constant : Option Constant} {method : Option MethodRef}
  {arguments : List Argument} {initializer : Option (List Operation)}

theorem shows_creation_iff :
    Shows table required ⟨type, constant, .objectCreation ⟨method, arguments, initializer⟩⟩
        parameters ↔
      isCollection table type = true ∧ ∃ copied added,
        ShowsCopies table required arguments copied ∧
          List.Forall₂ (ItemGives table) (initializer.getD []) added ∧
          copied ++ added = parameters := by
  constructor
  · intro h
    cases h with
    | creation htype harguments hitems => exact ⟨htype, _, _, harguments, hitems, rfl⟩
    | initializer _ hinitial => cases hinitial
    | name _ hname => cases hname
  · rintro ⟨htype, copied, added, harguments, hitems, rfl⟩
    exact .creation htype harguments hitems

theorem overlooks_creation_iff :
    Overlooks table required ⟨type, constant, .objectCreation ⟨method, arguments, initializer⟩⟩ ↔
      isCollection table type = true ∧ ∃ argument ∈ arguments,
        Overlooks table required argument.value ∨
          (required argument.value ∧ isKnown table argument.value = false) := by
  constructor
  · intro h
    cases h with
    | initializer _ hinitial => cases hinitial
    | copied htype hargument hoverlooks => exact ⟨htype, _, hargument, .inl hoverlooks⟩
    | argument htype hargument hrequired hunknown =>
      exact ⟨htype, _, hargument, .inr ⟨hrequired, hunknown⟩⟩
  · rintro ⟨htype, argument, hargument, hoverlooks | ⟨hrequired, hunknown⟩⟩
    · exact .copied htype hargument hoverlooks
    · exact .argument htype hargument hrequired hunknown

theorem foundWhenShown_creation (hrequired : ∀ value, isKnown table value = true → required value)
    (ih : ∀ part ∈ arguments.map Argument.value, FoundWhenShown table required part) :
    FoundWhenShown table required
      ⟨type, constant, .objectCreation ⟨method, arguments, initializer⟩⟩ := by
  intro parameters
  have hitems := Pairs.foldl_eq (contributes_collectItem table) (initializer.getD [])
    (collectArguments table arguments {})
  have hcollect : collect table
      ⟨type, constant, .objectCreation ⟨method, arguments, initializer⟩⟩ {} =
        if isCollection table type then
          (true, collectArguments table arguments {} ++
            collectItems table (initializer.getD []) {})
        else (false, {}) := by
    rw [collectItems, ← hitems]
    rfl
  rw [shows_creation_iff, overlooks_creation_iff, hcollect]
  cases isCollection table type with
  | false => simp
  | true =>
    rw [if_pos rfl, Prod.mk.injEq, Pairs.append_eq_complete_iff]
    have hcomplete := Pairs.foldl_eq_complete_iff (contributes_collectItem table)
      (initializer.getD [])
    constructor
    · rintro ⟨-, copied, added, harguments, hadded, rfl⟩
      obtain ⟨hcopied, hall⟩ := (showsCopies_iff hrequired ih).mp harguments
      refine ⟨⟨rfl, copied, added, hcopied, (hcomplete added).mpr hadded, rfl⟩, ?_⟩
      rintro ⟨-, argument, hargument, hoverlooks | ⟨hneeded, hunknown⟩⟩
      · exact (hall argument hargument).2 hoverlooks
      · rw [(hall argument hargument).1 hneeded] at hunknown
        cases hunknown
    · rintro ⟨⟨-, copied, added, hcopied, hadded, rfl⟩, hoverlooks⟩
      refine ⟨rfl, copied, added, (showsCopies_iff hrequired ih).mpr ⟨hcopied, ?_⟩,
        (hcomplete added).mp hadded, rfl⟩
      intro argument hargument
      refine ⟨fun hneeded => ?_, fun hnested => ?_⟩
      · by_contra hunknown
        rw [Bool.not_eq_true] at hunknown
        exact hoverlooks ⟨rfl, argument, hargument, .inr ⟨hneeded, hunknown⟩⟩
      · exact hoverlooks ⟨rfl, argument, hargument, .inl hnested⟩

end

/-! ## Whole collections -/

theorem shows_conversion_iff {type : Option TypeRef} {constant : Option Constant}
    {operand : Operation} :
    Shows table required ⟨type, constant, .conversion operand⟩ parameters ↔
      Shows table required operand parameters := by
  constructor
  · intro h
    cases h with
    | conversion hoperand => exact hoperand
    | initializer _ hinitial => cases hinitial
    | name _ hname => cases hname
  · exact .conversion

theorem overlooks_conversion_iff {type : Option TypeRef} {constant : Option Constant}
    {operand : Operation} :
    Overlooks table required ⟨type, constant, .conversion operand⟩ ↔
      Overlooks table required operand := by
  constructor
  · intro h
    cases h with
    | conversion hoperand => exact hoperand
    | initializer _ hinitial => cases hinitial
  · exact .conversion

theorem foundWhenShown_array {type : Option TypeRef} {constant : Option Constant}
    {elements : List Operation} :
    FoundWhenShown table required ⟨type, constant, .arrayCreation elements⟩ := by
  intro parameters
  have hcomplete := Pairs.foldl_eq_complete_iff (contributes_collectPair table) elements parameters
  have hoverlooks : ¬ Overlooks table required ⟨type, constant, .arrayCreation elements⟩ := by
    intro h
    cases h with
    | initializer _ hinitial => cases hinitial
  have hcollect : collect table ⟨type, constant, .arrayCreation elements⟩ {} =
      if isCollection table type then (true, collectElements table elements {})
      else (false, {}) := rfl
  rw [hcollect]
  constructor
  · intro h
    cases h with
    | array htype helements =>
      rw [if_pos htype]
      exact ⟨congrArg (Prod.mk true) (hcomplete.mpr helements), hoverlooks⟩
    | initializer _ hinitial => cases hinitial
    | name _ hname => cases hname
  · rintro ⟨hfound, -⟩
    split at hfound
    · next htype => exact .array htype (hcomplete.mp (Prod.mk.inj hfound).2)
    · cases hfound

/-- The parameters show a whole collection, with all arguments that are required, exactly when the
extraction finds them, skips nothing and overlooks nothing. At least the known collections have to
be required, since their pairs are always found. -/
theorem shows_iff (hrequired : ∀ value, isKnown table value = true → required value)
    (operation : Operation) : FoundWhenShown table required operation := by
  induction operation using Operation.inductionOnParts with
  | h operation ih =>
    cases hname : operation.referenceName? with
    | some name =>
      exact foundWhenShown_reference hname fun initial hinitial =>
        ih initial (mem_parts_of_initializer hinitial)
    | none =>
      obtain ⟨type, constant, shape⟩ := operation
      cases shape with
      | conversion operand =>
        intro parameters
        rw [shows_conversion_iff, overlooks_conversion_iff]
        exact ih operand (List.mem_singleton_self operand) parameters
      | arrayCreation elements => exact foundWhenShown_array
      | objectCreation creation =>
        obtain ⟨method, arguments, initializer⟩ := creation
        exact foundWhenShown_creation hrequired fun part hpart =>
          ih part (List.mem_append_left _ hpart)
      | localReference | fieldReference | parameterReference | propertyReference | invocation =>
        cases hname
      | literal | anonymousObjectCreation | defaultValue | assignment | other =>
        refine fun parameters => ⟨fun hshows => ?_, fun ⟨hcollect, _⟩ => nomatch hcollect⟩
        cases hshows with
        | initializer _ hinitial => cases hinitial
        | name _ hname' => cases hname'

theorem extract_success_iff (table : WellKnown) (argument : Operation)
    (parameters : List Parameter) :
    ((extract table argument).success = true ∧ (extract table argument).parameters = parameters) ↔
      collect table argument {} = (true, ⟨parameters, true⟩) := by
  rw [extract]
  rcases collect table argument {} with ⟨known, found, complete⟩
  cases known <;> simp [Outcome.found, Outcome.unsupported, and_comm]

/-- Nothing is overlooked when only known collections are required. -/
theorem not_overlooks_known (operation : Operation) :
    ¬ Overlooks table (isKnown table · = true) operation := by
  intro h
  induction h with
  | conversion _ ih => exact ih
  | initializer _ _ _ ih => exact ih
  | copied _ _ _ ih => exact ih
  | argument _ _ hrequired hunknown => exact Bool.false_ne_true (hunknown.symm.trans hrequired)

/-- The type of an expression, as it stands or under conversions, is that of a collection. -/
def HasCollectionType (table : WellKnown) (value : Operation) : Prop :=
  isCollection table value.type = true ∨ isCollection table value.unwrap.type = true

theorem hasCollectionType_of_isKnown (value : Operation) (hknown : isKnown table value = true) :
    HasCollectionType table value :=
  .inr (Bool.and_eq_true_iff.mp hknown).1

/-- A success says that the parameters show the whole collection, with the arguments that are known
collections. They also show every other argument that has the type of a collection, so that nothing
of the collection is dropped, exactly when the extraction overlooks none of these. -/
theorem success_shows_iff (table : WellKnown) (argument : Operation)
    (parameters : List Parameter) :
    (((extract table argument).success = true ∧
        (extract table argument).parameters = parameters) ↔
      Shows table (isKnown table · = true) argument parameters) ∧
    (Shows table (HasCollectionType table) argument parameters ↔
      ((extract table argument).success = true ∧
          (extract table argument).parameters = parameters) ∧
        ¬ Overlooks table (HasCollectionType table) argument) := by
  constructor
  · rw [extract_success_iff, shows_iff (fun _ hknown => hknown) argument parameters]
    exact (and_iff_left (not_overlooks_known argument)).symm
  · rw [extract_success_iff]
    exact shows_iff hasCollectionType_of_isKnown argument parameters

/-- The symbols by which collections of pairs are recognised. -/
def pairTable : WellKnown where
  string := some ⟨5⟩
  keyValuePair := some ⟨6⟩
  enumerableOfT := some ⟨7⟩

/-- The type of a dictionary with string keys. -/
def dictionaryType : TypeRef where
  symbol := some ⟨8⟩
  display := "Dictionary<string, object>"
  interfaces :=
    [{ symbol := some ⟨7⟩, display := "IEnumerable<KeyValuePair<string, object>>"
       typeArguments :=
        [{ symbol := some ⟨6⟩, display := "KeyValuePair<string, object>"
           typeArguments :=
            [{ symbol := some ⟨5⟩, display := "string" }, { display := "object" }] }] }]

/-- A dictionary that copies one of two others, by a condition, and adds one item. -/
def conditionalCopy : Operation where
  type := some dictionaryType
  shape := .objectCreation
    { arguments := [{ value := { type := some dictionaryType, shape := .other } }]
      initializer := some
        [{ shape := .assignment
            { shape := .propertyReference "Item"
                [{ value := { constant := some (.string "UserId"), shape := .literal } }] }
            { type := some { display := "int" }
              constant := some (.int 42)
              shape := .literal } }] }

/-- A success drops the collection that is copied. -/
theorem success_drops_conditionalCopy :
    (extract pairTable conditionalCopy).success = true ∧
      (extract pairTable conditionalCopy).parameters = [⟨"UserId", "int", .literal, none⟩] ∧
      ∀ parameters, ¬ Shows pairTable (HasCollectionType pairTable) conditionalCopy parameters := by
  refine ⟨by decide, by decide, fun parameters hshows => ?_⟩
  obtain ⟨-, hoverlooks⟩ :=
    (shows_iff hasCollectionType_of_isKnown conditionalCopy parameters).mp hshows
  exact hoverlooks (.argument (by decide) List.mem_cons_self (.inl (by decide)) (by decide))

end LogCensus.KeyValue
