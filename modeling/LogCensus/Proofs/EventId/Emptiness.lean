import LogCensus.EventId.Resolve

/-!
# Identifiers that say nothing

The empty identifier is zero without a name. Written as a default value, as a creation without
arguments or as a constant, it stands for no identifier. A creation whose arguments say nothing, as
a null or a default value in place of the id, is the one way to write it that is taken for an
identifier.

* `EventId.IsEmpty`: the identifiers that carry no information.
* `EventId.WritesEmpty`: the ways of writing the empty identifier.
* `EventId.CreatedBlank`: a creation whose arguments say nothing.
* `EventId.resolves_empty_iff`: what becomes of each of these.
-/

namespace LogCensus

/-- The conversions of an expression are unwrapped all at once. -/
theorem Operation.unwrap_unwrap (operation : Operation) :
    operation.unwrap.unwrap = operation.unwrap := by
  obtain ⟨type, constant, shape⟩ := operation
  cases shape with
  | conversion operand => exact unwrap_unwrap operand
  | _ => rfl

/-! ## Halves -/

/-- An expression that says nothing: under conversions, a null or a default value that is not known
as a constant. -/
def Operation.IsBlank (value : Operation) : Prop :=
  value.unwrap.constant = some .null ∨
    (value.unwrap.constant = none ∧ value.unwrap.shape = .defaultValue)

/-- An expression that is the integer zero, under conversions. -/
def Operation.IsZero (value : Operation) : Prop :=
  value.unwrap.constant = some (.int 0)

theorem Operation.isDefaultValue_iff {operation : Operation} :
    operation.isDefaultValue = true ↔ operation.shape = .defaultValue := by
  unfold isDefaultValue
  cases operation.shape <;> simp

namespace EventPart

theorem ofOperation_unwrap (value : Operation) : ofOperation value.unwrap = ofOperation value := by
  simp only [ofOperation, Operation.unwrap_unwrap]

theorem isMissing_iff {part : EventPart} : part.isMissing = true ↔ part = .missing := by
  cases part <;> simp [isMissing]

theorem isZero_iff {part : EventPart} : part.isZero = true ↔ part = .constant (.int 0) := by
  cases part with
  | constant value => cases value <;> simp [isZero, Constant.asInt?]
  | _ => simp [isZero]

theorem ofOperation_eq_missing_iff {value : Operation} :
    ofOperation value = .missing ↔ value.IsBlank := by
  simp only [ofOperation, Operation.IsBlank, ← Operation.isDefaultValue_iff]
  cases value.unwrap.constant with
  | none => cases value.unwrap.isDefaultValue <;> simp
  | some known => cases known <;> simp [Constant.isNull]

theorem ofOperation_eq_zero_iff {value : Operation} :
    ofOperation value = .constant (.int 0) ↔ value.IsZero := by
  simp only [ofOperation, Operation.IsZero]
  cases value.unwrap.constant with
  | none => cases value.unwrap.isDefaultValue <;> simp
  | some known => cases known <;> simp [Constant.isNull]

end EventPart

namespace EventId

/-- The arguments of a creation say nothing about a parameter: none is given for it, or a blank. -/
def LeavesOut (arguments : List Argument) (name : String) (position : Nat) : Prop :=
  ∀ argument, creationArgument? arguments name position = some argument → argument.value.IsBlank

/-- The arguments of a creation give zero for a parameter. -/
def GivesZero (arguments : List Argument) (name : String) (position : Nat) : Prop :=
  ∃ argument, creationArgument? arguments name position = some argument ∧ argument.value.IsZero

theorem creationPart_eq_missing_iff {arguments : List Argument} {name : String} {position : Nat} :
    creationPart arguments name position = .missing ↔ LeavesOut arguments name position := by
  unfold creationPart LeavesOut
  cases creationArgument? arguments name position with
  | none => simp
  | some argument => simp [EventPart.ofOperation_eq_missing_iff]

theorem creationPart_eq_zero_iff {arguments : List Argument} {name : String} {position : Nat} :
    creationPart arguments name position = .constant (.int 0) ↔
      GivesZero arguments name position := by
  unfold creationPart GivesZero
  cases creationArgument? arguments name position with
  | none => simp
  | some argument => simp [EventPart.ofOperation_eq_zero_iff]

/-! ## Empty identifiers -/

/-- An identifier that carries no information: without a name, and with no id or with zero. -/
def IsEmpty : EventId → Prop
  | .details id name => name = .missing ∧ (id = .missing ∨ id = .constant (.int 0))
  | .reference _ _ => False

/-- The ways of writing the empty identifier: a default value, a creation without a name and without
an id other than zero, and a blank or a zero of another type that converts to an identifier. -/
inductive WritesEmpty (table : WellKnown) (value : Operation) : Prop
  | defaultValue (hshape : value.unwrap.shape = .defaultValue)
  | creation (creation : ObjectCreation) (hshape : value.unwrap.shape = .objectCreation creation)
      (hname : LeavesOut creation.arguments "name" 1)
      (hid : LeavesOut creation.arguments "id" 0 ∨ GivesZero creation.arguments "id" 0)
  | converted (hcreation : ∀ creation, value.unwrap.shape ≠ .objectCreation creation)
      (htype : value.unwrap.type.any table.isEventId = false)
      (hvalue : value.IsBlank ∨ value.IsZero)

/-- The expression creates an identifier with arguments, none of which says anything. -/
def CreatedBlank (value : Operation) : Prop :=
  ∃ creation, value.unwrap.shape = .objectCreation creation ∧ creation.arguments ≠ [] ∧
    LeavesOut creation.arguments "id" 0 ∧ LeavesOut creation.arguments "name" 1

section

variable {table : WellKnown} {value : Operation} {creation : ObjectCreation}

theorem createdBlank_iff (hshape : value.unwrap.shape = .objectCreation creation) :
    CreatedBlank value ↔ creation.arguments ≠ [] ∧ LeavesOut creation.arguments "id" 0 ∧
      LeavesOut creation.arguments "name" 1 := by
  constructor
  · rintro ⟨creation', hshape', hblank⟩
    cases hshape.symm.trans hshape'
    exact hblank
  · exact fun hblank => ⟨creation, hshape, hblank⟩

theorem not_createdBlank (hcreation : ∀ creation, value.unwrap.shape ≠ .objectCreation creation) :
    ¬ CreatedBlank value :=
  fun ⟨creation, hshape, _⟩ => hcreation creation hshape

theorem writesEmpty_creation_iff (hshape : value.unwrap.shape = .objectCreation creation) :
    WritesEmpty table value ↔ LeavesOut creation.arguments "name" 1 ∧
      (LeavesOut creation.arguments "id" 0 ∨ GivesZero creation.arguments "id" 0) := by
  constructor
  · rintro (hshape' | ⟨creation', hshape', hname, hid⟩ | ⟨hcreation, -, -⟩)
    · cases hshape.symm.trans hshape'
    · cases hshape.symm.trans hshape'
      exact ⟨hname, hid⟩
    · exact absurd hshape (hcreation creation)
  · exact fun ⟨hname, hid⟩ => .creation creation hshape hname hid

theorem writesEmpty_converted_iff
    (hcreation : ∀ creation, value.unwrap.shape ≠ .objectCreation creation)
    (hdefault : value.unwrap.shape ≠ .defaultValue) :
    WritesEmpty table value ↔ value.unwrap.type.any table.isEventId = false ∧
      (value.IsBlank ∨ value.IsZero) := by
  constructor
  · rintro (hshape | ⟨creation, hshape, -, -⟩ | ⟨-, htype, hvalue⟩)
    · exact absurd hshape hdefault
    · exact absurd hshape (hcreation creation)
    · exact ⟨htype, hvalue⟩
  · exact fun ⟨htype, hvalue⟩ => .converted hcreation htype hvalue

/-! ## Resolution -/

theorem resolveValue_creation (hshape : value.unwrap.shape = .objectCreation creation) :
    resolveValue table value =
      if creation.arguments.isEmpty then .absent
      else ofParts (creationPart creation.arguments "id" 0)
        (creationPart creation.arguments "name" 1) := by
  simp only [resolveValue, hshape]

theorem resolveValue_default (hshape : value.unwrap.shape = .defaultValue) :
    resolveValue table value = .absent := by
  simp only [resolveValue, hshape]

theorem resolveValue_other
    (hcreation : ∀ creation, value.unwrap.shape ≠ .objectCreation creation)
    (hdefault : value.unwrap.shape ≠ .defaultValue) :
    resolveValue table value = ofReference table value.unwrap := by
  -- the hypotheses rule out the first two cases of the match
  simp only [resolveValue]

/-- Two halves are no identifier when they are zero and no name, and an identifier otherwise. -/
theorem ofParts_eq (id name : EventPart) :
    ofParts id name =
      if id = .constant (.int 0) ∧ name = .missing then .absent else .found (.details id name) := by
  simp only [ofParts, Bool.and_eq_true, EventPart.isZero_iff, EventPart.isMissing_iff]

/-- What becomes of an expression: it has no identifier when it writes the empty one, unless it is a
blank creation, and only then is its identifier empty. -/
structure ResolvesAsWritten (table : WellKnown) (value : Operation) : Prop where
  absent_iff : resolveValue table value = .absent ↔ WritesEmpty table value ∧ ¬ CreatedBlank value
  empty_iff : (∃ id, resolveValue table value = .found id ∧ id.IsEmpty) ↔ CreatedBlank value

namespace ResolvesAsWritten

theorem of_absent (habsent : resolveValue table value = .absent)
    (hwrites : WritesEmpty table value) (hblank : ¬ CreatedBlank value) :
    ResolvesAsWritten table value where
  absent_iff := iff_of_true habsent ⟨hwrites, hblank⟩
  empty_iff := by
    refine iff_of_false ?_ hblank
    rintro ⟨id, hfound, -⟩
    rw [habsent] at hfound
    cases hfound

theorem of_found {id : EventId} (hfound : resolveValue table value = .found id)
    (hempty : id.IsEmpty ↔ CreatedBlank value)
    (hwrites : WritesEmpty table value → CreatedBlank value) : ResolvesAsWritten table value where
  absent_iff := by
    refine iff_of_false ?_ fun ⟨hwritten, hblank⟩ => hblank (hwrites hwritten)
    rw [hfound]
    exact nofun
  empty_iff := by
    rw [← hempty, hfound]
    constructor
    · rintro ⟨_, heq, hid⟩
      cases heq
      exact hid
    · exact fun hid => ⟨id, rfl, hid⟩

theorem of_unresolvable {type : String} (hresolve : resolveValue table value = .unresolvable type)
    (hwrites : ¬ WritesEmpty table value) (hblank : ¬ CreatedBlank value) :
    ResolvesAsWritten table value where
  absent_iff := by
    refine iff_of_false ?_ fun ⟨hwritten, _⟩ => hwrites hwritten
    rw [hresolve]
    exact nofun
  empty_iff := by
    refine iff_of_false ?_ hblank
    rintro ⟨id, hfound, -⟩
    rw [hresolve] at hfound
    cases hfound

end ResolvesAsWritten

theorem resolvesAsWritten_creation (hshape : value.unwrap.shape = .objectCreation creation) :
    ResolvesAsWritten table value := by
  have hblank := createdBlank_iff hshape
  have hwrites : WritesEmpty table value ↔ _ := writesEmpty_creation_iff hshape
  by_cases harguments : creation.arguments = []
  · have hout : ∀ name position, LeavesOut creation.arguments name position := by
      intro name position argument hargument
      rw [harguments] at hargument
      cases hargument
    refine .of_absent ?_ (hwrites.mpr ⟨hout _ _, .inl (hout _ _)⟩) fun h => ?_
    · rw [resolveValue_creation hshape, harguments]
      rfl
    · exact (hblank.mp h).1 harguments
  · have hparts : resolveValue table value = _ :=
      (resolveValue_creation hshape).trans (if_neg (mt List.isEmpty_iff.mp harguments))
    rw [ofParts_eq] at hparts
    simp only [← creationPart_eq_missing_iff, ← creationPart_eq_zero_iff] at hblank hwrites
    by_cases hzero : creationPart creation.arguments "id" 0 = .constant (.int 0) ∧
        creationPart creation.arguments "name" 1 = .missing
    · rw [if_pos hzero] at hparts
      refine .of_absent hparts (hwrites.mpr ⟨hzero.2, .inr hzero.1⟩) fun h => ?_
      have hid := (hblank.mp h).2.1
      rw [hzero.1] at hid
      cases hid
    · rw [if_neg hzero] at hparts
      refine .of_found hparts ?_ fun h => ?_
      · rw [hblank]
        constructor
        · rintro ⟨hname, hid | hid⟩
          · exact ⟨harguments, hid, hname⟩
          · exact absurd ⟨hid, hname⟩ hzero
        · exact fun ⟨_, hid, hname⟩ => ⟨hname, .inl hid⟩
      · obtain ⟨hname, hid | hid⟩ := hwrites.mp h
        · exact hblank.mpr ⟨harguments, hid, hname⟩
        · exact absurd ⟨hid, hname⟩ hzero

theorem resolvesAsWritten_converted
    (hcreation : ∀ creation, value.unwrap.shape ≠ .objectCreation creation)
    (hdefault : value.unwrap.shape ≠ .defaultValue) : ResolvesAsWritten table value := by
  have hblank : ¬ CreatedBlank value := not_createdBlank hcreation
  have hwrites : WritesEmpty table value ↔ _ := writesEmpty_converted_iff hcreation hdefault
  have hresolve : resolveValue table value = _ := resolveValue_other hcreation hdefault
  rw [ofReference] at hresolve
  cases htype : value.unwrap.type.any table.isEventId with
  | true =>
    -- an expression of identifier type is a reference or is not resolved
    have hnot : ¬ WritesEmpty table value := by
      rw [hwrites, htype]
      exact fun h => Bool.noConfusion h.1
    rw [if_pos htype] at hresolve
    split at hresolve
    · exact .of_found hresolve (iff_of_false id hblank) fun h => absurd h hnot
    · exact .of_unresolvable hresolve hnot hblank
  | false =>
    rw [htype, if_neg Bool.false_ne_true] at hresolve
    simp only [EventPart.ofOperation_unwrap, EventPart.isMissing_iff, ofParts_eq,
      and_true] at hresolve
    rw [htype, ← EventPart.ofOperation_eq_missing_iff, ← EventPart.ofOperation_eq_zero_iff]
      at hwrites
    by_cases hmissing : EventPart.ofOperation value = .missing
    · rw [if_pos hmissing] at hresolve
      exact .of_absent hresolve (hwrites.mpr ⟨rfl, .inl hmissing⟩) hblank
    · rw [if_neg hmissing] at hresolve
      by_cases hzero : EventPart.ofOperation value = .constant (.int 0)
      · rw [if_pos hzero] at hresolve
        exact .of_absent hresolve (hwrites.mpr ⟨rfl, .inr hzero⟩) hblank
      · rw [if_neg hzero] at hresolve
        have hneither : ¬ (EventPart.ofOperation value = .missing ∨
            EventPart.ofOperation value = .constant (.int 0)) := not_or.mpr ⟨hmissing, hzero⟩
        refine .of_found hresolve (iff_of_false (fun h => hneither h.2) hblank) fun h => ?_
        exact absurd (hwrites.mp h).2 hneither

theorem resolvesAsWritten (table : WellKnown) (value : Operation) :
    ResolvesAsWritten table value := by
  by_cases hcreation : ∃ creation, value.unwrap.shape = .objectCreation creation
  · obtain ⟨creation, hshape⟩ := hcreation
    exact resolvesAsWritten_creation hshape
  · have hnone : ∀ creation, value.unwrap.shape ≠ .objectCreation creation :=
      fun creation hshape => hcreation ⟨creation, hshape⟩
    by_cases hdefault : value.unwrap.shape = .defaultValue
    · exact .of_absent (resolveValue_default hdefault) (.defaultValue hdefault)
        (not_createdBlank hnone)
    · exact resolvesAsWritten_converted hnone hdefault

end

/-! ## Calls -/

/-- The argument that is resolved is the first one bound to a parameter of identifier type. -/
theorem resolve_eq {arguments : List Argument} {argument : Argument}
    (hbound : arguments.find? (fun bound => bound.isBoundTo table.isEventId) = some argument) :
    resolve table arguments = resolveValue table argument.value := by
  rw [resolve, hbound]
  rfl

theorem resolve_eq_absent {arguments : List Argument}
    (hbound : arguments.find? (fun bound => bound.isBoundTo table.isEventId) = none) :
    resolve table arguments = .absent := by
  rw [resolve, hbound]
  rfl

/-- An expression resolves to an empty identifier exactly when it is a blank creation; every other
way of writing the empty identifier gives none, and nothing else does. So it is for the argument of
a call that is bound to an identifier; a call without one has no identifier. -/
theorem resolves_empty_iff (table : WellKnown) :
    (∀ value, (∃ id, resolveValue table value = .found id ∧ id.IsEmpty) ↔ CreatedBlank value) ∧
    (∀ value, resolveValue table value = .absent ↔
      WritesEmpty table value ∧ ¬ CreatedBlank value) ∧
    ∀ arguments,
      ((∃ id, resolve table arguments = .found id ∧ id.IsEmpty) ↔
        ∃ argument, arguments.find? (fun bound => bound.isBoundTo table.isEventId) = some argument ∧
          CreatedBlank argument.value) ∧
      (resolve table arguments = .absent ↔
        ∀ argument, arguments.find? (fun bound => bound.isBoundTo table.isEventId) = some argument →
          WritesEmpty table argument.value ∧ ¬ CreatedBlank argument.value) := by
  refine ⟨fun value => (resolvesAsWritten table value).empty_iff,
    fun value => (resolvesAsWritten table value).absent_iff, fun arguments => ?_⟩
  cases hbound : arguments.find? fun bound => bound.isBoundTo table.isEventId with
  | none =>
    rw [resolve_eq_absent hbound]
    exact ⟨by simp, by simp⟩
  | some argument =>
    rw [resolve_eq hbound]
    have hargument := resolvesAsWritten table argument.value
    exact ⟨by simp [hargument.empty_iff], by simp [hargument.absent_iff]⟩

/-- A creation from the default value of the id. -/
def newFromDefault : Operation where
  type := some { symbol := some ⟨5⟩, display := "EventId" }
  shape := .objectCreation
    { arguments :=
        [{ parameter := some { name := "id", type := { display := "int" } }
           value := { type := some { display := "int" }, shape := .defaultValue } }] }

/-- The default value of the id is taken for an identifier. -/
theorem resolves_empty_newFromDefault :
    resolveValue { eventId := some ⟨5⟩ } newFromDefault = .found (.details .missing .missing) ∧
      (EventId.details .missing .missing).IsEmpty :=
  ⟨by decide, rfl, .inl rfl⟩

end EventId

end LogCensus
