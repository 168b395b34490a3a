import LogCensus.Operation.Codec
import LogCensus.Proofs.Operation.Constants
import Mathlib.Data.Option.Basic

/-!
# Stored expressions

Expressions written to JSON and read back. A constant that is null comes back as no constant, on an
operation as well as on the argument of an attribute; everything else comes back as it was. What
has been read once therefore stays as it is.

* `Operation.restores`: what is written for an expression is read as that expression.
* `Operation.ensures`: no constant that was read is null or infinite.
-/

namespace LogCensus

open Json

/-! ## Lists of parts -/

namespace Operation

@[simp] theorem toJsonOption_eq (operation : Option Operation) :
    toJsonOption operation = ofOption toJson operation := by
  cases operation <;> rfl

@[simp] theorem toJsonList_eq (operations : List Operation) :
    .array (toJsonList operations) = ofList toJson operations := by
  rw [ofList, Json.array.injEq]
  induction operations with
  | nil => rfl
  | cons operation rest ih => rw [toJsonList, ih, List.map_cons]

@[simp] theorem toJsonListOption_eq (operations : Option (List Operation)) :
    toJsonListOption operations = ofOption (ofList toJson) operations := by
  cases operations with
  | none => rfl
  | some operations => exact toJsonList_eq operations

end Operation

namespace Argument

@[simp] theorem toJsonList_eq (arguments : List Argument) :
    .array (toJsonList arguments) = ofList toJson arguments := by
  rw [ofList, Json.array.injEq]
  induction arguments with
  | nil => rfl
  | cons argument rest ih => rw [toJsonList, ih, List.map_cons]

end Argument

namespace AnonymousMember

@[simp] theorem toJsonList_eq (members : List AnonymousMember) :
    .array (toJsonList members) = ofList toJson members := by
  rw [ofList, Json.array.injEq]
  induction members with
  | nil => rfl
  | cons member rest ih => rw [toJsonList, ih, List.map_cons]

end AnonymousMember

/-! ## Reading what is written -/

/-- What a reader has to do with the parts of an expression, that the expression be read back. -/
abbrev Operation.RestoredAt (levels : Nat) (reader : Reader Operation) : Prop :=
  Restores levels (reader levels) Operation.toJson Operation.dropNulls
    (fun operation => ∀ constant ∈ operation.constants, constant.IsFinite)

theorem Operation.toJson_ne_null (operation : Operation) : operation.toJson ≠ .null := by
  cases operation
  exact nofun

section

variable {levels : Nat} {reader : Reader Operation}

theorem Argument.restores (h : ∀ below < levels, Operation.RestoredAt below reader) :
    Restores levels (Argument.readWith reader levels) Argument.toJson Argument.dropNulls
      (fun argument => ∀ constant ∈ argument.constants, constant.IsFinite) := by
  rintro ⟨parameter, value⟩ hfinite hdepth
  simp only [constants, List.forall_mem_append, List.forall_mem_flatMap, Option.mem_toList]
    at hfinite
  obtain ⟨hparameterFinite, hvalueFinite⟩ := hfinite
  rw [toJson] at hdepth ⊢
  cases levels with
  | zero => exact absurd hdepth depth_object_le_zero
  | succ levels =>
    simp only [depth_object_le_succ, List.forall_mem_cons] at hdepth
    obtain ⟨hparameter, hvalue, -⟩ := hdepth
    have hparameter := Restores.option ParameterSymbol.toJson_ne_null
      (ParameterSymbol.restores levels) parameter hparameterFinite hparameter
    have hvalue := h levels (Nat.lt_succ_self levels) value hvalueFinite hvalue
    rw [readWith, fields?_object (by rfl) (by decide)]
    show (do
      return ({
        parameter := ← nullable? (ParameterSymbol.read levels)
          (ofOption ParameterSymbol.toJson parameter)
        value := ← reader levels value.toJson } : Argument)) = _
    rw [hparameter, hvalue]
    rfl

theorem Argument.restores_list (h : ∀ below ≤ levels, Operation.RestoredAt below reader) :
    Restores levels (Reader.list (Argument.readWith reader) levels) (ofList Argument.toJson)
      (List.map Argument.dropNulls)
      (fun arguments =>
        ∀ argument ∈ arguments, ∀ constant ∈ argument.constants, constant.IsFinite) :=
  Restores.list fun _ hbelow => Argument.restores fun lower hlower => h lower (by omega)

theorem Operation.restores_list (h : ∀ below ≤ levels, Operation.RestoredAt below reader) :
    Restores levels (Reader.list reader levels) (ofList Operation.toJson)
      (List.map Operation.dropNulls)
      (fun operations =>
        ∀ operation ∈ operations, ∀ constant ∈ operation.constants, constant.IsFinite) :=
  Restores.list fun below hbelow => h below (Nat.le_of_lt hbelow)

theorem AnonymousMember.restores (h : ∀ below < levels, Operation.RestoredAt below reader) :
    Restores levels (AnonymousMember.readWith reader levels) AnonymousMember.toJson
      AnonymousMember.dropNulls
      (fun member => ∀ constant ∈ member.constants, constant.IsFinite) := by
  rintro ⟨name, value⟩ hfinite hdepth
  rw [constants] at hfinite
  rw [toJson] at hdepth ⊢
  cases levels with
  | zero => exact absurd hdepth depth_object_le_zero
  | succ levels =>
    simp only [depth_object_le_succ, List.forall_mem_cons] at hdepth
    obtain ⟨-, hvalue, -⟩ := hdepth
    have hvalue := h levels (Nat.lt_succ_self levels) value hfinite hvalue
    rw [readWith, fields?_object (by rfl) (by decide)]
    show (do
      return ({ name := name, value := ← reader levels value.toJson } : AnonymousMember)) = _
    rw [hvalue]
    rfl

end

/-- The name of a shape. -/
def Shape.kind : Shape → String
  | .literal => "literal"
  | .localReference _ _ => "localReference"
  | .parameterReference _ => "parameterReference"
  | .fieldReference _ _ => "fieldReference"
  | .propertyReference _ _ => "propertyReference"
  | .invocation _ => "invocation"
  | .objectCreation _ => "objectCreation"
  | .arrayCreation _ => "arrayCreation"
  | .anonymousObjectCreation _ => "anonymousObjectCreation"
  | .conversion _ => "conversion"
  | .defaultValue => "defaultValue"
  | .assignment _ _ => "assignment"
  | .other => "other"

theorem Shape.knownMembers?_own (type constant : Json) (shape : Shape) :
    knownMembers? ["type", "constant", "kind"]
        (("type", type) :: ("constant", constant) :: shape.toMembers) =
      some ⟨[("type", type), ("constant", constant), ("kind", .string shape.kind)]⟩ := by
  cases shape with
  | invocation call =>
    cases call
    rfl
  | objectCreation creation =>
    cases creation
    rfl
  | _ => rfl

section

variable {levels : Nat} {reader : Reader Operation}

theorem Invocation.ofFields?_toMembers
    (h : ∀ below ≤ levels, Operation.RestoredAt below reader) (call : Invocation)
    (hfinite : ∀ constant ∈ call.constants, constant.IsFinite)
    (hdepth : ∀ member ∈ call.toMembers, member.2.depth ≤ levels) :
    ofFields? reader levels ⟨call.toMembers⟩ = some call.dropNulls := by
  obtain ⟨method, receiver, arguments⟩ := call
  simp only [constants, Operation.constantsOption_eq, Argument.constantsList_eq,
    List.forall_mem_append, List.forall_mem_flatMap, Option.mem_toList] at hfinite
  simp only [toMembers, Operation.toJsonOption_eq, Argument.toJsonList_eq,
    List.forall_mem_cons] at hdepth
  obtain ⟨hmethodFinite, hreceiverFinite, hargumentsFinite⟩ := hfinite
  obtain ⟨hmethod, hreceiver, harguments, -⟩ := hdepth
  have hmethod := MethodRef.restores levels method hmethodFinite hmethod
  have hreceiver :=
    Restores.option Operation.toJson_ne_null (h levels (Nat.le_refl levels)) receiver
    hreceiverFinite hreceiver
  have harguments := Argument.restores_list h arguments hargumentsFinite harguments
  rw [toMembers, Operation.toJsonOption_eq, Argument.toJsonList_eq, dropNulls,
    Operation.dropNullsOption_eq, Argument.dropNullsList_eq]
  show (do
    return ({
      method := ← MethodRef.read levels method.toJson
      receiver := ← nullable? (reader levels) (ofOption Operation.toJson receiver)
      arguments := ← Reader.list (Argument.readWith reader) levels
        (ofList Argument.toJson arguments) } : Invocation)) = _
  rw [hmethod, hreceiver, harguments]
  rfl

theorem ObjectCreation.ofFields?_toMembers
    (h : ∀ below ≤ levels, Operation.RestoredAt below reader) (creation : ObjectCreation)
    (hfinite : ∀ constant ∈ creation.constants, constant.IsFinite)
    (hdepth : ∀ member ∈ creation.toMembers, member.2.depth ≤ levels) :
    ofFields? reader levels ⟨creation.toMembers⟩ = some creation.dropNulls := by
  obtain ⟨method, arguments, initializer⟩ := creation
  simp only [constants, Operation.constantsListOption_eq, Argument.constantsList_eq,
    List.forall_mem_append, List.forall_mem_flatMap, Option.mem_toList] at hfinite
  simp only [toMembers, Operation.toJsonListOption_eq, Argument.toJsonList_eq,
    List.forall_mem_cons] at hdepth
  obtain ⟨hmethodFinite, hargumentsFinite, hitemsFinite⟩ := hfinite
  obtain ⟨hmethod, harguments, hinitializer, -⟩ := hdepth
  have hmethod := Restores.option MethodRef.toJson_ne_null (MethodRef.restores levels) method
    hmethodFinite hmethod
  have harguments := Argument.restores_list h arguments hargumentsFinite harguments
  have hwritten (items : List Operation) : ofList Operation.toJson items ≠ .null := by
    intro hnull
    cases hnull
  have hinitializer := Restores.option hwritten (Operation.restores_list h) initializer
    (fun items hsome => by simpa [Option.mem_def.mp hsome] using hitemsFinite) hinitializer
  rw [toMembers, Operation.toJsonListOption_eq, Argument.toJsonList_eq, dropNulls,
    Operation.dropNullsListOption_eq, Argument.dropNullsList_eq]
  show (do
    return ({
      method := ← nullable? (MethodRef.read levels) (ofOption MethodRef.toJson method)
      arguments := ← Reader.list (Argument.readWith reader) levels
        (ofList Argument.toJson arguments)
      initializer := ← nullable? (Reader.list reader levels)
        (ofOption (ofList Operation.toJson) initializer) } : ObjectCreation)) = _
  rw [hmethod, harguments, hinitializer]
  rfl

theorem Shape.ofMembers?_toMembers (h : ∀ below ≤ levels, Operation.RestoredAt below reader)
    (type constant : Json) (shape : Shape)
    (hfinite : ∀ constant ∈ shape.constants, constant.IsFinite)
    (hdepth : ∀ member ∈ shape.toMembers, member.2.depth ≤ levels) :
    ofMembers? reader levels shape.kind
        (("type", type) :: ("constant", constant) :: shape.toMembers) =
      some shape.dropNulls := by
  have hpart (operation : Operation) := h levels (Nat.le_refl levels) operation
  have hoption := Restores.option Operation.toJson_ne_null (h levels (Nat.le_refl levels))
  cases shape with
  | localReference name initializer =>
    simp only [constants, Operation.constantsOption_eq, List.forall_mem_flatMap, Option.mem_toList]
      at hfinite
    simp only [toMembers, Operation.toJsonOption_eq, List.forall_mem_cons] at hdepth
    show (nullable? (reader levels) (Operation.toJsonOption initializer)).bind
      (fun found => some (localReference name found)) = _
    rw [Operation.toJsonOption_eq, hoption initializer hfinite hdepth.2.2.1, dropNulls,
      Operation.dropNullsOption_eq, Option.bind_some]
  | fieldReference name initializer =>
    simp only [constants, Operation.constantsOption_eq, List.forall_mem_flatMap, Option.mem_toList]
      at hfinite
    simp only [toMembers, Operation.toJsonOption_eq, List.forall_mem_cons] at hdepth
    show (nullable? (reader levels) (Operation.toJsonOption initializer)).bind
      (fun found => some (fieldReference name found)) = _
    rw [Operation.toJsonOption_eq, hoption initializer hfinite hdepth.2.2.1, dropNulls,
      Operation.dropNullsOption_eq, Option.bind_some]
  | propertyReference name arguments =>
    simp only [constants, Argument.constantsList_eq, List.forall_mem_flatMap] at hfinite
    simp only [toMembers, Argument.toJsonList_eq, List.forall_mem_cons] at hdepth
    show (Reader.list (Argument.readWith reader) levels
      (.array (Argument.toJsonList arguments))).bind
        (fun found => some (propertyReference name found)) = _
    rw [Argument.toJsonList_eq, Argument.restores_list h arguments hfinite hdepth.2.2.1, dropNulls,
      Argument.dropNullsList_eq, Option.bind_some]
  | invocation call =>
    rw [constants] at hfinite
    rw [toMembers, List.forall_mem_cons] at hdepth
    have hcall := Invocation.ofFields?_toMembers h call hfinite hdepth.2
    obtain ⟨method, receiver, arguments⟩ := call
    show (Invocation.ofFields? reader levels
      ⟨Invocation.toMembers ⟨method, receiver, arguments⟩⟩).bind
        (fun found => some (invocation found)) = _
    rw [hcall, dropNulls, Option.bind_some]
  | objectCreation creation =>
    rw [constants] at hfinite
    rw [toMembers, List.forall_mem_cons] at hdepth
    have hcreation := ObjectCreation.ofFields?_toMembers h creation hfinite hdepth.2
    obtain ⟨method, arguments, initializer⟩ := creation
    show (ObjectCreation.ofFields? reader levels
      ⟨ObjectCreation.toMembers ⟨method, arguments, initializer⟩⟩).bind
        (fun found => some (objectCreation found)) = _
    rw [hcreation, dropNulls, Option.bind_some]
  | arrayCreation elements =>
    simp only [constants, Operation.constantsList_eq, List.forall_mem_flatMap] at hfinite
    simp only [toMembers, Operation.toJsonList_eq, List.forall_mem_cons] at hdepth
    show (Reader.list reader levels (.array (Operation.toJsonList elements))).bind
      (fun found => some (arrayCreation found)) = _
    rw [Operation.toJsonList_eq, Operation.restores_list h elements hfinite hdepth.2.1, dropNulls,
      Operation.dropNullsList_eq, Option.bind_some]
  | anonymousObjectCreation members =>
    simp only [constants, AnonymousMember.constantsList_eq, List.forall_mem_flatMap] at hfinite
    simp only [toMembers, AnonymousMember.toJsonList_eq, List.forall_mem_cons] at hdepth
    have hmembers : Restores levels (Reader.list (AnonymousMember.readWith reader) levels) _ _ _ :=
      Restores.list fun _ hbelow => AnonymousMember.restores fun lower hlower => h lower (by omega)
    show (Reader.list (AnonymousMember.readWith reader) levels
      (.array (AnonymousMember.toJsonList members))).bind
        (fun found => some (anonymousObjectCreation found)) = _
    rw [AnonymousMember.toJsonList_eq, hmembers members hfinite hdepth.2.1, dropNulls,
      AnonymousMember.dropNullsList_eq, Option.bind_some]
  | conversion operand =>
    rw [constants] at hfinite
    simp only [toMembers, List.forall_mem_cons] at hdepth
    show (reader levels operand.toJson).bind (fun found => some (conversion found)) = _
    rw [hpart operand hfinite hdepth.2.1, dropNulls, Option.bind_some]
  | assignment target value =>
    rw [constants, List.forall_mem_append] at hfinite
    simp only [toMembers, List.forall_mem_cons] at hdepth
    show (reader levels target.toJson).bind (fun left =>
      (reader levels value.toJson).bind fun right => some (assignment left right)) = _
    rw [hpart target hfinite.1 hdepth.2.1, hpart value hfinite.2 hdepth.2.2.1, dropNulls,
      Option.bind_some, Option.bind_some]
  | _ => rfl

end

/-! ## What is written is readable -/

theorem Argument.readable_toJson (argument : Argument) (h : argument.value.toJson.Readable) :
    argument.toJson.Readable := by
  obtain ⟨parameter, value⟩ := argument
  have hparameter : (ofOption ParameterSymbol.toJson parameter).Readable :=
    readable_ofOption fun parameter _ => parameter.readable_toJson
  simpa [toJson, hparameter] using h

theorem Argument.readable_toJsonList (arguments : List Argument)
    (h : ∀ part ∈ arguments.map Argument.value, part.toJson.Readable) :
    (ofList Argument.toJson arguments).Readable :=
  readable_ofList fun argument hargument =>
    argument.readable_toJson (h argument.value (List.mem_map_of_mem hargument))

theorem AnonymousMember.readable_toJson (member : AnonymousMember)
    (h : member.value.toJson.Readable) : member.toJson.Readable := by
  obtain ⟨name, value⟩ := member
  simpa [toJson, EveryScalar] using h

theorem Shape.readable_toMembers (shape : Shape) (h : ∀ part ∈ shape.parts, part.toJson.Readable) :
    ∀ member ∈ shape.toMembers, member.2.Readable := by
  cases shape with
  | localReference name initializer =>
    have hinitializer : (ofOption Operation.toJson initializer).Readable :=
      readable_ofOption fun part hpart => h part (Option.mem_toList.mpr hpart)
    simp [toMembers, EveryScalar, hinitializer]
  | fieldReference name initializer =>
    have hinitializer : (ofOption Operation.toJson initializer).Readable :=
      readable_ofOption fun part hpart => h part (Option.mem_toList.mpr hpart)
    simp [toMembers, EveryScalar, hinitializer]
  | propertyReference name arguments =>
    simp [toMembers, EveryScalar, Argument.readable_toJsonList arguments h]
  | invocation call =>
    obtain ⟨method, receiver, arguments⟩ := call
    obtain ⟨hreceiver, harguments⟩ := List.forall_mem_append.mp h
    have hreceiver : (ofOption Operation.toJson receiver).Readable :=
      readable_ofOption fun part hpart => hreceiver part (Option.mem_toList.mpr hpart)
    simp [toMembers, Invocation.toMembers, EveryScalar, method.readable_toJson, hreceiver,
      Argument.readable_toJsonList arguments harguments]
  | objectCreation creation =>
    obtain ⟨method, arguments, initializer⟩ := creation
    obtain ⟨harguments, hitems⟩ := List.forall_mem_append.mp h
    have hmethod : (ofOption MethodRef.toJson method).Readable :=
      readable_ofOption fun method _ => method.readable_toJson
    have hinitializer : (ofOption (ofList Operation.toJson) initializer).Readable :=
      readable_ofOption fun items hsome =>
        readable_ofList fun part hpart =>
          hitems part (by simpa [Option.mem_def.mp hsome] using hpart)
    simp [toMembers, ObjectCreation.toMembers, EveryScalar, hmethod, hinitializer,
      Argument.readable_toJsonList arguments harguments]
  | arrayCreation elements =>
    have helements : (ofList Operation.toJson elements).Readable := readable_ofList h
    simp [toMembers, EveryScalar, helements]
  | anonymousObjectCreation members =>
    have hmembers : (ofList AnonymousMember.toJson members).Readable :=
      readable_ofList fun member hmember =>
        member.readable_toJson (h member.value (List.mem_map_of_mem hmember))
    simp [toMembers, EveryScalar, hmembers]
  | conversion operand =>
    have hoperand := h operand (List.mem_singleton_self operand)
    simp [toMembers, EveryScalar, hoperand]
  | assignment target value =>
    have htarget := h target (by simp [parts])
    have hvalue := h value (by simp [parts])
    simp [toMembers, EveryScalar, htarget, hvalue]
  | _ => simp [toMembers, EveryScalar]

theorem Operation.readable_toJson (operation : Operation) : operation.toJson.Readable := by
  induction operation using inductionOnParts with
  | h operation ih =>
    obtain ⟨type, constant, shape⟩ := operation
    have htype : (ofOption TypeRef.toJson type).Readable :=
      readable_ofOption fun type _ => type.readable_toJson
    have hconstant : (ofOption Constant.toJson constant).Readable :=
      readable_ofOption fun constant _ => constant.readable_toJson
    rw [toJson, Readable, everyScalar_object, List.forall_mem_cons, List.forall_mem_cons]
    exact ⟨htype, hconstant, shape.readable_toMembers ih⟩

/-! ## Whole expressions -/

namespace Operation

/-- A reader that reads back the parts of an expression reads back the expression. -/
theorem restoredAt_readWith {levels : Nat} {reader : Reader Operation}
    (h : ∀ below ≤ levels, RestoredAt below reader) :
    RestoredAt (levels + 1) (readWith reader) := by
  rintro ⟨type, constant, shape⟩ hfinite hdepth
  have hreadable := shape.readable_toMembers fun part _ => part.readable_toJson
  simp only [constants, List.forall_mem_append, Option.mem_toList] at hfinite
  rw [toJson, depth_object_le_succ, List.forall_mem_cons, List.forall_mem_cons] at hdepth
  obtain ⟨htype, -, hmembers⟩ := hdepth
  have htype := Restores.option TypeRef.toJson_ne_null (TypeRef.restores levels) type
    (fun _ _ => trivial) htype
  have hconstant := Constant.nullable_ofOption hfinite.1
  have hshape := Shape.ofMembers?_toMembers h (ofOption TypeRef.toJson type)
    (ofOption Constant.toJson constant) shape hfinite.2 hmembers
  have hfits : shape.toMembers.all (fun member =>
      member.1 == "type" || member.1 == "constant" || member.2.fits levels) = true := by
    rw [List.all_eq_true]
    intro member hmember
    rw [fits_of_readable (hreadable _ hmember) (hmembers _ hmember), Bool.or_true]
  rw [toJson, readWith, Shape.knownMembers?_own]
  show (do
    guard (shape.toMembers.all (fun member =>
      member.1 == "type" || member.1 == "constant" || member.2.fits levels) = true)
    return ({
      type := ← nullable? (TypeRef.read levels) (ofOption TypeRef.toJson type)
      constant := ← nullable? Constant.ofJson? (ofOption Constant.toJson constant)
      shape := ← Shape.ofMembers? reader levels shape.kind
        (("type", ofOption TypeRef.toJson type) ::
          ("constant", ofOption Constant.toJson constant) :: shape.toMembers) } : Operation)) = _
  rw [hfits, htype, hconstant, hshape, dropNulls, Option.map_id]
  rfl

theorem restoredAt_readWithin (fuel : Nat) :
    ∀ levels ≤ fuel, RestoredAt levels (readWithin fuel) := by
  induction fuel with
  | zero =>
    intro levels hlevels operation hfinite hdepth
    cases operation
    rw [toJson, Nat.le_zero.mp hlevels] at hdepth
    exact absurd hdepth depth_object_le_zero
  | succ fuel ih =>
    intro levels hlevels
    cases levels with
    | zero =>
      intro operation hfinite hdepth
      cases operation
      exact absurd hdepth depth_object_le_zero
    | succ levels => exact restoredAt_readWith fun below hbelow => ih below (by omega)

/-- What is written for an expression is read back, without the constants that are null. -/
theorem restores (levels : Nat) :
    Restores levels (read levels) toJson dropNulls
      (fun operation => ∀ constant ∈ operation.constants, constant.IsFinite) :=
  restoredAt_readWithin levels levels (Nat.le_refl levels)

end Operation

/-! ## What is read -/

/-- What a reader has to do with the parts of an expression, that no constant of the expression be
null or infinite. -/
abbrev Operation.StoredBy (reader : Reader Operation) : Prop :=
  ∀ levels, Ensures (reader levels)
    (fun operation => ∀ constant ∈ operation.constants, constant.IsStored)

section

variable {reader : Reader Operation}

theorem Argument.ensures (h : Operation.StoredBy reader) (levels : Nat) :
    Ensures (Argument.readWith reader levels)
      (fun argument => ∀ constant ∈ argument.constants, constant.IsStored) := by
  intro json hjson argument hread
  cases levels with
  | zero => cases hread
  | succ levels =>
    simp only [readWith, Option.bind_eq_bind, Option.bind_eq_some_iff, Option.pure_def,
      Option.some.injEq] at hread
    obtain ⟨fields, hfields, parameter, hparameter, value, hvalue, rfl⟩ := hread
    have hsound := hjson.fields? hfields
    simp only [constants, List.forall_mem_append, List.forall_mem_flatMap, Option.mem_toList]
    exact ⟨hsound.optional (ParameterSymbol.ensures levels).nullable forall_mem_none hparameter,
      hsound.required (h levels) hvalue⟩

theorem AnonymousMember.ensures (h : Operation.StoredBy reader) (levels : Nat) :
    Ensures (AnonymousMember.readWith reader levels)
      (fun member => ∀ constant ∈ member.constants, constant.IsStored) := by
  intro json hjson member hread
  cases levels with
  | zero => cases hread
  | succ levels =>
    simp only [readWith, Option.bind_eq_bind, Option.bind_eq_some_iff, Option.pure_def,
      Option.some.injEq] at hread
    obtain ⟨fields, hfields, name, -, value, hvalue, rfl⟩ := hread
    rw [constants]
    exact (hjson.fields? hfields).required (h levels) hvalue

theorem Invocation.isStored_of_ofFields? (h : Operation.StoredBy reader) {levels : Nat}
    {fields : Fields} (hfields : fields.WellFormed) {call : Invocation}
    (hread : ofFields? reader levels fields = some call) :
    ∀ constant ∈ call.constants, constant.IsStored := by
  simp only [ofFields?, Option.bind_eq_bind, Option.bind_eq_some_iff, Option.pure_def,
    Option.some.injEq] at hread
  obtain ⟨method, hmethod, receiver, hreceiver, arguments, harguments, rfl⟩ := hread
  simp only [constants, Operation.constantsOption_eq, Argument.constantsList_eq,
    List.forall_mem_append, List.forall_mem_flatMap, Option.mem_toList]
  exact ⟨hfields.required (MethodRef.ensures levels) hmethod,
    hfields.optional (h levels).nullable forall_mem_none hreceiver,
    hfields.list (Argument.ensures h) harguments⟩

theorem ObjectCreation.isStored_of_ofFields? (h : Operation.StoredBy reader) {levels : Nat}
    {fields : Fields} (hfields : fields.WellFormed) {creation : ObjectCreation}
    (hread : ofFields? reader levels fields = some creation) :
    ∀ constant ∈ creation.constants, constant.IsStored := by
  simp only [ofFields?, Option.bind_eq_bind, Option.bind_eq_some_iff, Option.pure_def,
    Option.some.injEq] at hread
  obtain ⟨method, hmethod, arguments, harguments, initializer, hinitializer, rfl⟩ := hread
  simp only [constants, Operation.constantsListOption_eq, Argument.constantsList_eq,
    List.forall_mem_append, List.forall_mem_flatMap, Option.mem_toList]
  have hitems := hfields.optional (Ensures.list h levels).nullable forall_mem_none hinitializer
  refine ⟨hfields.optional (MethodRef.ensures levels).nullable forall_mem_none hmethod,
    hfields.list (Argument.ensures h) harguments, ?_⟩
  cases initializer with
  | none => exact List.forall_mem_nil _
  | some items => exact hitems items rfl

theorem Shape.isStored_of_ofMembers? (h : Operation.StoredBy reader) {levels : Nat}
    {members : List (String × Json)} (hmembers : ∀ member ∈ members, member.2.WellFormed)
    {kind : String} {shape : Shape} (hread : ofMembers? reader levels kind members = some shape) :
    ∀ constant ∈ shape.constants, constant.IsStored := by
  -- one case for each name, in the order of the reader
  have hoption := (h levels).nullable
  unfold ofMembers? at hread
  split at hread <;>
    simp only [Option.bind_eq_bind, Option.bind_eq_some_iff, Option.pure_def, Option.some.injEq]
      at hread
  case h_2 =>
    obtain ⟨fields, hfields, name, -, initializer, hinitializer, rfl⟩ := hread
    simp only [constants, Operation.constantsOption_eq, List.forall_mem_flatMap, Option.mem_toList]
    exact (WellFormed.knownMembers? hmembers hfields).optional hoption forall_mem_none hinitializer
  case h_3 =>
    obtain ⟨fields, hfields, name, -, rfl⟩ := hread
    exact List.forall_mem_nil _
  case h_4 =>
    obtain ⟨fields, hfields, name, -, initializer, hinitializer, rfl⟩ := hread
    simp only [constants, Operation.constantsOption_eq, List.forall_mem_flatMap, Option.mem_toList]
    exact (WellFormed.knownMembers? hmembers hfields).optional hoption forall_mem_none hinitializer
  case h_5 =>
    obtain ⟨fields, hfields, name, -, arguments, harguments, rfl⟩ := hread
    rw [constants, Argument.constantsList_eq, List.forall_mem_flatMap]
    exact (WellFormed.knownMembers? hmembers hfields).list (Argument.ensures h) harguments
  case h_6 =>
    obtain ⟨fields, hfields, call, hcall, rfl⟩ := hread
    exact Invocation.isStored_of_ofFields? h (WellFormed.knownMembers? hmembers hfields) hcall
  case h_7 =>
    obtain ⟨fields, hfields, creation, hcreation, rfl⟩ := hread
    exact ObjectCreation.isStored_of_ofFields? h (WellFormed.knownMembers? hmembers hfields)
      hcreation
  case h_8 =>
    obtain ⟨fields, hfields, elements, helements, rfl⟩ := hread
    rw [constants, Operation.constantsList_eq, List.forall_mem_flatMap]
    exact (WellFormed.knownMembers? hmembers hfields).list h helements
  case h_9 =>
    obtain ⟨fields, hfields, items, hitems, rfl⟩ := hread
    rw [constants, AnonymousMember.constantsList_eq, List.forall_mem_flatMap]
    exact (WellFormed.knownMembers? hmembers hfields).list (AnonymousMember.ensures h) hitems
  case h_10 =>
    obtain ⟨fields, hfields, operand, hoperand, rfl⟩ := hread
    exact (WellFormed.knownMembers? hmembers hfields).required (h levels) hoperand
  case h_12 =>
    obtain ⟨fields, hfields, target, htarget, value, hvalue, rfl⟩ := hread
    have hsound := WellFormed.knownMembers? hmembers hfields
    rw [constants, List.forall_mem_append]
    exact ⟨hsound.required (h levels) htarget, hsound.required (h levels) hvalue⟩
  all_goals
    subst hread
    exact List.forall_mem_nil _

end

namespace Operation

/-- A reader that gives parts without null and infinite constants gives such expressions. -/
theorem storedBy_readWith {reader : Reader Operation} (h : StoredBy reader) :
    StoredBy (readWith reader) := by
  intro levels value hvalue operation hread
  cases levels with
  | zero => cases hread
  | succ levels =>
    cases value with
    | object members =>
      rw [WellFormed, everyScalar_object] at hvalue
      simp only [readWith, Option.bind_eq_bind, Option.bind_eq_some_iff, Option.pure_def,
        Option.some.injEq] at hread
      obtain ⟨own, hown, -, -, kind, -, type, -, constant, hconstant, shape, hshape, rfl⟩ := hread
      have hsound := WellFormed.knownMembers? hvalue hown
      simp only [constants, List.forall_mem_append, Option.mem_toList]
      exact ⟨hsound.optional Constant.nullable_ensures forall_mem_none hconstant,
        Shape.isStored_of_ofMembers? h hvalue hshape⟩
    | _ => cases hread

theorem storedBy_readWithin (fuel : Nat) : StoredBy (readWithin fuel) := by
  induction fuel with
  | zero => exact fun levels value hvalue operation hread => nomatch hread
  | succ fuel ih => exact storedBy_readWith ih

theorem ensures : StoredBy read := fun levels =>
  storedBy_readWithin levels levels

end Operation

/-! ## Storing twice -/

namespace Operation

/-- Reading what is written for an expression gives it back without the constants that are null.
What has been read out of a well-formed value has no such constant, and is given back as it is. -/
theorem survives_storage :
    (∀ operation : Operation, (∀ constant ∈ operation.constants, constant.IsFinite) →
      Reader.run read operation.toJson = some operation.dropNulls) ∧
    ∀ (value : Json) (operation : Operation), value.WellFormed →
      Reader.run read value = some operation →
        Reader.run read operation.toJson = some operation := by
  have hrestores (operation : Operation)
      (hfinite : ∀ constant ∈ operation.constants, constant.IsFinite) :
      Reader.run read operation.toJson = some operation.dropNulls :=
    restores operation.toJson.depth operation hfinite (Nat.le_refl operation.toJson.depth)
  refine ⟨hrestores, fun value operation hvalue hread => ?_⟩
  have hstored := ensures value.depth value hvalue operation hread
  rw [hrestores operation fun constant hconstant => (hstored constant hconstant).2,
    dropNulls_eq_self fun constant hconstant => (hstored constant hconstant).1]

/-- A call whose argument is the constant null, with a null in an attribute of its parameter. -/
def nullCall : Operation where
  shape := .invocation {
    method := {
      symbol := ⟨7⟩
      name := "LogInformation"
      parameters := [{
        name := "id"
        type := { display := "string" }
        attributes :=
          [{ type := ⟨9⟩, namedArguments := [{ name := "Name", value := some .null }] }] }] }
    arguments := [{ value := { constant := some .null, shape := .literal } }] }

/-- A conversion of an unknown construct, with an integer that is too large for a signed word. -/
def storedConversion : Json :=
  .object
    [("kind", .string "conversion"), ("constant", .int 18446744073709551615),
     ("operand", .object [("kind", .string "lambda"), ("captures", .array [])])]

theorem survives_storage_nullCall :
    Reader.run read nullCall.toJson = some nullCall.dropNulls ∧
    ∃ operation, Reader.run read storedConversion = some operation ∧
      Reader.run read operation.toJson = some operation := by
  have hfinite : ∀ constant ∈ nullCall.constants, constant.IsFinite := by
    intro constant hconstant
    have hnull : nullCall.constants = [.null, .null] := rfl
    obtain rfl : constant = .null := by simpa [hnull] using hconstant
    trivial
  have hnumbers : storedConversion.WellFormed := by
    simp [storedConversion, WellFormed, EveryScalar, EveryScalarMember, EveryScalarItem, NumberFits]
  have hread : (Reader.run read storedConversion).isSome = true := by decide +kernel
  obtain ⟨operation, hread⟩ := Option.isSome_iff_exists.mp hread
  exact ⟨survives_storage.1 nullCall hfinite, operation, hread,
    survives_storage.2 storedConversion operation hnumbers hread⟩

end Operation

end LogCensus
