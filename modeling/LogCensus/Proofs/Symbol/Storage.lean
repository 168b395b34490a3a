import LogCensus.Proofs.Decimal.Double
import LogCensus.Proofs.Json.Reader
import LogCensus.Symbol.Codec

/-!
# Stored symbols

Types, attributes, parameters and methods written to JSON and read back. Types come back as they
are. A constant that is null is written as what stands for no constant, so it comes back as none;
a constant that is no finite number has no JSON form.

* `dropNulls`: the same without the constants that are null.
* `constants`: the constants in all attributes.
* `restores`: what is written for `x` is read as `x.dropNulls`.
* `ensures`: what is read has neither null nor infinite constants.
-/

namespace LogCensus

open Json

namespace Constant

/-- The constant has a JSON form: it is not a double without a finite value. -/
def IsFinite : Constant → Prop
  | .float value => value.isFinite = true
  | _ => True

/-- The constant is one that is read where there may be none: not null, and finite. -/
def IsStored (constant : Constant) : Prop :=
  constant.isNull = false ∧ constant.IsFinite

/-- An optional constant, none when it is null. -/
def dropNull (constant : Option Constant) : Option Constant :=
  constant.filter fun constant => !constant.isNull

theorem dropNull_eq_self {constant : Option Constant}
    (h : ∀ found ∈ constant, found.isNull = false) : dropNull constant = constant := by
  cases constant with
  | none => rfl
  | some found => simp [dropNull, Option.filter, h found rfl]

theorem readable_toJson (constant : Constant) : constant.toJson.Readable := by
  unfold toJson
  split <;> try split
  all_goals simp [Readable, EveryScalar]

theorem ofJson?_toJson {constant : Constant} (h : constant.IsFinite) :
    ofJson? constant.toJson = some constant := by
  cases constant with
  | null => rfl
  | bool value => rfl
  | int value =>
    have hrange := And.intro value.minValue_le_toInt value.toInt_le
    rw [toJson, ofJson?, if_pos hrange, Int64.ofInt_toInt]
  | float value =>
    rw [IsFinite] at h
    rw [toJson, if_pos h, ofJson?]
  | string value => rfl

theorem toJson_eq_null_iff {constant : Constant} (h : constant.IsFinite) :
    constant.toJson = .null ↔ constant.isNull = true := by
  cases constant with
  | float value =>
    rw [IsFinite] at h
    simp [toJson, h, isNull]
  | _ => simp [toJson, isNull]

theorem nullable_ofOption {constant : Option Constant} (h : ∀ found ∈ constant, found.IsFinite) :
    nullable? ofJson? (ofOption toJson constant) = some (dropNull constant) := by
  cases constant with
  | none => rfl
  | some found =>
    have hfinite := h found rfl
    rw [ofOption]
    cases hnull : found.isNull with
    | true =>
      rw [(toJson_eq_null_iff hfinite).mpr hnull]
      simp [nullable?, dropNull, Option.filter, hnull]
    | false =>
      have hwritten : found.toJson ≠ .null := by
        rw [Ne, toJson_eq_null_iff hfinite, hnull]
        exact Bool.false_ne_true
      rw [nullable?.eq_2 _ _ hwritten, ofJson?_toJson hfinite]
      simp [dropNull, Option.filter, hnull]

theorem isStored_of_ofJson? {value : Json} {constant : Constant} (hvalue : value.WellFormed)
    (hnull : value ≠ .null) (h : ofJson? value = some constant) : constant.IsStored := by
  unfold ofJson? at h
  split at h
  · exact absurd rfl hnull
  · obtain rfl := Option.some.inj h
    exact ⟨rfl, trivial⟩
  · rename_i value
    split at h
    · obtain rfl := Option.some.inj h
      exact ⟨rfl, trivial⟩
    · obtain rfl := Option.some.inj h
      simp only [WellFormed, EveryScalar, NumberFits] at hvalue
      have hlow : Int64.minValue.toInt = -2 ^ 63 := by decide
      have hhigh : (UInt64.size : Int) = 2 ^ 64 := by decide
      have habs : value.natAbs < 2 ^ 64 := by omega
      exact ⟨rfl, Double.isFinite_ofInt habs⟩
  · obtain rfl := Option.some.inj h
    exact ⟨rfl, by simpa [WellFormed, EveryScalar, NumberFits, IsFinite] using hvalue⟩
  · obtain rfl := Option.some.inj h
    exact ⟨rfl, trivial⟩
  all_goals cases h

theorem nullable_ensures :
    Ensures (nullable? ofJson?) (fun constant => ∀ found ∈ constant, found.IsStored) := by
  intro value hvalue result hread found hfound
  unfold nullable? at hread
  split at hread
  · obtain rfl := Option.some.inj hread
    cases hfound
  · obtain ⟨constant, hconstant, rfl⟩ := Option.map_eq_some_iff.mp hread
    obtain rfl := Option.some.inj hfound
    exact isStored_of_ofJson? hvalue (by assumption) hconstant

end Constant

namespace SymbolId

theorem ofJson?_toJson (id : SymbolId) : ofJson? id.toJson = some id := by
  have hword : id.value.toNat < UInt32.size := id.value.toNat_lt
  show ((if id.value.toNat < UInt32.size then some id.value.toNat else none).map
    Nat.toUInt32).map SymbolId.mk = some id
  rw [if_pos hword]
  simp

theorem toJson_ne_null (id : SymbolId) : id.toJson ≠ .null :=
  nofun

theorem readable_toJson (id : SymbolId) : id.toJson.Readable := by
  simp [toJson, EveryScalar]

theorem restores (levels : Nat) : Restores levels ofJson? toJson id (fun _ => True) :=
  fun id _ _ => ofJson?_toJson id

end SymbolId

namespace TypeRef

theorem toJsonList_eq (types : List TypeRef) : .array (toJsonList types) = ofList toJson types := by
  rw [ofList, Json.array.injEq]
  induction types with
  | nil => rfl
  | cons type rest ih => rw [toJsonList, ih, List.map_cons]

theorem toJsonOption_eq (type : Option TypeRef) : toJsonOption type = ofOption toJson type := by
  cases type <;> rfl

theorem toJson_ne_null (type : TypeRef) : type.toJson ≠ .null := by
  cases type
  exact nofun

theorem read_succ (levels : Nat) (value : Json) :
    read (levels + 1) value = do
      let fields ← value.fields? fieldNames
      return {
        symbol := ← fields.optional "symbol" SymbolId.ofJson?
        display := ← fields.required "display" string?
        typeArguments := ← fields.defaulted "typeArguments" [] (Reader.list read levels)
        interfaces := ← fields.defaulted "interfaces" [] (Reader.list read levels)
        baseTypes := ← fields.defaulted "baseTypes" []
          (Reader.list (fun _ => SymbolId.ofJson?) levels)
        elementType := ← fields.optional "elementType" (read levels)
        isAnonymous := ← fields.defaulted "isAnonymous" false bool? } := by
  cases levels with
  | zero => rfl
  | succ below =>
    have hlist : Reader.list read (below + 1) =
        fun items => items.items?.bind fun found => found.mapM (read below) := by
      funext items
      cases items <;> rfl
    rw [hlist, read]

theorem restores (levels : Nat) : Restores levels (read levels) toJson id (fun _ => True) := by
  induction levels using Nat.strongRecOn with
  | ind levels ih =>
    rintro ⟨symbol, display, arguments, interfaces, bases, element, anonymous⟩ - hdepth
    simp only [toJson, toJsonList_eq, toJsonOption_eq] at hdepth ⊢
    cases levels with
    | zero => exact absurd hdepth depth_object_le_zero
    | succ levels =>
      simp only [depth_object_le_succ, List.forall_mem_cons] at hdepth
      obtain ⟨hsymbol, -, harguments, hinterfaces, hbases, helement, -⟩ := hdepth
      have htypes := Restores.list fun below hbelow => ih below (Nat.lt_succ_of_lt hbelow)
      have hids := Restores.list fun below (_ : below < levels) => SymbolId.restores below
      have hid := Restores.option SymbolId.toJson_ne_null (SymbolId.restores levels)
      have htype := Restores.option toJson_ne_null (ih levels (Nat.lt_succ_self levels))
      rw [read_succ, fields?_object (by rfl) (by decide)]
      show (do
        return ({
          symbol := ← nullable? SymbolId.ofJson? (ofOption SymbolId.toJson symbol)
          display := display
          typeArguments := ← Reader.list read levels (ofList toJson arguments)
          interfaces := ← Reader.list read levels (ofList toJson interfaces)
          baseTypes := ← Reader.list (fun _ => SymbolId.ofJson?) levels
            (ofList SymbolId.toJson bases)
          elementType := ← nullable? (read levels) (ofOption toJson element)
          isAnonymous := anonymous } : TypeRef)) = _
      rw [hid symbol (fun _ _ => trivial) hsymbol, htypes arguments (fun _ _ => trivial) harguments,
        htypes interfaces (fun _ _ => trivial) hinterfaces, hids bases (fun _ _ => trivial) hbases,
        htype element (fun _ _ => trivial) helement]
      simp only [Option.map_id, List.map_id, id]
      rfl

mutual
theorem readable_toJson : (type : TypeRef) → type.toJson.Readable
  | ⟨symbol, display, typeArguments, interfaces, baseTypes, elementType, isAnonymous⟩ => by
    have hbases : (ofList SymbolId.toJson baseTypes).Readable :=
      readable_ofList fun id _ => id.readable_toJson
    have hsymbol : (ofOption SymbolId.toJson symbol).Readable :=
      readable_ofOption fun id _ => id.readable_toJson
    have harguments := readable_toJsonList typeArguments
    have hinterfaces := readable_toJsonList interfaces
    have helement := readable_toJsonOption elementType
    simp [toJson, *]
    simp [EveryScalar]
theorem readable_toJsonList : (types : List TypeRef) → (Json.array (toJsonList types)).Readable
  | [] => by simp [toJsonList]
  | type :: rest => by
    have htype := readable_toJson type
    have hrest := readable_toJsonList rest
    rw [Readable, everyScalar_array] at hrest ⊢
    rw [toJsonList, List.forall_mem_cons]
    exact ⟨htype, hrest⟩
theorem readable_toJsonOption : (type : Option TypeRef) → (toJsonOption type).Readable
  | none => by simp [toJsonOption, EveryScalar]
  | some type => readable_toJson type
end

end TypeRef

theorem map_eq_self {α : Type} {f : α → α} {items : List α} (h : ∀ item ∈ items, f item = item) :
    items.map f = items :=
  (List.map_congr_left h).trans (List.map_id items)

theorem option_map_eq_self {α : Type} {f : α → α} {value : Option α}
    (h : ∀ found ∈ value, f found = found) : value.map f = value :=
  (Option.map_congr h).trans (congrFun Option.map_id value)

namespace AttributeArgument

/-- The constant given for the argument, if any. -/
def constants (argument : AttributeArgument) : List Constant :=
  argument.value.toList

/-- The argument, without its value when that is null. -/
def dropNulls (argument : AttributeArgument) : AttributeArgument :=
  { argument with value := Constant.dropNull argument.value }

theorem dropNulls_eq_self {argument : AttributeArgument}
    (h : ∀ constant ∈ argument.constants, constant.isNull = false) :
    argument.dropNulls = argument := by
  simp only [constants, Option.mem_toList] at h
  rw [dropNulls, Constant.dropNull_eq_self h]

theorem readable_toJson (argument : AttributeArgument) : argument.toJson.Readable := by
  have htype : (ofOption TypeRef.toJson argument.type).Readable :=
    readable_ofOption fun type _ => type.readable_toJson
  have hvalue : (ofOption Constant.toJson argument.value).Readable :=
    readable_ofOption fun constant _ => constant.readable_toJson
  simp [toJson, EveryScalar, htype, hvalue]

theorem restores (levels : Nat) :
    Restores levels (read levels) toJson dropNulls
      (fun argument => ∀ constant ∈ argument.constants, constant.IsFinite) := by
  rintro ⟨name, type, value⟩ hfinite hdepth
  simp only [constants, Option.mem_toList] at hfinite
  cases levels with
  | zero => exact absurd hdepth depth_object_le_zero
  | succ levels =>
    simp only [toJson, depth_object_le_succ, List.forall_mem_cons] at hdepth
    obtain ⟨-, htype, -⟩ := hdepth
    have htype := Restores.option TypeRef.toJson_ne_null (TypeRef.restores levels) type
      (fun _ _ => trivial) htype
    have hvalue := Constant.nullable_ofOption hfinite
    rw [read, toJson, fields?_object (by rfl) (by decide)]
    show (do
      return ({
        name := name
        type := ← nullable? (TypeRef.read levels) (ofOption TypeRef.toJson type)
        value := ← nullable? Constant.ofJson? (ofOption Constant.toJson value) } :
          AttributeArgument)) = _
    rw [htype, hvalue, Option.map_id]
    rfl

theorem ensures (levels : Nat) :
    Ensures (read levels)
      (fun argument => ∀ constant ∈ argument.constants, constant.IsStored) := by
  intro value hvalue argument hread
  cases levels with
  | zero => cases hread
  | succ levels =>
    simp only [read, Option.bind_eq_bind, Option.bind_eq_some_iff, Option.pure_def,
      Option.some.injEq] at hread
    obtain ⟨fields, hfields, name, -, type, -, constant, hconstant, rfl⟩ := hread
    simp only [constants, Option.mem_toList]
    exact (hvalue.fields? hfields).optional Constant.nullable_ensures forall_mem_none hconstant

end AttributeArgument

namespace Attribute

/-- The constants in all arguments. -/
def constants (applied : Attribute) : List Constant :=
  (applied.constructorArguments ++ applied.namedArguments).flatMap AttributeArgument.constants

/-- The attribute, without the values that are null. -/
def dropNulls (applied : Attribute) : Attribute :=
  { applied with
    constructorArguments := applied.constructorArguments.map AttributeArgument.dropNulls
    namedArguments := applied.namedArguments.map AttributeArgument.dropNulls }

theorem forall_constants_iff {applied : Attribute} {Good : Constant → Prop} :
    (∀ constant ∈ applied.constants, Good constant) ↔
      (∀ argument ∈ applied.constructorArguments, ∀ constant ∈ argument.constants, Good constant) ∧
        ∀ argument ∈ applied.namedArguments, ∀ constant ∈ argument.constants, Good constant := by
  rw [constants, List.forall_mem_flatMap, List.forall_mem_append]

theorem dropNulls_eq_self {applied : Attribute}
    (h : ∀ constant ∈ applied.constants, constant.isNull = false) :
    applied.dropNulls = applied := by
  obtain ⟨hconstructor, hnamed⟩ := forall_constants_iff.mp h
  rw [dropNulls, map_eq_self fun argument hargument =>
      AttributeArgument.dropNulls_eq_self (hconstructor argument hargument),
    map_eq_self fun argument hargument =>
      AttributeArgument.dropNulls_eq_self (hnamed argument hargument)]

theorem readable_toJson (applied : Attribute) : applied.toJson.Readable := by
  have hconstructor : (ofList AttributeArgument.toJson applied.constructorArguments).Readable :=
    readable_ofList fun argument _ => argument.readable_toJson
  have hnamed : (ofList AttributeArgument.toJson applied.namedArguments).Readable :=
    readable_ofList fun argument _ => argument.readable_toJson
  simp [toJson, SymbolId.readable_toJson, hconstructor, hnamed]

theorem restores (levels : Nat) :
    Restores levels (read levels) toJson dropNulls
      (fun applied => ∀ constant ∈ applied.constants, constant.IsFinite) := by
  rintro ⟨type, constructor, named⟩ hfinite hdepth
  obtain ⟨hconstructor, hnamed⟩ := forall_constants_iff.mp hfinite
  cases levels with
  | zero => exact absurd hdepth depth_object_le_zero
  | succ levels =>
    simp only [toJson, depth_object_le_succ, List.forall_mem_cons] at hdepth
    obtain ⟨-, hconstructorDepth, hnamedDepth, -⟩ := hdepth
    have hlist := Restores.list fun below (_ : below < levels) => AttributeArgument.restores below
    rw [read, toJson, fields?_object (by rfl) (by decide)]
    show (do
      return ({
        type := ← SymbolId.ofJson? type.toJson
        constructorArguments := ← Reader.list AttributeArgument.read levels
          (ofList AttributeArgument.toJson constructor)
        namedArguments := ← Reader.list AttributeArgument.read levels
          (ofList AttributeArgument.toJson named) } : Attribute)) = _
    rw [SymbolId.ofJson?_toJson, hlist constructor hconstructor hconstructorDepth,
      hlist named hnamed hnamedDepth]
    rfl

theorem ensures (levels : Nat) :
    Ensures (read levels)
      (fun applied => ∀ constant ∈ applied.constants, constant.IsStored) := by
  intro value hvalue applied hread
  cases levels with
  | zero => cases hread
  | succ levels =>
    simp only [read, Option.bind_eq_bind, Option.bind_eq_some_iff, Option.pure_def,
      Option.some.injEq] at hread
    obtain ⟨fields, hfields, type, -, constructor, hconstructor, named, hnamed, rfl⟩ := hread
    have hsound := hvalue.fields? hfields
    exact forall_constants_iff.mpr ⟨hsound.list AttributeArgument.ensures hconstructor,
      hsound.list AttributeArgument.ensures hnamed⟩

end Attribute

namespace ParameterSymbol

/-- The constants in all attributes. -/
def constants (parameter : ParameterSymbol) : List Constant :=
  parameter.attributes.flatMap Attribute.constants

/-- The parameter, without the attribute values that are null. -/
def dropNulls (parameter : ParameterSymbol) : ParameterSymbol :=
  { parameter with attributes := parameter.attributes.map Attribute.dropNulls }

theorem toJson_ne_null (parameter : ParameterSymbol) : parameter.toJson ≠ .null :=
  nofun

theorem dropNulls_eq_self {parameter : ParameterSymbol}
    (h : ∀ constant ∈ parameter.constants, constant.isNull = false) :
    parameter.dropNulls = parameter := by
  rw [constants, List.forall_mem_flatMap] at h
  rw [dropNulls,
    map_eq_self fun applied happlied => Attribute.dropNulls_eq_self (h applied happlied)]

theorem readable_toJson (parameter : ParameterSymbol) : parameter.toJson.Readable := by
  have hattributes : (ofList Attribute.toJson parameter.attributes).Readable :=
    readable_ofList fun applied _ => applied.readable_toJson
  simp [toJson, EveryScalar, TypeRef.readable_toJson, hattributes]

theorem restores (levels : Nat) :
    Restores levels (read levels) toJson dropNulls
      (fun parameter => ∀ constant ∈ parameter.constants, constant.IsFinite) := by
  rintro ⟨name, type, attributes⟩ hfinite hdepth
  rw [constants, List.forall_mem_flatMap] at hfinite
  cases levels with
  | zero => exact absurd hdepth depth_object_le_zero
  | succ levels =>
    simp only [toJson, depth_object_le_succ, List.forall_mem_cons] at hdepth
    obtain ⟨-, htype, hattributes, -⟩ := hdepth
    have htype := TypeRef.restores levels type trivial htype
    have hattributes := Restores.list (fun below (_ : below < levels) => Attribute.restores below)
      attributes hfinite hattributes
    rw [read, toJson, fields?_object (by rfl) (by decide)]
    show (do
      return ({
        name := name
        type := ← TypeRef.read levels type.toJson
        attributes := ← Reader.list Attribute.read levels (ofList Attribute.toJson attributes) } :
          ParameterSymbol)) = _
    rw [htype, hattributes]
    rfl

theorem ensures (levels : Nat) :
    Ensures (read levels)
      (fun parameter => ∀ constant ∈ parameter.constants, constant.IsStored) := by
  intro value hvalue parameter hread
  cases levels with
  | zero => cases hread
  | succ levels =>
    simp only [read, Option.bind_eq_bind, Option.bind_eq_some_iff, Option.pure_def,
      Option.some.injEq] at hread
    obtain ⟨fields, hfields, name, -, type, -, attributes, hattributes, rfl⟩ := hread
    rw [constants, List.forall_mem_flatMap]
    exact (hvalue.fields? hfields).list Attribute.ensures hattributes

end ParameterSymbol

namespace MethodRef

/-- The constants in the attributes of all parameters. -/
def constants (method : MethodRef) : List Constant :=
  method.parameters.flatMap ParameterSymbol.constants

/-- The method, without the attribute values of its parameters that are null. -/
def dropNulls (method : MethodRef) : MethodRef :=
  { method with parameters := method.parameters.map ParameterSymbol.dropNulls }

theorem toJson_ne_null (method : MethodRef) : method.toJson ≠ .null :=
  nofun

theorem dropNulls_eq_self {method : MethodRef}
    (h : ∀ constant ∈ method.constants, constant.isNull = false) :
    method.dropNulls = method := by
  rw [constants, List.forall_mem_flatMap] at h
  rw [dropNulls, map_eq_self fun parameter hparameter =>
    ParameterSymbol.dropNulls_eq_self (h parameter hparameter)]

theorem readable_toJson (method : MethodRef) : method.toJson.Readable := by
  have hid (id : Option SymbolId) : (ofOption SymbolId.toJson id).Readable :=
    readable_ofOption fun id _ => id.readable_toJson
  have harguments : (ofList TypeRef.toJson method.typeArguments).Readable :=
    readable_ofList fun type _ => type.readable_toJson
  have hparameters : (ofList ParameterSymbol.toJson method.parameters).Readable :=
    readable_ofList fun parameter _ => parameter.readable_toJson
  have hreturn : (ofOption TypeRef.toJson method.returnType).Readable :=
    readable_ofOption fun type _ => type.readable_toJson
  simp [toJson, EveryScalar, SymbolId.readable_toJson, hid, harguments, hparameters, hreturn]

theorem restores (levels : Nat) :
    Restores levels (read levels) toJson dropNulls
      (fun method => ∀ constant ∈ method.constants, constant.IsFinite) := by
  rintro ⟨symbol, generic, name, containing, arguments, parameters, returned⟩ hfinite hdepth
  rw [constants, List.forall_mem_flatMap] at hfinite
  cases levels with
  | zero => exact absurd hdepth depth_object_le_zero
  | succ levels =>
    simp only [toJson, depth_object_le_succ, List.forall_mem_cons] at hdepth
    obtain ⟨-, hgeneric, -, hcontaining, harguments, hparameters, hreturned, -⟩ := hdepth
    have hid := Restores.option SymbolId.toJson_ne_null (SymbolId.restores levels)
    have harguments := Restores.list (fun below (_ : below < levels) => TypeRef.restores below)
      arguments (fun _ _ => trivial) harguments
    have hparameters := Restores.list
      (fun below (_ : below < levels) => ParameterSymbol.restores below)
      parameters hfinite hparameters
    have hreturned := Restores.option TypeRef.toJson_ne_null (TypeRef.restores levels) returned
      (fun _ _ => trivial) hreturned
    rw [read, toJson, fields?_object (by rfl) (by decide)]
    show (do
      return ({
        symbol := ← SymbolId.ofJson? symbol.toJson
        genericDefinition := ← nullable? SymbolId.ofJson? (ofOption SymbolId.toJson generic)
        name := name
        containingType := ← nullable? SymbolId.ofJson? (ofOption SymbolId.toJson containing)
        typeArguments := ← Reader.list TypeRef.read levels (ofList TypeRef.toJson arguments)
        parameters := ← Reader.list ParameterSymbol.read levels
          (ofList ParameterSymbol.toJson parameters)
        returnType := ← nullable? (TypeRef.read levels) (ofOption TypeRef.toJson returned) } :
          MethodRef)) = _
    rw [SymbolId.ofJson?_toJson, hid generic (fun _ _ => trivial) hgeneric,
      hid containing (fun _ _ => trivial) hcontaining, harguments, hparameters, hreturned]
    simp only [Option.map_id, List.map_id, id]
    rfl

theorem ensures (levels : Nat) :
    Ensures (read levels)
      (fun method => ∀ constant ∈ method.constants, constant.IsStored) := by
  intro value hvalue method hread
  cases levels with
  | zero => cases hread
  | succ levels =>
    simp only [read, Option.bind_eq_bind, Option.bind_eq_some_iff, Option.pure_def,
      Option.some.injEq] at hread
    obtain ⟨fields, hfields, symbol, -, generic, -, name, -, containing, -, arguments, -,
      parameters, hparameters, returned, -, rfl⟩ := hread
    rw [constants, List.forall_mem_flatMap]
    exact (hvalue.fields? hfields).list ParameterSymbol.ensures hparameters

end MethodRef

end LogCensus
