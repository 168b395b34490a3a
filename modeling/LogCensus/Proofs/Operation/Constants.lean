import LogCensus.Operation
import LogCensus.Proofs.Symbol.Storage

/-!
# The constants in an expression

Constants stand on an operation itself, on its parts, and in the attributes of the parameters and
methods that it refers to.

* `Operation.inductionOnParts`: induction over expressions by the expressions directly below.
* `Operation.constants`: all constants in an expression.
* `Operation.dropNulls`: the expression without those constants that are null.
-/

namespace LogCensus

/-! ## The parts of an expression -/

/-- The expressions directly below an expression. -/
def Shape.parts : Shape → List Operation
  | .localReference _ initializer => initializer.toList
  | .fieldReference _ initializer => initializer.toList
  | .propertyReference _ arguments => arguments.map Argument.value
  | .invocation call => call.receiver.toList ++ call.arguments.map Argument.value
  | .objectCreation creation =>
    creation.arguments.map Argument.value ++ creation.initializer.getD []
  | .arrayCreation elements => elements
  | .anonymousObjectCreation members => members.map AnonymousMember.value
  | .conversion operand => [operand]
  | .assignment target value => [target, value]
  | _ => []

theorem Argument.sizeOf_lt_of_mem {arguments : List Argument} {value : Operation}
    (h : value ∈ arguments.map Argument.value) : sizeOf value < sizeOf arguments := by
  obtain ⟨⟨parameter, value⟩, hargument, rfl⟩ := List.mem_map.mp h
  have hlist := List.sizeOf_lt_of_mem hargument
  simp only [Argument.mk.sizeOf_spec] at hlist ⊢
  omega

theorem AnonymousMember.sizeOf_lt_of_mem {members : List AnonymousMember} {value : Operation}
    (h : value ∈ members.map AnonymousMember.value) : sizeOf value < sizeOf members := by
  obtain ⟨⟨name, value⟩, hmember, rfl⟩ := List.mem_map.mp h
  have hlist := List.sizeOf_lt_of_mem hmember
  simp only [AnonymousMember.mk.sizeOf_spec] at hlist ⊢
  omega

theorem Shape.sizeOf_lt_of_mem_parts {shape : Shape} {part : Operation} (h : part ∈ shape.parts) :
    sizeOf part < sizeOf shape := by
  cases shape with
  | localReference name initializer =>
    obtain rfl := Option.mem_toList.mp h
    simp only [localReference.sizeOf_spec, Option.some.sizeOf_spec]
    omega
  | fieldReference name initializer =>
    obtain rfl := Option.mem_toList.mp h
    simp only [fieldReference.sizeOf_spec, Option.some.sizeOf_spec]
    omega
  | propertyReference name arguments =>
    have harguments := Argument.sizeOf_lt_of_mem h
    simp only [propertyReference.sizeOf_spec]
    omega
  | invocation call =>
    obtain ⟨method, receiver, arguments⟩ := call
    simp only [invocation.sizeOf_spec, Invocation.mk.sizeOf_spec]
    rcases List.mem_append.mp h with h | h
    · obtain rfl := Option.mem_toList.mp h
      simp only [Option.some.sizeOf_spec]
      omega
    · have harguments : sizeOf part < sizeOf arguments := Argument.sizeOf_lt_of_mem h
      omega
  | objectCreation creation =>
    obtain ⟨method, arguments, initializer⟩ := creation
    simp only [objectCreation.sizeOf_spec, ObjectCreation.mk.sizeOf_spec]
    rcases List.mem_append.mp h with h | h
    · have harguments : sizeOf part < sizeOf arguments := Argument.sizeOf_lt_of_mem h
      omega
    · cases initializer with
      | none => cases h
      | some items =>
        have hitems := List.sizeOf_lt_of_mem h
        simp only [Option.getD_some] at hitems
        simp only [Option.some.sizeOf_spec]
        omega
  | arrayCreation elements =>
    have helements := List.sizeOf_lt_of_mem h
    simp only [parts] at helements
    simp only [arrayCreation.sizeOf_spec]
    omega
  | anonymousObjectCreation members =>
    have hmembers := AnonymousMember.sizeOf_lt_of_mem h
    simp only [anonymousObjectCreation.sizeOf_spec]
    omega
  | conversion operand =>
    obtain rfl := List.mem_singleton.mp h
    simp only [conversion.sizeOf_spec]
    omega
  | assignment target value =>
    simp only [parts, List.mem_cons, List.not_mem_nil, or_false] at h
    simp only [assignment.sizeOf_spec]
    rcases h with rfl | rfl <;> omega
  | _ => cases h

/-- A property of expressions that passes from the parts to the whole holds of all expressions. -/
theorem Operation.inductionOnParts {P : Operation → Prop}
    (h : ∀ operation, (∀ part ∈ operation.shape.parts, P part) → P operation)
    (operation : Operation) : P operation :=
  h operation fun part _ => inductionOnParts h part
termination_by sizeOf operation
decreasing_by
  have hshape := Shape.sizeOf_lt_of_mem_parts (by assumption)
  cases operation
  simp only [Operation.mk.sizeOf_spec] at hshape ⊢
  omega

/-! ## Constants -/

mutual
/-- The constants in an expression: its own, those in its parts, and those in the attributes of the
parameters and methods it refers to. -/
def Operation.constants : Operation → List Constant
  | ⟨_, constant, shape⟩ => constant.toList ++ shape.constants
/-- The constants in the parts of a shape. -/
def Shape.constants : Shape → List Constant
  | .localReference _ initializer => Operation.constantsOption initializer
  | .fieldReference _ initializer => Operation.constantsOption initializer
  | .propertyReference _ arguments => Argument.constantsList arguments
  | .invocation call => call.constants
  | .objectCreation creation => creation.constants
  | .arrayCreation elements => Operation.constantsList elements
  | .anonymousObjectCreation members => AnonymousMember.constantsList members
  | .conversion operand => operand.constants
  | .assignment target value => target.constants ++ value.constants
  | _ => []
/-- The constants in an argument and in the attributes of its parameter. -/
def Argument.constants : Argument → List Constant
  | ⟨parameter, value⟩ => parameter.toList.flatMap ParameterSymbol.constants ++ value.constants
/-- The constants in a member of an anonymous object. -/
def AnonymousMember.constants : AnonymousMember → List Constant
  | ⟨_, value⟩ => value.constants
/-- The constants in a method call. -/
def Invocation.constants : Invocation → List Constant
  | ⟨method, receiver, arguments⟩ =>
    method.constants ++ (Operation.constantsOption receiver ++ Argument.constantsList arguments)
/-- The constants in a constructor call. -/
def ObjectCreation.constants : ObjectCreation → List Constant
  | ⟨method, arguments, initializer⟩ =>
    method.toList.flatMap MethodRef.constants ++
      (Argument.constantsList arguments ++ Operation.constantsListOption initializer)
/-- The constants in an expression that may be absent. -/
def Operation.constantsOption : Option Operation → List Constant
  | none => []
  | some operation => operation.constants
/-- The constants in a list of expressions. -/
def Operation.constantsList : List Operation → List Constant
  | [] => []
  | operation :: rest => operation.constants ++ Operation.constantsList rest
/-- The constants in a list of expressions that may be absent. -/
def Operation.constantsListOption : Option (List Operation) → List Constant
  | none => []
  | some operations => Operation.constantsList operations
/-- The constants in a list of arguments. -/
def Argument.constantsList : List Argument → List Constant
  | [] => []
  | argument :: rest => argument.constants ++ Argument.constantsList rest
/-- The constants in a list of members. -/
def AnonymousMember.constantsList : List AnonymousMember → List Constant
  | [] => []
  | member :: rest => member.constants ++ AnonymousMember.constantsList rest
end

mutual
/-- The expression without the constants in it that are null. -/
def Operation.dropNulls : Operation → Operation
  | ⟨type, constant, shape⟩ => ⟨type, Constant.dropNull constant, shape.dropNulls⟩
/-- The shape without the constants in its parts that are null. -/
def Shape.dropNulls : Shape → Shape
  | .literal => .literal
  | .localReference name initializer =>
    .localReference name (Operation.dropNullsOption initializer)
  | .parameterReference name => .parameterReference name
  | .fieldReference name initializer =>
    .fieldReference name (Operation.dropNullsOption initializer)
  | .propertyReference name arguments =>
    .propertyReference name (Argument.dropNullsList arguments)
  | .invocation call => .invocation call.dropNulls
  | .objectCreation creation => .objectCreation creation.dropNulls
  | .arrayCreation elements => .arrayCreation (Operation.dropNullsList elements)
  | .anonymousObjectCreation members =>
    .anonymousObjectCreation (AnonymousMember.dropNullsList members)
  | .conversion operand => .conversion operand.dropNulls
  | .defaultValue => .defaultValue
  | .assignment target value => .assignment target.dropNulls value.dropNulls
  | .other => .other
/-- The argument without the constants in it that are null. -/
def Argument.dropNulls : Argument → Argument
  | ⟨parameter, value⟩ => ⟨parameter.map ParameterSymbol.dropNulls, value.dropNulls⟩
/-- The member without the constants in it that are null. -/
def AnonymousMember.dropNulls : AnonymousMember → AnonymousMember
  | ⟨name, value⟩ => ⟨name, value.dropNulls⟩
/-- The call without the constants in it that are null. -/
def Invocation.dropNulls : Invocation → Invocation
  | ⟨method, receiver, arguments⟩ =>
    ⟨method.dropNulls, Operation.dropNullsOption receiver, Argument.dropNullsList arguments⟩
/-- The constructor call without the constants in it that are null. -/
def ObjectCreation.dropNulls : ObjectCreation → ObjectCreation
  | ⟨method, arguments, initializer⟩ =>
    ⟨method.map MethodRef.dropNulls, Argument.dropNullsList arguments,
      Operation.dropNullsListOption initializer⟩
/-- An expression that may be absent, without the constants in it that are null. -/
def Operation.dropNullsOption : Option Operation → Option Operation
  | none => none
  | some operation => some operation.dropNulls
/-- The expressions without the constants in them that are null. -/
def Operation.dropNullsList : List Operation → List Operation
  | [] => []
  | operation :: rest => operation.dropNulls :: Operation.dropNullsList rest
/-- Expressions that may be absent, without the constants in them that are null. -/
def Operation.dropNullsListOption : Option (List Operation) → Option (List Operation)
  | none => none
  | some operations => some (Operation.dropNullsList operations)
/-- The arguments without the constants in them that are null. -/
def Argument.dropNullsList : List Argument → List Argument
  | [] => []
  | argument :: rest => argument.dropNulls :: Argument.dropNullsList rest
/-- The members without the constants in them that are null. -/
def AnonymousMember.dropNullsList : List AnonymousMember → List AnonymousMember
  | [] => []
  | member :: rest => member.dropNulls :: AnonymousMember.dropNullsList rest
end

/-! ## Lists of parts -/

namespace Operation

@[simp] theorem constantsOption_eq (operation : Option Operation) :
    constantsOption operation = operation.toList.flatMap constants := by
  cases operation <;> simp [constantsOption]

@[simp] theorem constantsList_eq (operations : List Operation) :
    constantsList operations = operations.flatMap constants := by
  induction operations with
  | nil => rfl
  | cons operation rest ih => rw [constantsList, ih, List.flatMap_cons]

@[simp] theorem constantsListOption_eq (operations : Option (List Operation)) :
    constantsListOption operations = (operations.getD []).flatMap constants := by
  cases operations with
  | none => rfl
  | some operations => exact constantsList_eq operations

@[simp] theorem dropNullsOption_eq (operation : Option Operation) :
    dropNullsOption operation = operation.map dropNulls := by
  cases operation <;> rfl

@[simp] theorem dropNullsList_eq (operations : List Operation) :
    dropNullsList operations = operations.map dropNulls := by
  induction operations with
  | nil => rfl
  | cons operation rest ih => rw [dropNullsList, ih, List.map_cons]

@[simp] theorem dropNullsListOption_eq (operations : Option (List Operation)) :
    dropNullsListOption operations = operations.map (List.map dropNulls) := by
  cases operations with
  | none => rfl
  | some operations => exact congrArg some (dropNullsList_eq operations)

end Operation

namespace Argument

@[simp] theorem constantsList_eq (arguments : List Argument) :
    constantsList arguments = arguments.flatMap constants := by
  induction arguments with
  | nil => rfl
  | cons argument rest ih => rw [constantsList, ih, List.flatMap_cons]

@[simp] theorem dropNullsList_eq (arguments : List Argument) :
    dropNullsList arguments = arguments.map dropNulls := by
  induction arguments with
  | nil => rfl
  | cons argument rest ih => rw [dropNullsList, ih, List.map_cons]

end Argument

namespace AnonymousMember

@[simp] theorem constantsList_eq (members : List AnonymousMember) :
    constantsList members = members.flatMap constants := by
  induction members with
  | nil => rfl
  | cons member rest ih => rw [constantsList, ih, List.flatMap_cons]

@[simp] theorem dropNullsList_eq (members : List AnonymousMember) :
    dropNullsList members = members.map dropNulls := by
  induction members with
  | nil => rfl
  | cons member rest ih => rw [dropNullsList, ih, List.map_cons]

end AnonymousMember

/-! ## Expressions without null constants -/

/-- An expression without null constants has nothing to drop. -/
abbrev Operation.KeepsAll (operation : Operation) : Prop :=
  (∀ constant ∈ operation.constants, constant.isNull = false) → operation.dropNulls = operation

theorem Argument.dropNulls_eq_self {argument : Argument} (hvalue : argument.value.KeepsAll)
    (h : ∀ constant ∈ argument.constants, constant.isNull = false) :
    argument.dropNulls = argument := by
  obtain ⟨parameter, value⟩ := argument
  simp only [constants, List.forall_mem_append, List.forall_mem_flatMap, Option.mem_toList] at h
  have hparameter : parameter.map ParameterSymbol.dropNulls = parameter :=
    option_map_eq_self fun found hfound => ParameterSymbol.dropNulls_eq_self (h.1 found hfound)
  rw [dropNulls, hparameter, hvalue h.2]

theorem Argument.map_dropNulls {arguments : List Argument}
    (hvalues : ∀ part ∈ arguments.map Argument.value, part.KeepsAll)
    (h : ∀ argument ∈ arguments, ∀ constant ∈ argument.constants, constant.isNull = false) :
    arguments.map Argument.dropNulls = arguments :=
  map_eq_self fun argument hargument =>
    dropNulls_eq_self (hvalues argument.value (List.mem_map_of_mem hargument))
      (h argument hargument)

theorem AnonymousMember.dropNulls_eq_self {member : AnonymousMember}
    (hvalue : member.value.KeepsAll)
    (h : ∀ constant ∈ member.constants, constant.isNull = false) : member.dropNulls = member := by
  obtain ⟨name, value⟩ := member
  rw [constants] at h
  rw [dropNulls, hvalue h]

theorem Shape.dropNulls_eq_self {shape : Shape} (hparts : ∀ part ∈ shape.parts, part.KeepsAll)
    (h : ∀ constant ∈ shape.constants, constant.isNull = false) : shape.dropNulls = shape := by
  cases shape with
  | localReference name initializer =>
    simp only [constants, Operation.constantsOption_eq, List.forall_mem_flatMap, Option.mem_toList]
      at h
    rw [dropNulls, Operation.dropNullsOption_eq, option_map_eq_self fun part hpart =>
      hparts part (Option.mem_toList.mpr hpart) (h part hpart)]
  | fieldReference name initializer =>
    simp only [constants, Operation.constantsOption_eq, List.forall_mem_flatMap, Option.mem_toList]
      at h
    rw [dropNulls, Operation.dropNullsOption_eq, option_map_eq_self fun part hpart =>
      hparts part (Option.mem_toList.mpr hpart) (h part hpart)]
  | propertyReference name arguments =>
    rw [constants, Argument.constantsList_eq, List.forall_mem_flatMap] at h
    rw [dropNulls, Argument.dropNullsList_eq, Argument.map_dropNulls hparts h]
  | invocation call =>
    obtain ⟨method, receiver, arguments⟩ := call
    obtain ⟨hreceiver, harguments⟩ := List.forall_mem_append.mp hparts
    simp only [constants, Invocation.constants, Operation.constantsOption_eq,
      Argument.constantsList_eq, List.forall_mem_append, List.forall_mem_flatMap,
      Option.mem_toList] at h
    rw [dropNulls, Invocation.dropNulls, Operation.dropNullsOption_eq, Argument.dropNullsList_eq,
      MethodRef.dropNulls_eq_self h.1, Argument.map_dropNulls harguments h.2.2,
      option_map_eq_self fun part hpart =>
        hreceiver part (Option.mem_toList.mpr hpart) (h.2.1 part hpart)]
  | objectCreation creation =>
    obtain ⟨method, arguments, initializer⟩ := creation
    obtain ⟨harguments, hitems⟩ := List.forall_mem_append.mp hparts
    simp only [constants, ObjectCreation.constants, Operation.constantsListOption_eq,
      Argument.constantsList_eq, List.forall_mem_append, List.forall_mem_flatMap,
      Option.mem_toList] at h
    have hinitializer : initializer.map (List.map Operation.dropNulls) = initializer := by
      cases initializer with
      | none => rfl
      | some items =>
        exact congrArg some (map_eq_self fun part hpart => hitems part hpart (h.2.2 part hpart))
    rw [dropNulls, ObjectCreation.dropNulls, Operation.dropNullsListOption_eq,
      Argument.dropNullsList_eq, Argument.map_dropNulls harguments h.2.1, hinitializer,
      option_map_eq_self fun method hmethod => MethodRef.dropNulls_eq_self (h.1 method hmethod)]
  | arrayCreation elements =>
    rw [constants, Operation.constantsList_eq, List.forall_mem_flatMap] at h
    have helements : elements.map Operation.dropNulls = elements :=
      map_eq_self fun part hpart => hparts part hpart (h part hpart)
    rw [dropNulls, Operation.dropNullsList_eq, helements]
  | anonymousObjectCreation members =>
    rw [constants, AnonymousMember.constantsList_eq, List.forall_mem_flatMap] at h
    rw [dropNulls, AnonymousMember.dropNullsList_eq, map_eq_self fun member hmember =>
      AnonymousMember.dropNulls_eq_self (hparts member.value (List.mem_map_of_mem hmember))
        (h member hmember)]
  | conversion operand =>
    rw [constants] at h
    rw [dropNulls, hparts operand (List.mem_singleton_self operand) h]
  | assignment target value =>
    rw [constants, List.forall_mem_append] at h
    rw [dropNulls, hparts target (by simp [parts]) h.1, hparts value (by simp [parts]) h.2]
  | _ => rfl

namespace Operation

theorem dropNulls_eq_self {operation : Operation}
    (h : ∀ constant ∈ operation.constants, constant.isNull = false) :
    operation.dropNulls = operation := by
  revert h
  induction operation using inductionOnParts with
  | h operation ih =>
    intro h
    obtain ⟨type, constant, shape⟩ := operation
    simp only [constants, List.forall_mem_append, Option.mem_toList] at h
    rw [dropNulls, Constant.dropNull_eq_self h.1, Shape.dropNulls_eq_self ih h.2]

end Operation

end LogCensus
