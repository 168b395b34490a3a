import LogCensus.Extraction.Outcome

/-!
# Members of an anonymous object

Each member of an anonymous object is a parameter with the member's name. Anonymous objects inside
are flattened, their members named by the path with dots between the names.
-/

namespace LogCensus.AnonymousObject

/-- The name of a member below a path; at the top the path is empty. -/
def qualified (path name : String) : String :=
  if path.isEmpty then name else path ++ "." ++ name

mutual
/-- The parameters of the members below a path, in order. -/
def flatten (path : String) : List AnonymousMember → List Parameter
  | [] => []
  | member :: rest => flattenMember path member ++ flatten path rest
/-- The parameters of one member. -/
def flattenMember (path : String) : AnonymousMember → List Parameter
  | ⟨name, value⟩ =>
    (nested? (qualified path name) value).getD [.ofValue (qualified path name) value]
/-- The parameters of a value that is an anonymous object itself, under conversions. -/
def nested? (path : String) : Operation → Option (List Parameter)
  | ⟨_, _, shape⟩ => nestedShape? path shape
/-- The parameters of a shape that is an anonymous object, under conversions. -/
def nestedShape? (path : String) : Shape → Option (List Parameter)
  | .conversion operand => nested? path operand
  | .anonymousObjectCreation members => some (flatten path members)
  | _ => none
end

/-- The members of the anonymous object that an argument stands for. -/
def members? (argument : Operation) : Option (List AnonymousMember) :=
  match argument.origin.shape with
  | .anonymousObjectCreation members => some members
  | _ => none

/-- The parameters of an anonymous object. -/
def extract (argument : Operation) : Outcome :=
  match members? argument with
  | none => .unsupported .anonymousObject
  | some members => .found .anonymousObject (flatten "" members) true

end LogCensus.AnonymousObject
