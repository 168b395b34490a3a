import LogCensus.Extraction.Outcome

/-!
# Types of a message factory

A call of the message factory has no values; its type arguments are matched with the placeholders by
position.
-/

namespace LogCensus.TypeArguments

/-- The parameter for a type argument. -/
def parameter (name : String) (type : TypeRef) : Parameter :=
  { name := name, type := type.displayOrObject, kind := .typeArgument }

/-- The parameters of a factory call; complete when there are as many types as placeholders. -/
def extract (method : MethodRef) (placeholders : List String) : Outcome :=
  .found .genericTypeArguments (placeholders.zipWith parameter method.typeArguments)
    (method.typeArguments.length == placeholders.length)

end LogCensus.TypeArguments
