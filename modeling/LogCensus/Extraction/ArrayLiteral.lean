import LogCensus.Extraction.Outcome

/-!
# Values in an array

The values of a message given as an array: the implicit array of a variable number of arguments, an
array creation, or a local or field whose initializer is one. The elements are matched with the
placeholders by position; surplus elements are dropped, and surplus placeholders get no parameter.
-/

namespace LogCensus.ArrayLiteral

/-- The elements of the array that an argument stands for. -/
def elements? (argument : Operation) : Option (List Operation) :=
  match argument.origin.shape with
  | .arrayCreation elements => some elements
  | _ => none

/-- The parameters of an array of values; complete when there are as many values as placeholders. -/
def extract (argument : Operation) (placeholders : List String) : Outcome :=
  match elements? argument with
  | none => .unsupported .arrayLiteral
  | some elements =>
    .found .arrayLiteral (placeholders.zipWith Parameter.ofValue elements)
      (elements.length == placeholders.length)

end LogCensus.ArrayLiteral
