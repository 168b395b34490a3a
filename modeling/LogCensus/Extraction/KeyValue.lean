import LogCensus.Extraction.Outcome
import LogCensus.WellKnown

/-!
# Pairs in a collection

A collection of pairs with string keys gives one parameter per pair, named by the key. Keys have to
be constant: a pair with another key is skipped and the outcome is partial. The pairs are the items
of an initializer, the elements of an array, and the pairs of a collection that is copied by a
constructor. A local or field is followed to its initializer; a collection of which only the type is
known gives one parameter for itself.

* `KeyValue.collect`: adds the pairs of an operation to those found so far.
* `KeyValue.extract`: the outcome for an argument.
-/

namespace LogCensus

/-- The pairs found so far, and whether none was skipped. -/
structure Pairs where
  parameters : List Parameter := []
  complete : Bool := true
deriving DecidableEq

namespace Pairs

/-- Adds one parameter. -/
def push (pairs : Pairs) (parameter : Parameter) : Pairs :=
  { pairs with parameters := pairs.parameters ++ [parameter] }

/-- Notes that something was skipped. -/
def skip (pairs : Pairs) : Pairs :=
  { pairs with complete := false }

/-- Adds a pair, which is skipped when its key is not a constant string. -/
def add (pairs : Pairs) (key value : Operation) : Pairs :=
  match key.unwrap.constantString? with
  | some name => pairs.push (.ofValue name value)
  | none => pairs.skip

/-- Adds a collection of which only the type is known. -/
def addOpaque (pairs : Pairs) (name : String) (type : Option TypeRef) : Pairs :=
  pairs.push
    { name := name
      type := type.elim "object" TypeRef.displayOrObject
      kind := .keyValueCollection }

/-- Adds the pair of two arguments. -/
def addArguments (pairs : Pairs) : List Argument → Pairs
  | [key, value] => pairs.add key.value value.value
  | _ => pairs.skip

end Pairs

namespace KeyValue

/-- Whether an expression of the given type is a collection of pairs. -/
def isCollection (table : WellKnown) (type : Option TypeRef) : Bool :=
  type.any table.isKeyValueCollection

/-- Adds the pair that an expression creates. -/
def collectPair (table : WellKnown) (expression : Operation) (pairs : Pairs) : Pairs :=
  let inner := expression.unwrap
  match inner.shape with
  | .objectCreation creation =>
    if inner.type.any table.isStringPair then pairs.addArguments creation.arguments else pairs.skip
  | .invocation call =>
    if table.keyValuePairCreate.contains call.method.definition then
      pairs.addArguments call.arguments
    else pairs.skip
  | _ => pairs.skip

/-- Adds the pair of one item of an initializer: an added key and value, an added pair, or an
assignment to an indexer. -/
def collectItem (table : WellKnown) (item : Operation) (pairs : Pairs) : Pairs :=
  match item.shape with
  | .invocation call =>
    match call.arguments with
    | [key, value] => pairs.add key.value value.value
    | [pair] => collectPair table pair.value pairs
    | _ => pairs.skip
  | .assignment target value =>
    match target.shape with
    | .propertyReference _ [index] => pairs.add index.value value
    | _ => pairs.skip
  | _ => pairs.skip

/-- Adds the pairs of all items of an initializer. -/
def collectItems (table : WellKnown) (items : List Operation) (pairs : Pairs) : Pairs :=
  items.foldl (fun found item => collectItem table item found) pairs

/-- Adds the pairs of all elements of an array. -/
def collectElements (table : WellKnown) (elements : List Operation) (pairs : Pairs) : Pairs :=
  elements.foldl (fun found element => collectPair table element found) pairs

mutual
/-- Adds the pairs of an operation to those found so far; false when the operation is no known
collection of pairs. -/
def collect (table : WellKnown) : Operation → Pairs → Bool × Pairs
  | ⟨type, _, shape⟩, pairs => collectShape table type shape pairs
/-- Adds the pairs of a shape of the given type. -/
def collectShape (table : WellKnown) (type : Option TypeRef) : Shape → Pairs → Bool × Pairs
  | .conversion operand, pairs => collect table operand pairs
  | .objectCreation creation, pairs =>
    if isCollection table type then (true, collectCreation table creation pairs) else (false, pairs)
  | .arrayCreation elements, pairs =>
    if isCollection table type then (true, collectElements table elements pairs) else (false, pairs)
  | .localReference name initializer, pairs =>
    if isCollection table type then
      (true, collectInitializer table name type initializer pairs)
    else (false, pairs)
  | .fieldReference name initializer, pairs =>
    if isCollection table type then
      (true, collectInitializer table name type initializer pairs)
    else (false, pairs)
  | .parameterReference name, pairs =>
    if isCollection table type then (true, pairs.addOpaque name type) else (false, pairs)
  | .propertyReference name _, pairs =>
    if isCollection table type then (true, pairs.addOpaque name type) else (false, pairs)
  | .invocation call, pairs =>
    if isCollection table type then (true, pairs.addOpaque call.method.name type)
    else (false, pairs)
  | _, pairs => (false, pairs)
/-- Adds the pairs of a created collection: those of the collections it copies, then those of its
initializer. -/
def collectCreation (table : WellKnown) : ObjectCreation → Pairs → Pairs
  | ⟨_, arguments, initializer⟩, pairs =>
    collectItems table (initializer.getD []) (collectArguments table arguments pairs)
/-- Adds the pairs of the arguments that are collections themselves. -/
def collectArguments (table : WellKnown) : List Argument → Pairs → Pairs
  | [], pairs => pairs
  | argument :: rest, pairs => collectArguments table rest (collectArgument table argument pairs)
/-- Adds the pairs of an argument that is a collection. -/
def collectArgument (table : WellKnown) : Argument → Pairs → Pairs
  | ⟨_, value⟩, pairs =>
    if isCollection table value.unwrap.type then (collect table value pairs).2 else pairs
/-- Adds the pairs of the initializer behind a local or field, or the local or field itself when it
has no initializer with known pairs. -/
def collectInitializer (table : WellKnown) (name : String) (type : Option TypeRef) :
    Option Operation → Pairs → Pairs
  | none, pairs => pairs.addOpaque name type
  | some initializer, pairs =>
    match collect table initializer pairs with
    | (true, found) => found
    -- the initializer shows no pairs, so the symbol stands for all of them
    | (false, found) => found.addOpaque name type
end

/-- The parameters of a collection of pairs. -/
def extract (table : WellKnown) (argument : Operation) : Outcome :=
  match collect table argument {} with
  | (true, pairs) => .found .keyValueCollection pairs.parameters pairs.complete
  | (false, _) => .unsupported .keyValueCollection

end KeyValue

end LogCensus
