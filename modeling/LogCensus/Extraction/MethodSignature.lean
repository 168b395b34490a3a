import LogCensus.Extraction.Outcome
import LogCensus.WellKnown

/-!
# Parameters of a declared message method

The values of a declared message method are its formal parameters, apart from the logger, the
severity and exceptions. A placeholder first takes the parameter of its name; a placeholder that
names no parameter then takes the next parameter that is left, in the order of the signature.
Parameters that are still left are appended, and make the outcome partial.

* `MethodSignature.matchNames`: the pass by name.
* `MethodSignature.fillGaps`: the pass by position.
* `MethodSignature.extract`: the outcome for a method.
-/

namespace LogCensus.MethodSignature

/-- Whether a formal parameter carries a value of the message. -/
def isMessageParameter (table : WellKnown) (parameter : ParameterSymbol) : Bool :=
  !(table.isLogger parameter.type || table.isLogLevel parameter.type ||
    table.isException parameter.type)

/-- The name that an attribute gives to a parameter: its tag name, or its first argument. -/
def customTagName? (table : WellKnown) (parameter : ParameterSymbol) : Option String := do
  let type ← table.tagNameAttribute
  let applied ← parameter.attributes.find? fun applied => applied.type == type
  let argument ← applied.argument? "tagName" <|> applied.constructorArguments.head?
  (← argument.value).asString?

/-- The parameter of a message for a formal parameter. -/
def toParameter (table : WellKnown) (parameter : ParameterSymbol) : Parameter :=
  { name := parameter.name
    type := parameter.type.displayOrObject
    kind := .methodParameter
    customTagName := customTagName? table parameter }

/-- A parameter name without the mark of a verbatim identifier. -/
def withoutVerbatimMark (name : String) : String :=
  match name.toList with
  | '@' :: rest => String.ofList rest
  | _ => name

/-- Whether a placeholder names a parameter, up to the case of ASCII letters. -/
def namesMatch (placeholder parameter : String) : Bool :=
  Text.eqIgnoringCase placeholder (withoutVerbatimMark parameter)

/-- The first parameter that a placeholder names, and the other parameters in order. -/
def takeNamed (placeholder : String) :
    List ParameterSymbol → Option (ParameterSymbol × List ParameterSymbol)
  | [] => none
  | parameter :: rest =>
    if namesMatch placeholder parameter.name then some (parameter, rest)
    else (takeNamed placeholder rest).map fun (found, others) => (found, parameter :: others)

/-- Gives each placeholder, in order, the first parameter left that it names. Returns the slots of
the placeholders and the parameters that are left. -/
def matchNames : List String → List ParameterSymbol →
    List (Option ParameterSymbol) × List ParameterSymbol
  | [], left => ([], left)
  | placeholder :: rest, left =>
    match takeNamed placeholder left with
    | some (found, others) =>
      let (slots, remaining) := matchNames rest others
      (some found :: slots, remaining)
    | none =>
      let (slots, remaining) := matchNames rest left
      (none :: slots, remaining)

/-- Gives each empty slot, in order, the next parameter left. -/
def fillGaps : List (Option ParameterSymbol) → List ParameterSymbol →
    List (Option ParameterSymbol) × List ParameterSymbol
  | [], left => ([], left)
  | some found :: rest, left =>
    let (slots, remaining) := fillGaps rest left
    (some found :: slots, remaining)
  | none :: rest, next :: left =>
    let (slots, remaining) := fillGaps rest left
    (some next :: slots, remaining)
  | none :: rest, [] =>
    let (slots, remaining) := fillGaps rest []
    (none :: slots, remaining)

/-- The parameters of a declared message method; complete when every placeholder has a parameter
and no parameter is left. -/
def extract (table : WellKnown) (method : MethodRef) (placeholders : List String) : Outcome :=
  let candidates := method.parameters.filter (isMessageParameter table)
  -- all names go first: a gap must not take a parameter that a later placeholder names
  let (named, unnamed) := matchNames placeholders candidates
  let (slots, left) := fillGaps named unnamed
  let chosen := slots.filterMap id
  .found .methodSignature ((chosen ++ left).map (toParameter table))
    (slots.all Option.isSome && left.isEmpty)

end LogCensus.MethodSignature
