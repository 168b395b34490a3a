import LogCensus.EventId
import LogCensus.Severity
import LogCensus.Snapshot

/-!
# Usage records

A usage record describes one logging call: its kind, template, severity, event id, parameters and
place. Records are ordered by place, then kind, then method name.

* `UsageRecord.compareKey`: the order of records.
* `UsageRecord.le`: the same order as a relation.
-/

namespace LogCensus

/-- The kinds of logging call. -/
inductive CallKind where
  /-- A call of a log method. -/
  | logMethod
  /-- A method declared with the message attribute. -/
  | messageAttribute
  /-- A delegate built by the message factory. -/
  | messageDefine
  /-- The start of a scope. -/
  | beginScope
deriving DecidableEq

namespace CallKind

/-- All kinds of call, in ascending order. -/
def all : List CallKind :=
  [.logMethod, .messageAttribute, .messageDefine, .beginScope]

/-- The rank of a kind in the order of kinds. -/
def rank : CallKind → Nat
  | .logMethod => 0
  | .messageAttribute => 1
  | .messageDefine => 2
  | .beginScope => 3

instance : Ord CallKind where
  compare left right := compare left.rank right.rank

instance : Std.TransOrd CallKind :=
  inferInstanceAs (Std.TransCmp (compareOn CallKind.rank))

/-- The name in JSON. -/
def name : CallKind → String
  | .logMethod => "logMethod"
  | .messageAttribute => "messageAttribute"
  | .messageDefine => "messageDefine"
  | .beginScope => "beginScope"

/-- The name in reports and messages. -/
def label : CallKind → String
  | .logMethod => "log-method"
  | .messageAttribute => "message-attribute"
  | .messageDefine => "message-define"
  | .beginScope => "begin-scope"

end CallKind

/-- Where the value of a parameter comes from. -/
inductive Provenance where
  | literal
  | constant
  | localReference
  | parameterReference
  | fieldReference
  | propertyReference
  | invocation
  | objectCreation
  | collection
  | anonymousObject
  /-- A formal parameter of a declared message method. -/
  | methodParameter
  /-- A type argument of the message factory. -/
  | typeArgument
  /-- A collection of which only the type is known. -/
  | keyValueCollection
  | other
deriving DecidableEq

namespace Provenance

/-- All provenances. -/
def all : List Provenance :=
  [.literal, .constant, .localReference, .parameterReference, .fieldReference, .propertyReference,
   .invocation, .objectCreation, .collection, .anonymousObject, .methodParameter, .typeArgument,
   .keyValueCollection, .other]

/-- The name in JSON. -/
def name : Provenance → String
  | .literal => "literal"
  | .constant => "constant"
  | .localReference => "localReference"
  | .parameterReference => "parameterReference"
  | .fieldReference => "fieldReference"
  | .propertyReference => "propertyReference"
  | .invocation => "invocation"
  | .objectCreation => "objectCreation"
  | .collection => "collection"
  | .anonymousObject => "anonymousObject"
  | .methodParameter => "methodParameter"
  | .typeArgument => "typeArgument"
  | .keyValueCollection => "keyValueCollection"
  | .other => "other"

end Provenance

/-- A named, typed value that flows into a message or a scope. -/
structure Parameter where
  name : String
  type : String
  kind : Provenance
  customTagName : Option String := none
deriving DecidableEq

/-- The ways of turning an argument into parameters. -/
inductive Strategy where
  | arrayLiteral
  | methodSignature
  | genericTypeArguments
  | keyValueCollection
  | anonymousObject
  /-- A constant text as the state: a template without values. -/
  | templateOnly
deriving DecidableEq

namespace Strategy

/-- All strategies. -/
def all : List Strategy :=
  [.arrayLiteral, .methodSignature, .genericTypeArguments, .keyValueCollection, .anonymousObject,
   .templateOnly]

/-- The name in JSON. -/
def name : Strategy → String
  | .arrayLiteral => "arrayLiteral"
  | .methodSignature => "methodSignature"
  | .genericTypeArguments => "genericTypeArguments"
  | .keyValueCollection => "keyValueCollection"
  | .anonymousObject => "anonymousObject"
  | .templateOnly => "templateOnly"

end Strategy

/-- Which strategy found the parameters of a record, and whether it found all of them. -/
structure ExtractionReport where
  /-- None when no strategy knows the shape of the argument. -/
  strategy : Option Strategy
  success : Bool
deriving DecidableEq

/-- The place of a record, with lines counted from zero. -/
structure Location where
  filePath : String
  startLine : UInt64
  endLine : UInt64
deriving DecidableEq

namespace Location

/-- The place of a range of lines in a file. -/
def ofSpan (filePath : String) (span : LineSpan) : Location :=
  ⟨filePath, span.startLine, span.endLine⟩

instance : Ord Location where
  compare left right :=
    (compare left.filePath right.filePath).then <|
      (compare left.startLine right.startLine).then (compare left.endLine right.endLine)

end Location

/-- One logging call. -/
structure UsageRecord where
  kind : CallKind
  methodName : String
  messageTemplate : Option String := none
  severity : Option Severity := none
  eventId : Option EventId := none
  parameters : List Parameter
  extraction : Option ExtractionReport := none
  location : Location
deriving DecidableEq

namespace UsageRecord

/-- Whether a strategy reported that it missed something. -/
def extractionFailed (record : UsageRecord) : Bool :=
  record.extraction.any fun report => !report.success

/-- The order of records: by place, then kind, then method name. -/
def compareKey (left right : UsageRecord) : Ordering :=
  (compare left.location right.location).then <|
    (compare left.kind right.kind).then (compare left.methodName right.methodName)

/-- Whether a record may stand before another one. -/
def le (left right : UsageRecord) : Bool :=
  (compareKey left right).isLE

end UsageRecord

end LogCensus
