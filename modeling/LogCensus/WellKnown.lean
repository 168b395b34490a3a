import LogCensus.Compilation
import LogCensus.Diagnostic
import LogCensus.Severity

/-!
# Well-known symbols

The symbols of the logging framework and of the base library that calls are recognised by, resolved
once per compilation. A symbol that the compilation does not know stays absent, and whatever depends
on it recognises nothing.

* `WellKnown.resolve`: the table of a compilation.
* `WellKnown.isLogger` and its companions: what a type counts as.
-/

namespace LogCensus

/-- How a log method says its severity. -/
inductive SeveritySource where
  /-- Implied by the method. -/
  | fixed (severity : Severity)
  /-- Given as an argument. -/
  | argument
deriving DecidableEq

/-- The severity of the source when it is fixed. -/
def SeveritySource.severity? : SeveritySource → Option Severity
  | .fixed severity => some severity
  | .argument => none

/-- The resolved symbols of one compilation. -/
structure WellKnown where
  logger : Option SymbolId := none
  loggerOfT : Option SymbolId := none
  loggerExtensions : Option SymbolId := none
  loggerMessage : Option SymbolId := none
  loggerMessageAttribute : Option SymbolId := none
  tagNameAttribute : Option SymbolId := none
  logLevel : Option SymbolId := none
  eventId : Option SymbolId := none
  exception : Option SymbolId := none
  string : Option SymbolId := none
  keyValuePair : Option SymbolId := none
  enumerableOfT : Option SymbolId := none
  /-- The log methods, each once, with the source of their severity. -/
  logMethods : List (SymbolId × SeveritySource) := []
  scopeMethods : List SymbolId := []
  scopeExtensionMethods : List SymbolId := []
  defineMethods : List SymbolId := []
  defineScopeMethods : List SymbolId := []
  keyValuePairCreate : List SymbolId := []
deriving DecidableEq

namespace WellKnown

/-- The metadata name of the logger interface. -/
def loggerName : String := "Microsoft.Extensions.Logging.ILogger"

/-- The metadata name of the generic logger interface. -/
def loggerOfTName : String := "Microsoft.Extensions.Logging.ILogger`1"

/-- The metadata name of the class of log extension methods. -/
def loggerExtensionsName : String := "Microsoft.Extensions.Logging.LoggerExtensions"

/-- The metadata name of the message factory. -/
def loggerMessageName : String := "Microsoft.Extensions.Logging.LoggerMessage"

/-- The metadata name of the message attribute. -/
def loggerMessageAttributeName : String := "Microsoft.Extensions.Logging.LoggerMessageAttribute"

/-- The metadata name of the attribute that renames a parameter. -/
def tagNameAttributeName : String := "Microsoft.Extensions.Logging.TagNameAttribute"

/-- The metadata name of the enumeration of severities. -/
def logLevelName : String := "Microsoft.Extensions.Logging.LogLevel"

/-- The metadata name of the event identifier. -/
def eventIdName : String := "Microsoft.Extensions.Logging.EventId"

/-- The metadata name of the root of all exceptions. -/
def exceptionName : String := "System.Exception"

/-- The metadata name of the string type. -/
def stringName : String := "System.String"

/-- The metadata name of the pair of key and value. -/
def keyValuePairName : String := "System.Collections.Generic.KeyValuePair`2"

/-- The metadata name of the class that creates pairs. -/
def keyValuePairFactoryName : String := "System.Collections.Generic.KeyValuePair"

/-- The metadata name of the generic enumeration. -/
def enumerableOfTName : String := "System.Collections.Generic.IEnumerable`1"

/-- The names of the log extension methods. -/
def extensionLogMethods : List String :=
  ["Log", "LogTrace", "LogDebug", "LogInformation", "LogWarning", "LogError", "LogCritical"]

/-- The source of the severity of a log extension method. -/
def severitySource (method : String) : SeveritySource :=
  match Severity.ofMethod? method with
  | some severity => .fixed severity
  | none => .argument

/-- Sets the severity source of a method, replacing an earlier one. -/
def setSource (methods : List (SymbolId × SeveritySource)) (id : SymbolId)
    (source : SeveritySource) : List (SymbolId × SeveritySource) :=
  (id, source) :: methods.filter fun (known, _) => known != id

/-- The members with a name of a type that may be absent. -/
def membersOf (compilation : Compilation) (type : Option SymbolId) (name : String) :
    List SymbolId :=
  type.elim [] fun id => compilation.members id name

/-- The log methods: those of the logger itself, then those of the extension class, where a later
entry for the same method replaces an earlier one. -/
def resolveLogMethods (compilation : Compilation) (logger extensions : Option SymbolId) :
    List (SymbolId × SeveritySource) :=
  let own := (membersOf compilation logger "Log").foldl (fun methods id =>
    setSource methods id .argument) []
  extensionLogMethods.foldl (fun methods name =>
    (membersOf compilation extensions name).foldl (fun methods id =>
      setSource methods id (severitySource name)) methods) own

/-- The well-known symbols of a compilation. -/
def resolve (compilation : Compilation) : WellKnown :=
  let logger := compilation.typeNamed? loggerName
  let extensions := compilation.typeNamed? loggerExtensionsName
  let factory := compilation.typeNamed? loggerMessageName
  let pairs := compilation.typeNamed? keyValuePairFactoryName
  { logger := logger
    loggerOfT := compilation.typeNamed? loggerOfTName
    loggerExtensions := extensions
    loggerMessage := factory
    loggerMessageAttribute := compilation.typeNamed? loggerMessageAttributeName
    tagNameAttribute := compilation.typeNamed? tagNameAttributeName
    logLevel := compilation.typeNamed? logLevelName
    eventId := compilation.typeNamed? eventIdName
    exception := compilation.typeNamed? exceptionName
    string := compilation.typeNamed? stringName
    keyValuePair := compilation.typeNamed? keyValuePairName
    enumerableOfT := compilation.typeNamed? enumerableOfTName
    logMethods := resolveLogMethods compilation logger extensions
    scopeMethods := (membersOf compilation logger "BeginScope").eraseDups
    scopeExtensionMethods := (membersOf compilation extensions "BeginScope").eraseDups
    defineMethods := (membersOf compilation factory "Define").eraseDups
    defineScopeMethods := (membersOf compilation factory "DefineScope").eraseDups
    keyValuePairCreate := (membersOf compilation pairs "Create").eraseDups }

/-- What there is to say about a resolved table. -/
def diagnostics (table : WellKnown) : List Diagnostic :=
  if table.logger.isNone then [.missingWellKnownType loggerName] else []

/-- How a log method says its severity; none when the method is no log method. -/
def severitySource? (table : WellKnown) (method : SymbolId) : Option SeveritySource :=
  table.logMethods.lookup method

/-! ## What a type counts as -/

/-- Whether a type is, derives from or implements a symbol that may be absent. -/
def inherits (type : TypeRef) (symbol : Option SymbolId) : Bool :=
  symbol.any type.isOrInherits

/-- Whether a type is exactly a symbol that may be absent. -/
def isExactly (type : TypeRef) (symbol : Option SymbolId) : Bool :=
  symbol.isSome && type.symbol == symbol

/-- A logger, generic or not, or an implementation of one. -/
def isLogger (table : WellKnown) (type : TypeRef) : Bool :=
  inherits type table.logger || inherits type table.loggerOfT

/-- The enumeration of severities. -/
def isLogLevel (table : WellKnown) (type : TypeRef) : Bool :=
  isExactly type table.logLevel

/-- The event identifier. -/
def isEventId (table : WellKnown) (type : TypeRef) : Bool :=
  isExactly type table.eventId

/-- An exception of any kind. -/
def isException (table : WellKnown) (type : TypeRef) : Bool :=
  inherits type table.exception

/-- The string type. -/
def isString (table : WellKnown) (type : TypeRef) : Bool :=
  isExactly type table.string

/-- A pair whose key is a string. -/
def isStringPair (table : WellKnown) (type : TypeRef) : Bool :=
  isExactly type table.keyValuePair && type.typeArguments.head?.any table.isString

/-- An array of pairs with string keys, or a type that enumerates them. -/
def isKeyValueCollection (table : WellKnown) (type : TypeRef) : Bool :=
  type.elementType.any table.isStringPair ||
    type.selfAndInterfaces.any fun candidate =>
      isExactly candidate table.enumerableOfT &&
        candidate.typeArguments.head?.any table.isStringPair

/-- Whether the compilation knows the logging framework at all. -/
def hasLoggingFramework (table : WellKnown) : Bool :=
  table.logger.isSome || table.loggerMessage.isSome || table.loggerExtensions.isSome

end WellKnown

end LogCensus
