/-!
# Diagnostics

What a run says about itself beside its result: a level, a message and named details. The causes are
the constructors; level, wording and details of each are stated once.
-/

namespace LogCensus

/-- How important a diagnostic is. -/
inductive DiagnosticLevel where
  | debug
  | info
  | warn
deriving DecidableEq

/-- The name of a level. -/
def DiagnosticLevel.name : DiagnosticLevel → String
  | .debug => "DEBUG"
  | .info => "INFO"
  | .warn => "WARN"

/-- Something worth telling that is not a failure of the run. -/
inductive Diagnostic where
  | missingWellKnownType (metadataName : String)
  | unresolvableEventId (type : String)
  | unrecognizedScopeState (type : String)
  | noLogMethods (file : String)
  | noScopeMethods (file : String)
  | noMessageFactory (file : String)
  | noMessageAttribute (file : String)
  | analyzerFailed (file analyzer reason : String)
  | noLoggingFramework (project : String)
  | extractionFinished (usages parameters inconsistent : Nat) (cancelled : Bool)
  | configurationLoaded (path : String)
  | invalidSnapshotPattern (pattern : String)
  | invalidIgnorePattern (pattern : String)
  | invalidIncludePattern (pattern : String)
  | missingInclude (path : String)
  | inaccessiblePath
  | skippedEntries (count : Nat)
  | noSnapshots (path pattern : String)
  | excludedSources (project : String) (count : Nat)
  | skippedSnapshot (path : String)
  | reportWritten (path : String)
deriving DecidableEq

namespace Diagnostic

/-- The level of a diagnostic. -/
def level : Diagnostic → DiagnosticLevel
  | .missingWellKnownType _ => .debug
  | .unresolvableEventId _ => .debug
  | .unrecognizedScopeState _ => .debug
  | .noLogMethods _ => .debug
  | .noScopeMethods _ => .debug
  | .noMessageFactory _ => .debug
  | .noMessageAttribute _ => .debug
  | .analyzerFailed _ _ _ => .warn
  | .noLoggingFramework _ => .debug
  | .extractionFinished _ _ _ _ => .info
  | .configurationLoaded _ => .debug
  | .invalidSnapshotPattern _ => .warn
  | .invalidIgnorePattern _ => .warn
  | .invalidIncludePattern _ => .warn
  | .missingInclude _ => .warn
  | .inaccessiblePath => .warn
  | .skippedEntries _ => .debug
  | .noSnapshots _ _ => .warn
  | .excludedSources _ _ => .debug
  | .skippedSnapshot _ => .warn
  | .reportWritten _ => .info

/-- The wording of a diagnostic, without its details. -/
def message : Diagnostic → String
  | .missingWellKnownType _ => "well-known type not found in compilation"
  | .unresolvableEventId _ => "event id expression not resolvable"
  | .unrecognizedScopeState _ => "scope state shape not recognized"
  | .noLogMethods _ => "no log methods resolved, skipping"
  | .noScopeMethods _ => "no scope methods resolved, skipping"
  | .noMessageFactory _ => "message factory not resolved, skipping"
  | .noMessageAttribute _ => "logging-message attribute not resolved, skipping"
  | .analyzerFailed _ _ _ => "analyzer failed, skipping its results for this file"
  | .noLoggingFramework _ => "project does not reference the logging framework"
  | .extractionFinished _ _ _ _ => "extraction finished"
  | .configurationLoaded _ => "loaded configuration"
  | .invalidSnapshotPattern _ => "invalid snapshot pattern"
  | .invalidIgnorePattern _ => "invalid ignore pattern"
  | .invalidIncludePattern _ => "invalid include pattern"
  | .missingInclude _ => "include path does not exist"
  | .inaccessiblePath => "cannot access path"
  | .skippedEntries _ => "skipped unreadable entries"
  | .noSnapshots _ _ => "no snapshot files found"
  | .excludedSources _ _ => "excluded source files"
  | .skippedSnapshot _ => "skipping snapshot"
  | .reportWritten _ => "report written"

/-- The named details of a diagnostic. -/
def details : Diagnostic → List (String × String)
  | .missingWellKnownType metadataName => [("symbol", metadataName)]
  | .unresolvableEventId type => [("ty", type)]
  | .unrecognizedScopeState type => [("ty", type)]
  | .noLogMethods file => [("file", file)]
  | .noScopeMethods file => [("file", file)]
  | .noMessageFactory file => [("file", file)]
  | .noMessageAttribute file => [("file", file)]
  | .analyzerFailed file analyzer reason =>
    [("file", file), ("analyzer", analyzer), ("panic", reason)]
  | .noLoggingFramework project => [("project", project)]
  | .extractionFinished usages parameters inconsistent cancelled =>
    [("usages", toString usages), ("parameters", toString parameters),
     ("inconsistent", toString inconsistent), ("cancelled", if cancelled then "true" else "false")]
  | .configurationLoaded path => [("path", path)]
  | .invalidSnapshotPattern pattern => [("pattern", pattern)]
  | .invalidIgnorePattern pattern => [("pattern", pattern)]
  | .invalidIncludePattern pattern => [("pattern", pattern)]
  | .missingInclude path => [("path", path)]
  | .inaccessiblePath => []
  | .skippedEntries count => [("skipped", toString count)]
  | .noSnapshots path pattern => [("path", path), ("pattern", pattern)]
  | .excludedSources project count => [("project", project), ("excluded", toString count)]
  | .skippedSnapshot path => [("path", path)]
  | .reportWritten path => [("path", path)]

/-- A diagnostic on one line. -/
def text (diagnostic : Diagnostic) : String :=
  let details := diagnostic.details.map fun (name, value) => " " ++ name ++ "=" ++ value
  diagnostic.level.name ++ " " ++ diagnostic.message ++ String.join details

end Diagnostic

end LogCensus
