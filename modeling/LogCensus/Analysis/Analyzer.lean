import LogCensus.Analysis.LogCall
import LogCensus.Analysis.MessageFactory
import LogCensus.Analysis.MessageMethod
import LogCensus.Analysis.Scope

/-!
# Analyzers

An analyzer finds the records of one kind of call in a file. Analyzers are run one after the other;
one that fails on a file contributes nothing for that file and leaves the others alone.

* `Analyzer.all`: the analyzers of the program.
* `analyzeFile`: the records of a file.
-/

namespace LogCensus

/-- Why an analyzer gave up on a file. -/
inductive AnalyzerFailure where
  | explained (reason : String)
  | unexplained
deriving DecidableEq

/-- The wording of a failure. -/
def AnalyzerFailure.message : AnalyzerFailure → String
  | .explained reason => reason
  | .unexplained => "unknown panic"

/-- A way of finding the records of one kind of call. -/
structure Analyzer where
  kind : CallKind
  run : WellKnown → SourceFile → Except AnalyzerFailure (List UsageRecord)
  /-- What there is to say about a file. -/
  diagnostics : WellKnown → SourceFile → List Diagnostic := fun _ _ => []

namespace Analyzer

/-- Log methods. -/
def logMethod : Analyzer where
  kind := .logMethod
  run table file := .ok (LogCall.records table file)
  diagnostics := LogCall.diagnostics

/-- Declared message methods. -/
def messageAttribute : Analyzer where
  kind := .messageAttribute
  run table file := .ok (MessageMethod.records table file)
  diagnostics := MessageMethod.diagnostics

/-- The message factory. -/
def messageDefine : Analyzer where
  kind := .messageDefine
  run table file := .ok (MessageFactory.records table file)
  diagnostics := MessageFactory.diagnostics

/-- Scopes. -/
def beginScope : Analyzer where
  kind := .beginScope
  run table file := .ok (Scope.records table file)
  diagnostics := Scope.diagnostics

/-- Every analyzer, in the order of the kinds of call. -/
def all : List Analyzer :=
  [logMethod, messageAttribute, messageDefine, beginScope]

/-- The records that an analyzer contributes for a file: none when it fails. -/
def contribution (analyzer : Analyzer) (table : WellKnown) (file : SourceFile) :
    List UsageRecord :=
  match analyzer.run table file with
  | .ok records => records
  | .error _ => []

/-- What there is to say about the run of an analyzer. -/
def runDiagnostics (analyzer : Analyzer) (table : WellKnown) (file : SourceFile) :
    List Diagnostic :=
  let failure :=
    match analyzer.run table file with
    | .ok _ => []
    | .error failure => [.analyzerFailed file.path analyzer.kind.label failure.message]
  analyzer.diagnostics table file ++ failure

end Analyzer

/-- The records of a file, analyzer by analyzer. -/
def analyzeFile (analyzers : List Analyzer) (table : WellKnown) (file : SourceFile) :
    List UsageRecord :=
  analyzers.flatMap fun analyzer => analyzer.contribution table file

/-- What there is to say about the analysis of a file. -/
def analyzeFileDiagnostics (analyzers : List Analyzer) (table : WellKnown) (file : SourceFile) :
    List Diagnostic :=
  analyzers.flatMap fun analyzer => analyzer.runDiagnostics table file

end LogCensus
