import LogCensus.Config
import LogCensus.Diagnostic

/-!
# Outcomes of commands

What a command leaves behind: its status, what it wrote to the terminal and to files, and what it
says about its run. A command that fails leaves the files as they are and has a message instead.
-/

namespace LogCensus

/-- The status of a command that ended without an error. -/
inductive ExitStatus where
  | success
  /-- Inconsistent names were found where that counts as a failure, or a file was in the way. -/
  | failure
deriving DecidableEq

/-- The number of a status. -/
def ExitStatus.code : ExitStatus → Nat
  | .success => 0
  | .failure => 1

/-- Why a command failed. -/
inductive CommandError where
  | missingPath (path : Path)
  | unresolvedPath (path : Path)
  | config (error : ConfigError)
  | badExclusion (pattern : String) (error : GlobError)
  | unwrittenReport (path : Path)
  | unwrittenConfig
deriving DecidableEq

namespace CommandError

/-- The wording of an error. -/
def message : CommandError → String
  | .missingPath path => "Path does not exist: " ++ path.text
  | .unresolvedPath path => "Failed to resolve path: " ++ path.text
  | .config error => error.message
  | .badExclusion pattern error =>
    "Invalid glob pattern: \"" ++ pattern ++ "\": " ++ error.message
  | .unwrittenReport path => "Failed to write report: " ++ path.text
  | .unwrittenConfig => "Failed to write " ++ Config.fileName

/-- The status number of a command that failed. -/
def code : Nat := 2

end CommandError

/-- What a command that ended without an error leaves behind. -/
structure Completion where
  status : ExitStatus := .success
  stdout : String := ""
  stderr : String := ""
  /-- The files afterwards. -/
  tree : FileTree

/-- The end of a command, with what there is to say about its run. -/
structure CommandRun where
  result : Except CommandError Completion
  diagnostics : List Diagnostic := []

end LogCensus
