import LogCensus.Command.Outcome
import LogCensus.CommandLine
import LogCensus.Report
import LogCensus.Snapshot.Load
import LogCensus.Snapshot.Search

/-!
# The command that takes a census

Finds the snapshots of a directory, or takes one snapshot file, and reports on the logging calls in
them. The configuration is that of the directory; options of the command line win over it.

* `Extract.run`: the whole command.
-/

namespace LogCensus.Extract

open Text (Palette)

/-- The directory of a run: the path itself, or the directory of a single file. -/
def baseDirectory (tree : FileTree) (path : Path) : Path :=
  if tree.isFile path then
    match path.parent? with
    | some parent => if parent.text.isEmpty then ⟨"."⟩ else parent
    | none => ⟨"."⟩
  else path

/-- A configuration with the options of the command line applied. -/
def applyOptions (arguments : ExtractArguments) (config : Config) : Config :=
  { config with
    topParameterNames := arguments.top.getD config.topParameterNames
    threads := arguments.threads.getD config.threads }

/-- The configuration of a run. -/
def loadConfig (tree : FileTree) (arguments : ExtractArguments) :
    Except CommandError Config.Loaded :=
  let base := baseDirectory tree arguments.path
  match tree.canonical? base with
  | none => .error (.unresolvedPath base)
  | some start =>
    match Config.load tree start with
    | .error error => .error (.config error)
    | .ok loaded => .ok { loaded with config := applyOptions arguments loaded.config }

/-- What a configuration searches for. -/
def searchOptions (config : Config) : SearchOptions :=
  ⟨config.includes, config.ignores, config.snapshotPattern⟩

/-- The snapshot files of a run. -/
def snapshotFiles (tree : FileTree) (path : Path) (config : Config) : List Path :=
  if tree.isFile path then [path]
  else (search tree path (searchOptions config)).files.map Path.mk

/-- The patterns of a list of texts. -/
def exclusions (texts : List String) : Except CommandError (List Glob) :=
  texts.mapM fun text =>
    match Glob.parse text with
    | .ok glob => .ok glob
    | .error error => .error (.badExclusion text error)

/-- The census of loaded snapshots under a configuration. -/
def takeCensus (config : Config) (projects : List Snapshot) : Census :=
  census projects ⟨config.threads, config.topParameterNames⟩ false

/-- What was read for a run. -/
def counts (loaded : LoadedSnapshots) : RunCounts where
  snapshotsLoaded := loaded.projects.length
  snapshotsFailed := loaded.failures.length
  sourceFiles := (loaded.projects.map fun project => project.files.length).foldr (· + ·) 0

/-- The report of a run. -/
def report (palette : Palette) (format : OutputFormat) (census : Census) (counts : RunCounts) :
    String :=
  match format with
  | .text => Report.text palette census counts
  | .json => Report.json census

/-- The status of a run: a failure when inconsistencies count as one and there are some. -/
def status (arguments : ExtractArguments) (census : Census) : ExitStatus :=
  if arguments.failOnInconsistency && census.summary.hasInconsistencies then .failure else .success

/-- Delivers a report to the terminal or to a file. -/
def deliver (tree : FileTree) (arguments : ExtractArguments) (status : ExitStatus)
    (report : String) : Except CommandError Completion :=
  match arguments.output with
  | none => .ok { status := status, stdout := report, tree := tree }
  | some path =>
    match tree.write? path (Text.bytes report) with
    | none => .error (.unwrittenReport path)
    | some written => .ok { status := status, tree := written }

/-! ## Diagnostics -/

/-- What there is to say about the configuration of a run. -/
def configDiagnostics (loaded : Config.Loaded) : List Diagnostic :=
  loaded.path.elim [] fun path => [.configurationLoaded path.text]

/-- What there is to say about the search for snapshot files. -/
def searchDiagnostics (tree : FileTree) (path : Path) (config : Config) : List Diagnostic :=
  if tree.isFile path then []
  else
    let options := searchOptions config
    let skipped := (search tree path options).skipped
    Search.diagnostics tree path options ++ if skipped = 0 then [] else [.skippedEntries skipped]

/-- What there is to say when no snapshot file was found. -/
def emptinessDiagnostics (path : Path) (config : Config) (files : List Path) : List Diagnostic :=
  if files.isEmpty then [.noSnapshots path.text config.snapshotPattern] else []

/-- What there is to say about the delivery of a report. -/
def deliveryDiagnostics (arguments : ExtractArguments) :
    Except CommandError Completion → List Diagnostic
  | .error _ => []
  | .ok _ => arguments.output.elim [] fun path => [.reportWritten path.text]

/-! ## The command -/

/-- Runs the command with a configuration. -/
def runWith (palette : Palette) (tree : FileTree) (arguments : ExtractArguments)
    (configured : Config.Loaded) : CommandRun :=
  let config := configured.config
  let files := snapshotFiles tree arguments.path config
  let found :=
    configDiagnostics configured ++ searchDiagnostics tree arguments.path config ++
      emptinessDiagnostics arguments.path config files
  match exclusions config.excludeSourcePaths with
  | .error error => ⟨.error error, found⟩
  | .ok patterns =>
    let loaded := loadSnapshots tree files patterns
    let census := takeCensus config loaded.projects
    let text := report palette arguments.format census (counts loaded)
    let result := deliver tree arguments (status arguments census) text
    ⟨result,
      found ++ loadSnapshotsDiagnostics tree files patterns ++
        census.diagnostics loaded.projects false ++ deliveryDiagnostics arguments result⟩

/-- Runs the command. -/
def run (palette : Palette) (tree : FileTree) (arguments : ExtractArguments) : CommandRun :=
  if tree.contains arguments.path then
    match loadConfig tree arguments with
    | .error error => { result := .error error }
    | .ok configured => runWith palette tree arguments configured
  else { result := .error (.missingPath arguments.path) }

end LogCensus.Extract
