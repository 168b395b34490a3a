import LogCensus.FileTree
import LogCensus.Glob
import LogCensus.Json.Parser
import LogCensus.Json.Printer
import LogCensus.Json.Reader
import LogCensus.Summary

/-!
# Configuration

What a run searches for and how it reports, read from a file in the directory of the run or in the
nearest directory above it. The search goes up at most to the directory that holds the repository.

* `Config.validate`: all patterns are well formed.
* `Config.find?`: the configuration file for a directory.
* `Config.load`: the configuration for a directory.
-/

namespace LogCensus

/-- The configuration of a run. -/
structure Config where
  /-- Directories and patterns of directories to search; `.` is the directory of the run. -/
  includes : List String := ["."]
  /-- Directories and patterns of paths to leave out. -/
  ignores : List String := ["**/node_modules/**", "**/.git/**"]
  /-- The pattern of the names of snapshot files. -/
  snapshotPattern : String := "*.semantic.json"
  /-- Patterns of source files inside snapshots to leave out. -/
  excludeSourcePaths : List String := []
  /-- The length of the ranking of names. -/
  topParameterNames : Nat := Summary.defaultTop
  /-- The number of workers; zero leaves the choice to the program. -/
  threads : Nat := 0
deriving DecidableEq

/-- Why there is no configuration. -/
inductive ConfigError where
  /-- The file cannot be read as text. -/
  | unreadable (path : Path)
  /-- The text is no configuration. -/
  | malformed (path : Path)
  /-- A pattern of a field is malformed. -/
  | badPattern (field pattern : String) (error : GlobError)
deriving DecidableEq

/-- The wording of an error. -/
def ConfigError.message : ConfigError → String
  | .unreadable path => "Failed to read config file: " ++ path.text
  | .malformed path => "Failed to parse config file: " ++ path.text
  | .badPattern field pattern error =>
    "Invalid glob pattern in '" ++ field ++ "': \"" ++ pattern ++ "\": " ++ error.message

namespace Config

/-- The name of configuration files. -/
def fileName : String := ".logscanrc.json"

/-- The name of the directory that marks a repository. -/
def repositoryMark : String := ".git"

/-! ## JSON -/

/-- The fields in order. -/
def fieldNames : List String :=
  ["includes", "ignores", "snapshotPattern", "excludeSourcePaths", "topParameterNames", "threads"]

/-- The JSON form. -/
def toJson (config : Config) : Json :=
  .object
    [("includes", .array (config.includes.map .string)),
     ("ignores", .array (config.ignores.map .string)),
     ("snapshotPattern", .string config.snapshotPattern),
     ("excludeSourcePaths", .array (config.excludeSourcePaths.map .string)),
     ("topParameterNames", .ofNat config.topParameterNames),
     ("threads", .ofNat config.threads)]

/-- Reads a configuration; a missing field has its default. -/
def ofJson? (value : Json) : Option Config := do
  let fields ← value.fields? fieldNames
  let default : Config := {}
  return {
    includes := ← fields.defaulted "includes" default.includes (Json.listOf? Json.string?)
    ignores := ← fields.defaulted "ignores" default.ignores (Json.listOf? Json.string?)
    snapshotPattern := ← fields.defaulted "snapshotPattern" default.snapshotPattern Json.string?
    excludeSourcePaths :=
      ← fields.defaulted "excludeSourcePaths" default.excludeSourcePaths (Json.listOf? Json.string?)
    topParameterNames :=
      ← fields.defaulted "topParameterNames" default.topParameterNames Json.word?
    threads := ← fields.defaulted "threads" default.threads Json.word? }

/-- Reads a configuration from its text. -/
def ofText? (text : String) : Option Config := do
  ofJson? (← Json.parse? text)

/-- The text of the default configuration. -/
def defaultText : String :=
  (toJson {}).pretty

/-! ## Validation -/

/-- A pattern of a field, if it is well formed. -/
def checkPattern (field pattern : String) : Except ConfigError Unit :=
  match Glob.parse pattern with
  | .ok _ => .ok ()
  | .error error => .error (.badPattern field pattern error)

/-- Checks all patterns, in the order of ignores, includes, snapshot pattern and excluded sources.
An include without wildcards is a directory and no pattern. -/
def validate (config : Config) : Except ConfigError Unit := do
  config.ignores.forM (checkPattern "ignores")
  (config.includes.filter Glob.hasWildcard).forM (checkPattern "includes")
  checkPattern "snapshotPattern" config.snapshotPattern
  config.excludeSourcePaths.forM (checkPattern "excludeSourcePaths")

/-! ## Search -/

/-- The configuration file of the first directory that has one, unless a directory before it holds
the repository. -/
def search (tree : FileTree) : List Path → Option Path
  | [] => none
  | directory :: rest =>
    let file := directory.join fileName
    if tree.contains file then some file
    else if tree.contains (directory.join repositoryMark) then none
    else search tree rest

/-- The configuration file for a directory: its own or that of the nearest directory above it. -/
def find? (tree : FileTree) (start : Path) : Option Path :=
  search tree (start :: start.above)

/-- A configuration and the file that it was read from, if any. -/
structure Loaded where
  config : Config := {}
  path : Option Path := none
deriving DecidableEq

/-- Reads and checks a configuration file. -/
def loadFile (tree : FileTree) (path : Path) : Except ConfigError Config := do
  let some text := tree.readText? path | .error (.unreadable path)
  let some config := ofText? text | .error (.malformed path)
  config.validate
  return config

/-- The configuration for a directory: that of the nearest file, or the default. -/
def load (tree : FileTree) (start : Path) : Except ConfigError Loaded :=
  match find? tree start with
  | none => .ok {}
  | some path => (loadFile tree path).map fun config => ⟨config, some path⟩

end Config

end LogCensus
