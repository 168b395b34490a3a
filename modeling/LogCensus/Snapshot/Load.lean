import LogCensus.Diagnostic
import LogCensus.FileTree
import LogCensus.Glob.Matching
import LogCensus.Snapshot.Codec

/-!
# Loading of snapshots

Reads snapshot files. A file that cannot be read or holds no snapshot is reported and left out; the
others are not affected. Source files inside a snapshot are left out when a pattern matches their
path. A snapshot without a name takes the name of its file up to the first dot.

* `loadSnapshot`: the snapshot of a file.
* `loadSnapshots`: the snapshots of a list of files.
-/

namespace LogCensus

/-- Why a snapshot was not loaded. -/
inductive LoadFailure where
  /-- There is no file, or it is not valid text. -/
  | unreadable (path : Path)
  /-- The text is no snapshot. -/
  | malformed (path : Path)
deriving DecidableEq

/-- The file that was not loaded. -/
def LoadFailure.path : LoadFailure → Path
  | .unreadable path => path
  | .malformed path => path

/-- The name of a snapshot that has none: the name of its file up to the first dot. -/
def Snapshot.defaultName (path : Path) : String :=
  path.fileName?.elim "" fun name => String.ofList (name.toList.takeWhile (· != '.'))

/-- A snapshot as it is used: with a name, and with an index over its symbols. -/
def Snapshot.prepare (path : Path) (snapshot : Snapshot) : Snapshot :=
  { snapshot with
    name := if snapshot.name.isEmpty then defaultName path else snapshot.name
    compilation := snapshot.compilation.rebuildIndex }

/-- A snapshot without the source files that a pattern matches. -/
def Snapshot.exclude (patterns : List Glob) (snapshot : Snapshot) : Snapshot :=
  { snapshot with
    files := snapshot.files.filter fun file => !patterns.any fun glob => glob.accepts file.path }

/-- The snapshot of a file. -/
def loadSnapshot (tree : FileTree) (path : Path) : Except LoadFailure Snapshot :=
  match tree.readText? path with
  | none => .error (.unreadable path)
  | some text =>
    match Snapshot.ofText? text with
    | none => .error (.malformed path)
    | some snapshot => .ok (snapshot.prepare path)

/-- The snapshots of a list of files. -/
structure LoadedSnapshots where
  projects : List Snapshot := []
  failures : List LoadFailure := []

/-- Adds the outcome for one file. -/
def LoadedSnapshots.add (patterns : List Glob) (loaded : LoadedSnapshots)
    (outcome : Except LoadFailure Snapshot) : LoadedSnapshots :=
  match outcome with
  | .ok project => { loaded with projects := loaded.projects ++ [project.exclude patterns] }
  | .error failure => { loaded with failures := loaded.failures ++ [failure] }

/-- The snapshots of a list of files, without the source files that a pattern matches. -/
def loadSnapshots (tree : FileTree) (paths : List Path) (patterns : List Glob) :
    LoadedSnapshots :=
  (paths.map (loadSnapshot tree)).foldl (LoadedSnapshots.add patterns) {}

/-- What there is to say about the outcome for one file. -/
def loadDiagnostics (patterns : List Glob) : Except LoadFailure Snapshot → List Diagnostic
  | .error failure => [.skippedSnapshot failure.path.text]
  | .ok project =>
    let excluded := project.files.length - (project.exclude patterns).files.length
    if excluded = 0 then [] else [.excludedSources project.name excluded]

/-- What there is to say about loading a list of files. -/
def loadSnapshotsDiagnostics (tree : FileTree) (paths : List Path) (patterns : List Glob) :
    List Diagnostic :=
  (paths.map (loadSnapshot tree)).flatMap (loadDiagnostics patterns)

end LogCensus
