import LogCensus.Diagnostic
import LogCensus.FileTree.Expand
import LogCensus.SortedMap

/-!
# Search for snapshot files

Finds the files of a directory tree whose name matches a pattern. The search starts at the included
directories, walks all of them, and leaves out what is ignored: an ignored path without wildcards
covers everything below it, one with wildcards only the paths that it matches. Paths are texts made
by joining, so a file that is reached along two spellings is found twice.

* `search`: the files found.
-/

namespace LogCensus

/-- What is searched for. -/
structure SearchOptions where
  includes : List String := []
  ignores : List String := []
  /-- The pattern of the names of snapshot files. -/
  snapshotPattern : String := "*.semantic.json"
deriving DecidableEq

/-- What is left out of a search. -/
structure IgnoreRules where
  /-- Everything below these paths. -/
  paths : List Path
  /-- The paths that these patterns match. -/
  globs : List Glob
deriving DecidableEq

namespace IgnoreRules

/-- The rules of ignored texts below a base; malformed patterns are dropped. -/
def ofTexts (base : Path) (ignores : List String) : IgnoreRules where
  paths := (ignores.filter fun text => !Glob.hasWildcard text).map base.join
  globs := (ignores.filter Glob.hasWildcard).filterMap fun text => (Glob.parse text).toOption

/-- Whether a path is left out. -/
def ignores (rules : IgnoreRules) (path : Path) : Bool :=
  rules.paths.any path.startsWith || rules.globs.any fun glob => glob.accepts path.text

end IgnoreRules

/-- The files found. -/
structure SearchResult where
  /-- The paths of the files, each once, ascending. -/
  files : List String := []
  /-- The number of starting points that lead nowhere. -/
  skipped : Nat := 0
deriving DecidableEq

namespace Search

/-- The starting points of one included text: the directories that a pattern leads to, or the path
itself if it leads anywhere. -/
def rootsOf (tree : FileTree) (base : Path) (text : String) : List Path :=
  let path := base.join text
  if Glob.hasWildcard text then
    match tree.expand path with
    | .ok found => found.filter tree.isDirectory
    | .error _ => []
  else if tree.contains path then [path] else []

/-- The starting points of a search; without included texts, the base itself. -/
def roots (tree : FileTree) (base : Path) (includes : List String) : List Path :=
  if includes.isEmpty then [base] else includes.flatMap (rootsOf tree base)

/-- Whether a path is that of a snapshot file. -/
def isSnapshot (pattern : Glob) (path : Path) : Bool :=
  path.fileName?.any pattern.accepts

/-- The snapshot files among the entries of a walk. -/
def filesOf (rules : IgnoreRules) (pattern : Glob) (entries : List (Path × FileEntry)) :
    List String :=
  let kept := entries.filter fun (path, entry) =>
    !rules.ignores path && entry.isFile && isSnapshot pattern path
  kept.map fun (path, _) => path.text

/-- The result of a search with a well-formed pattern. -/
def run (tree : FileTree) (base : Path) (options : SearchOptions) (pattern : Glob) :
    SearchResult :=
  let rules := IgnoreRules.ofTexts base options.ignores
  let walks := (roots tree base options.includes).map tree.walk?
  { files := sortedDistinct ((walks.filterMap id).flatMap (filesOf rules pattern))
    skipped := walks.countP Option.isNone }

end Search

/-- The snapshot files below a base; none when the pattern of their names is malformed. -/
def search (tree : FileTree) (base : Path) (options : SearchOptions) : SearchResult :=
  match Glob.parse options.snapshotPattern with
  | .error _ => {}
  | .ok pattern => Search.run tree base options pattern

/-! ## Diagnostics -/

namespace Search

/-- What there is to say about an ignored text. -/
def ignoreDiagnostics (text : String) : List Diagnostic :=
  if Glob.hasWildcard text then
    match Glob.parse text with
    | .ok _ => []
    | .error _ => [.invalidIgnorePattern text]
  else []

/-- What there is to say about an included text. -/
def includeDiagnostics (tree : FileTree) (base : Path) (text : String) : List Diagnostic :=
  let path := base.join text
  if Glob.hasWildcard text then
    match tree.expand path with
    | .ok _ => []
    | .error _ => [.invalidIncludePattern text]
  else if tree.contains path then [] else [.missingInclude path.text]

/-- What there is to say about a search. -/
def diagnostics (tree : FileTree) (base : Path) (options : SearchOptions) : List Diagnostic :=
  match Glob.parse options.snapshotPattern with
  | .error _ => [.invalidSnapshotPattern options.snapshotPattern]
  | .ok pattern =>
    options.ignores.flatMap ignoreDiagnostics ++
      options.includes.flatMap (includeDiagnostics tree base) ++
      List.replicate (run tree base options pattern).skipped .inaccessiblePath

end Search

end LogCensus
