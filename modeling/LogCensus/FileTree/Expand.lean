import LogCensus.FileTree
import LogCensus.Glob.Matching

/-!
# Expansion of patterns in a file tree

The paths that a pattern leads to. The pattern is followed component by component: a component
without wildcards names one entry, one with wildcards is matched with the names in a directory, so
`*` does not cross a separator, and a double star stands for everything strictly below a directory.
Paths below the current directory are written without a leading `.`.

* `FileTree.expand`: the paths of a pattern.
-/

namespace LogCensus

/-- A component of a pattern. -/
inductive GlobSegment where
  | literal (name : String)
  | wildcard (glob : Glob)
  | recursive
deriving DecidableEq

namespace GlobSegment

/-- The component with a given text. -/
def parse (text : String) : Except GlobError GlobSegment := do
  let glob ← Glob.parse text
  if glob.isRecursive then return .recursive
  match glob.literal? with
  | some name => return .literal name
  | none => return .wildcard glob

/-- Whether a component accepts the name of an entry. -/
def accepts : GlobSegment → String → Bool
  | .literal expected, name => name == expected
  | .wildcard glob, name => glob.accepts name
  | .recursive, _ => true

/-- Runs of double stars as single ones. -/
def collapse : List GlobSegment → List GlobSegment
  | .recursive :: rest =>
    match collapse rest with
    | .recursive :: others => .recursive :: others
    | others => .recursive :: others
  | segment :: rest => segment :: collapse rest
  | [] => []

/-- The texts of the components of a pattern below its start; a slash at the end adds none. -/
def texts (pattern : Path) : List String :=
  let pieces := if pattern.isAbsolute then pattern.pieces.tail else pattern.pieces
  if pieces.getLast? == some "" then pieces.dropLast else pieces

/-- The components of a pattern. The whole pattern has to be well formed, and so has each of its
components. -/
def ofPattern (pattern : Path) : Except GlobError (List GlobSegment) := do
  let _ ← Glob.parse pattern.text
  let segments ← (texts pattern).mapM parse
  return collapse segments

end GlobSegment

namespace FileTree

/-- The path of an entry of a directory; below the current directory it is the name alone. -/
def below (directory : Path) (name : String) : Path :=
  if directory.isCurrent then ⟨name⟩ else directory.join name

mutual
/-- Everything strictly below an entry, each with its path and name. -/
def descendants (path : Path) : FileEntry → List (Path × String × FileEntry)
  | .file _ => []
  | .directory entries => descendantsOf path entries
/-- The entries of a directory and everything below them. -/
def descendantsOf (path : Path) : List (String × FileEntry) → List (Path × String × FileEntry)
  | [] => []
  | (name, entry) :: rest =>
    (below path name, name, entry) :: descendants (below path name) entry ++ descendantsOf path rest
end

/-- Everything strictly below the entry that a path leads to. -/
def allBelow (tree : FileTree) (path : Path) : List (Path × String × FileEntry) :=
  (tree.entry? path).elim [] (descendants path)

/-- The entries that a named component leads to. -/
def expandLiteral (tree : FileTree) (name : String) (path : Path) : List Path :=
  let next := below path name
  if name == "." || name == ".." then if tree.isDirectory path then [next] else []
  else if tree.contains next then [next] else []

/-- The entries that a component with wildcards leads to. The names `.` and `..` are matched only
by a component that starts with a dot. -/
def expandWildcard (tree : FileTree) (glob : Glob) (path : Path) : List Path :=
  if tree.isDirectory path then
    let names := ((tree.list path).map Prod.fst).filter glob.accepts
    let dots :=
      if glob.tokens.head? == some (.char '.') then [".", ".."].filter glob.accepts else []
    names.map (below path) ++ dots.map path.join
  else []

/-- The paths that components lead to from a path. -/
def expandFrom (tree : FileTree) : List GlobSegment → Path → List Path
  | [], path => [path]
  | .literal name :: rest, path => (tree.expandLiteral name path).flatMap (tree.expandFrom rest)
  | .wildcard glob :: rest, path => (tree.expandWildcard glob path).flatMap (tree.expandFrom rest)
  | .recursive :: [], path =>
    ((tree.allBelow path).filter fun (_, _, entry) => entry.isDirectory).map Prod.fst
  | .recursive :: next :: rest, path =>
    let matching := (tree.allBelow path).filter fun (_, name, _) => next.accepts name
    matching.flatMap fun (found, _, _) => tree.expandFrom rest found

/-- The paths of a pattern. -/
def expand (tree : FileTree) (pattern : Path) : Except GlobError (List Path) := do
  let segments ← GlobSegment.ofPattern pattern
  return tree.expandFrom segments ⟨if pattern.isAbsolute then "/" else "."⟩

end FileTree

end LogCensus
