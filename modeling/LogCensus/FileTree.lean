import LogCensus.Path
import LogCensus.Text.Utf8

/-!
# File trees

A tree of directories and files without links, seen from a current directory; every entry of it can
be read. A path is followed piece by piece: every piece but the last has to lead to a directory, and
so has the last one when it is empty, `.` or `..`.

* `FileTree.locate?`: the place that a path leads to.
* `FileTree.write?`: the tree with a file written.
* `FileTree.walk?`: everything below a path, with paths made by joining names.
-/

namespace LogCensus

/-- A file or a directory. -/
inductive FileEntry where
  | file (content : List UInt8)
  | directory (entries : List (String × FileEntry))

namespace FileEntry

/-- Whether the entry is a directory. -/
def isDirectory : FileEntry → Bool
  | .directory _ => true
  | .file _ => false

/-- Whether the entry is a file. -/
def isFile (entry : FileEntry) : Bool :=
  !entry.isDirectory

/-- The content of a file. -/
def content? : FileEntry → Option (List UInt8)
  | .file content => some content
  | .directory _ => none

/-- The entries of a directory; none for a file. -/
def entries : FileEntry → List (String × FileEntry)
  | .directory entries => entries
  | .file _ => []

/-- The entry with a name in a directory. -/
def child? (entry : FileEntry) (name : String) : Option FileEntry :=
  entry.entries.lookup name

/-- The entry below an entry along a list of names. -/
def descend? (entry : FileEntry) (location : List String) : Option FileEntry :=
  location.foldlM child? entry

/-- Sets the entry with a name, at the end when the name is new. -/
def setChild (name : String) (child : FileEntry) :
    List (String × FileEntry) → List (String × FileEntry)
  | [] => [(name, child)]
  | (known, entry) :: rest =>
    if known == name then (name, child) :: rest else (known, entry) :: setChild name child rest

/-- Sets the entry along a list of names. Directories on the way are created. -/
def set (new : FileEntry) : List String → FileEntry → FileEntry
  | [], _ => new
  | name :: rest, entry =>
    let child := (entry.child? name).getD (.directory [])
    .directory (setChild name (set new rest child) entry.entries)

/-- Removes the entry along a list of names. -/
def erase : List String → FileEntry → FileEntry
  | [], entry => entry
  | [name], entry => .directory (entry.entries.filter fun (known, _) => known != name)
  | name :: rest, entry =>
    match entry.child? name with
    | none => entry
    | some child => .directory (setChild name (erase rest child) entry.entries)

mutual
/-- An entry and everything below it, each with its path. -/
def walk (path : Path) : FileEntry → List (Path × FileEntry)
  | .file content => [(path, .file content)]
  | .directory entries => (path, .directory entries) :: walkEntries path entries
/-- The entries of a directory and everything below them. -/
def walkEntries (path : Path) : List (String × FileEntry) → List (Path × FileEntry)
  | [] => []
  | (name, entry) :: rest => walk (path.join name) entry ++ walkEntries path rest
end

end FileEntry

/-- A tree of files with a current directory. -/
structure FileTree where
  root : FileEntry
  /-- The names on the way from the root to the current directory. -/
  current : List String

namespace FileTree

/-- Follows one piece of a path from a place in the tree. -/
def follow? (tree : FileTree) (location : List String) (piece : String) : Option (List String) :=
  match tree.root.descend? location with
  | some (.directory entries) =>
    if piece.isEmpty || piece == "." then some location
    else if piece == ".." then some location.dropLast
    else if (entries.lookup piece).isSome then some (location ++ [piece])
    else none
  | _ => none

/-- The place where a path starts. -/
def start (tree : FileTree) (path : Path) : List String :=
  if path.isAbsolute then [] else tree.current

/-- The place that a path leads to. -/
def locate? (tree : FileTree) (path : Path) : Option (List String) :=
  if path.text.isEmpty then none
  else path.pieces.foldlM tree.follow? (tree.start path)

/-- The entry that a path leads to. -/
def entry? (tree : FileTree) (path : Path) : Option FileEntry := do
  tree.root.descend? (← tree.locate? path)

/-- Whether a path leads to an entry. -/
def contains (tree : FileTree) (path : Path) : Bool :=
  (tree.entry? path).isSome

/-- Whether a path leads to a directory. -/
def isDirectory (tree : FileTree) (path : Path) : Bool :=
  (tree.entry? path).any FileEntry.isDirectory

/-- Whether a path leads to a file. -/
def isFile (tree : FileTree) (path : Path) : Bool :=
  (tree.entry? path).any FileEntry.isFile

/-- The names in a directory, with their entries; none for anything else. -/
def list (tree : FileTree) (path : Path) : List (String × FileEntry) :=
  (tree.entry? path).elim [] FileEntry.entries

/-- The text of a file; none when there is no file or it is not valid text. -/
def readText? (tree : FileTree) (path : Path) : Option String := do
  Text.ofBytes? (← (← tree.entry? path).content?)

/-- The absolute path of a place in the tree. -/
def absolutePath (location : List String) : Path :=
  ⟨"/" ++ String.intercalate "/" location⟩

/-- The absolute path of an entry, without `.` and `..`. -/
def canonical? (tree : FileTree) (path : Path) : Option Path :=
  (tree.locate? path).map absolutePath

/-- An entry and everything below it; none when the path leads nowhere. -/
def walk? (tree : FileTree) (path : Path) : Option (List (Path × FileEntry)) :=
  (tree.entry? path).map (FileEntry.walk path)

/-! ## Changes -/

/-- The place of a new or existing entry: its directory has to exist, and the last piece has to be
a name. -/
def target? (tree : FileTree) (path : Path) : Option (List String) := do
  let name ← path.pieces.getLast?
  if Path.isSignificant name && name != ".." then
    let directory ← path.pieces.dropLast.foldlM tree.follow? (tree.start path)
    if ((tree.root.descend? directory).any FileEntry.isDirectory) then some (directory ++ [name])
    else none
  else none

/-- The tree with a file written; none when its directory does not exist or the path leads to a
directory. -/
def write? (tree : FileTree) (path : Path) (content : List UInt8) : Option FileTree := do
  let location ← tree.target? path
  if (tree.root.descend? location).any FileEntry.isDirectory then none
  else some { tree with root := .set (.file content) location tree.root }

/-- Creates the directory that one piece of a path leads to, unless there is an entry already. -/
def enter (state : FileTree × List String) (piece : String) : FileTree × List String :=
  let (tree, location) := state
  if !Path.isSignificant piece then (tree, location)
  else if piece == ".." then (tree, location.dropLast)
  else
    let below := location ++ [piece]
    if (tree.root.descend? below).isSome then (tree, below)
    else ({ tree with root := .set (.directory []) below tree.root }, below)

/-- The tree with a directory and all directories on the way to it. -/
def createDirectories (tree : FileTree) (path : Path) : FileTree :=
  (path.pieces.foldl enter (tree, tree.start path)).1

/-- The tree without an entry and everything below it. -/
def remove (tree : FileTree) (path : Path) : FileTree :=
  match tree.locate? path with
  | none => tree
  | some location => { tree with root := .erase location tree.root }

end FileTree

end LogCensus
