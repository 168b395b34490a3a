/-!
# Paths

A path is a text whose pieces are divided by slashes. Paths are joined as texts; they are compared
and taken apart by components, where empty pieces and inner `.` pieces do not count.

* `Path.join`: a path below another one.
* `Path.components`: what counts when paths are compared.
* `Path.above`: the paths made by leaving out components at the end.
-/

namespace LogCensus

/-- A path as it is written. -/
structure Path where
  text : String
deriving DecidableEq

/-- A part of a path that counts. -/
inductive PathComponent where
  /-- The start of an absolute path. -/
  | root
  /-- A `.` at the start of a relative path. -/
  | current
  | parent
  | name (text : String)
deriving DecidableEq

namespace Path

/-- The pieces of a text between slashes. -/
def splitSlashes : List Char → List (List Char)
  | [] => [[]]
  | c :: rest =>
    if c = '/' then [] :: splitSlashes rest
    else
      match splitSlashes rest with
      | [] => [[c]]
      | first :: others => (c :: first) :: others

/-- The pieces of a path between slashes. -/
def pieces (path : Path) : List String :=
  (splitSlashes path.text.toList).map String.ofList

/-- Whether a path starts at the root. -/
def isAbsolute (path : Path) : Bool :=
  path.text.toList.head? == some '/'

/-- Whether a path ends in a slash. -/
def endsInSlash (path : Path) : Bool :=
  path.text.toList.getLast? == some '/'

/-- A path below another one. An absolute path replaces it, and an empty one leaves a slash. -/
def join (base : Path) (below : String) : Path :=
  if (Path.mk below).isAbsolute then ⟨below⟩
  else if base.text.isEmpty || base.endsInSlash then ⟨base.text ++ below⟩
  else ⟨base.text ++ "/" ++ below⟩

/-- Whether a piece counts as a component. -/
def isSignificant (piece : String) : Bool :=
  !(piece.isEmpty || piece == ".")

/-- The component of a piece that counts. -/
def component (piece : String) : PathComponent :=
  if piece == ".." then .parent else .name piece

/-- The components of a path. -/
def components (path : Path) : List PathComponent :=
  match path.pieces with
  | [] => []
  | first :: rest =>
    let others := (rest.filter isSignificant).map component
    if path.isAbsolute then .root :: others
    else if first == "." then .current :: others
    else if first.isEmpty then others
    else component first :: others

/-- Whether the components of a path start with those of another one. -/
def startsWith (path start : Path) : Bool :=
  start.components.isPrefixOf path.components

/-- Whether a path has the components of the current directory. -/
def isCurrent (path : Path) : Bool :=
  path.components == [.current]

/-- The name of the last component, unless that is the root, `.` or `..`. -/
def fileName? (path : Path) : Option String :=
  match path.components.getLast? with
  | some (.name text) => some text
  | _ => none

/-- What is left of the pieces of a path, the last piece first, when one, two or more of those that
count are taken away from the end. -/
def remainders : List String → List (List String)
  | [] => []
  | piece :: rest =>
    if isSignificant piece then
      (rest.dropWhile fun piece => !isSignificant piece) :: remainders rest
    else remainders rest

/-- The paths above a path, the nearest one first. Above a relative path stands the empty path, and
above an absolute one the root. -/
def above (path : Path) : List Path :=
  match path.pieces with
  | [] => []
  | first :: rest =>
    let shortened := (remainders rest.reverse).map fun remaining =>
      if path.isAbsolute && remaining.isEmpty then Path.mk "/"
      else ⟨String.intercalate "/" (first :: remaining.reverse)⟩
    if first.isEmpty then shortened else shortened ++ [⟨""⟩]

/-- The path without its last component; none for the root and for the empty path. -/
def parent? (path : Path) : Option Path :=
  path.above.head?

end Path

end LogCensus
