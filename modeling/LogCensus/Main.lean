import LogCensus.Command

/-!
# The program

Reads the part of the file system that a request can touch into a file tree, runs the request on the
tree, and writes what it leaves behind. Nothing is decided here: what is read is a superset of what
the run looks at.
-/

namespace LogCensus.Program

/-! ## Reading -/

/-- The names on the way from the root to an absolute path. -/
def locationOf (absolute : String) : List String :=
  (Path.mk absolute).pieces.filter Path.isSignificant

/-- The place of a path without links; none when it leads nowhere. -/
def realLocation? (path : String) : IO (Option (List String)) := do
  try
    return some (locationOf (← IO.FS.realPath path).toString)
  catch _ => return none

/-- Whether a path leads to a directory. -/
def isDirectory (path : String) : IO Bool := do
  try
    return (← (← IO.FS.realPath path).metadata).type == .dir
  catch _ => return false

/-- The content of a file. What cannot be read stands as a byte that is no text. -/
def readContent (path : String) : IO (List UInt8) := do
  try
    return (← IO.FS.readBinFile path).toList
  catch _ => return [0xFF]

/-- The entry of a path, without what is below it. -/
def readShallow (path : String) : IO FileEntry := do
  if ← isDirectory path then return .directory []
  return .file (← readContent path)

/-- The entry of a directory with everything below it. Only the content of wanted files is read, and
links to directories are not followed. -/
partial def readDeep (wanted : String → Bool) (directory : String) : IO FileEntry := do
  try
    let mut entries : Array (String × FileEntry) := #[]
    for child in ← (← IO.FS.realPath directory).readDir do
      let path := child.path.toString
      let entry ←
        if (← child.path.symlinkMetadata).type == .dir then readDeep wanted path
        else if wanted child.fileName then readShallow path
        else if ← isDirectory path then pure (.directory [])
        else pure (.file [])
      entries := entries.push (child.fileName, entry)
    return .directory entries.toList
  catch _ => return .directory []

/-! ## The image of the file system -/

/-- Adds the entry of a place, if there is one. -/
def addShallow (root : FileEntry) (location : List String) : IO FileEntry := do
  let path := (FileTree.absolutePath location).text
  if (← realLocation? path).isSome then
    if (root.descend? location).isSome then return root
    return .set (← readShallow path) location root
  return root

/-- Adds the configuration file and the mark of the repository for a directory and all above it. -/
def addMarkers (root : FileEntry) (location : List String) : IO FileEntry := do
  let mut image := root
  for depth in List.range (location.length + 1) do
    for name in [Config.fileName, Config.repositoryMark] do
      image ← addShallow image (location.take depth ++ [name])
  return image

/-- The path of an included text up to its first component with a wildcard. -/
def fixedPart (base : Path) (text : String) : Path :=
  let pieces := (base.join text).pieces.takeWhile fun piece => !Glob.hasWildcard piece
  if pieces.isEmpty then ⟨"."⟩ else ⟨String.intercalate "/" pieces ++ "/"⟩

/-- Adds everything below the directories that a run searches. -/
def addSources (root : FileEntry) (base : Path) (config : Config) : IO FileEntry := do
  let wanted (name : String) : Bool :=
    match Glob.parse config.snapshotPattern with
    | .ok pattern => pattern.accepts name || name == Config.fileName
    | .error _ => false
  let mut image := root
  for path in base :: config.includes.map (fixedPart base) do
    if let some location ← realLocation? path.text then
      if ← isDirectory path.text then
        image := .set (← readDeep wanted path.text) location image
  return image

/-- Adds the place of a report. -/
def addOutput (root : FileEntry) (output : Path) : IO FileEntry := do
  let parent := (output.parent?.getD ⟨""⟩).text
  match ← realLocation? (if parent.isEmpty then "." else parent) with
  | none => return root
  | some directory =>
    let image ← addShallow root directory
    match output.fileName? with
    | none => return image
    | some name => addShallow image (directory ++ [name])

/-- The image for an extraction. -/
def extractImage (tree : FileTree) (arguments : ExtractArguments) : IO FileTree := do
  let some location ← realLocation? arguments.path.text | return tree
  let root ← addMarkers (← addShallow tree.root location) location
  let marked := { tree with root := root }
  match Extract.loadConfig marked arguments with
  | .error _ => return marked
  | .ok loaded =>
    let base := Extract.baseDirectory marked arguments.path
    let searched ←
      if marked.isFile arguments.path then pure root
      else addMarkers (← addSources root base loaded.config) location
    match arguments.output with
    | none => return { tree with root := searched }
    | some output => return { tree with root := ← addOutput searched output }

/-- The image of the file system for a request. -/
def image (request : Request) : IO FileTree := do
  let current := locationOf (← IO.currentDir).toString
  let tree : FileTree := ⟨.set (.directory []) current (.directory []), current⟩
  match request with
  | .overview => return tree
  | .init => return { tree with root := ← addMarkers tree.root current }
  | .extract arguments => extractImage tree arguments

/-! ## Writing -/

/-- The file that a request writes. -/
def written? : Request → Option Path
  | .overview => none
  | .init => some Init.path
  | .extract arguments => arguments.output

/-- Writes the file of a request as the run left it. False when it cannot be written. -/
def writeBack (request : Request) (tree : FileTree) : IO Bool := do
  match written? request with
  | none => return true
  | some path =>
    match (tree.entry? path).bind FileEntry.content? with
    | none => return true
    | some content =>
      try
        IO.FS.writeBinFile path.text ⟨content.toArray⟩
        return true
      catch _ => return false

/-- The palette that the environment asks for. -/
def palette : IO Text.Palette := do
  let forced ← IO.getEnv "CLICOLOR_FORCE"
  let forbidden ← IO.getEnv "NO_COLOR"
  let wanted ← IO.getEnv "CLICOLOR"
  return .choose forced forbidden wanted (← (← IO.getStdout).isTty)

/-- Reports a failed command. -/
def fail (message : String) : IO UInt32 := do
  IO.eprintln ("Error: " ++ message)
  return CommandError.code.toUInt32

/-- Runs a request. -/
def runRequest (request : Request) : IO UInt32 := do
  let run := request.run (← palette) (← image request)
  for diagnostic in run.diagnostics do
    if request.verbose || diagnostic.level == .warn then IO.eprintln diagnostic.text
  match run.result with
  | .error error => fail error.message
  | .ok completion =>
    if completion.status == .success || request != .init then
      unless ← writeBack request completion.tree do
        match request with
        | .extract arguments =>
          return ← fail (CommandError.unwrittenReport (arguments.output.getD ⟨""⟩)).message
        | _ => return ← fail CommandError.unwrittenConfig.message
    IO.print completion.stdout
    IO.eprint completion.stderr
    return completion.status.code.toUInt32

end LogCensus.Program

open LogCensus in
/-- Runs the command line. -/
def main (tokens : List String) : IO UInt32 := do
  match CommandLine.parse (← IO.getEnv CommandLine.threadsVariable) tokens with
  | .ok request => Program.runRequest request
  | .error .help =>
    IO.print CommandLine.overview
    return 0
  | .error .version =>
    IO.println (CommandLine.programName ++ " 0.1.0")
    return 0
  | .error .usage =>
    IO.eprintln "error: the command line is not understood; try --help"
    return 2
