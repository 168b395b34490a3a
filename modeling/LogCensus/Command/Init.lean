import LogCensus.Command.Outcome
import LogCensus.Report

/-!
# The command that creates a configuration

Writes the default configuration into the current directory, unless there is one already.
-/

namespace LogCensus.Init

open Text (Palette)

/-- The place of the configuration. -/
def path : Path := ⟨Config.fileName⟩

/-- The content of the configuration. -/
def content : List UInt8 :=
  Text.bytes (Config.defaultText ++ "\n")

/-- What is said about a created configuration. -/
def confirmation (palette : Palette) : String :=
  let pattern := ({} : Config).snapshotPattern
  palette.paint [.green] Report.successMark ++ " " ++
    palette.paint [.green] ("Created " ++ Config.fileName) ++ "\n" ++
    "  Snapshots matching " ++ palette.paint [.cyan] pattern ++ " will be read by " ++
    palette.paint [.cyan] "logscan extract" ++ "\n"

/-- Runs the command. -/
def run (palette : Palette) (tree : FileTree) : CommandRun :=
  if tree.contains path then
    { result := .ok
        { status := .failure
          stderr := "Error: " ++ Config.fileName ++ " already exists\n"
          tree := tree } }
  else
    match tree.write? path content with
    | none => { result := .error .unwrittenConfig }
    | some written => { result := .ok { stdout := confirmation palette, tree := written } }

end LogCensus.Init
