import LogCensus.Command.Extract
import LogCensus.Command.Init

/-!
# Commands

Runs what a command line asks for on a file tree.
-/

namespace LogCensus

/-- The overview of the commands. -/
def CommandLine.overview : String :=
  "Extracts logging call-sites from a semantic code model and reports parameter consistency\n\n" ++
  "Usage: logscan [COMMAND]\n\n" ++
  "Commands:\n" ++
  "  extract  Extract logging calls from semantic snapshots and summarize their parameters\n" ++
  "  init     Initialize a new .logscanrc.json configuration file\n" ++
  "  help     Print this message or the help of the given subcommand(s)\n\n" ++
  "Options:\n" ++
  "  -h, --help     Print help\n" ++
  "  -V, --version  Print version\n"

/-- Runs a request; without a command it shows the overview. -/
def Request.run (palette : Text.Palette) (tree : FileTree) : Request → CommandRun
  | .overview => { result := .ok { stdout := CommandLine.overview, tree := tree } }
  | .extract arguments => Extract.run palette tree arguments
  | .init => Init.run palette tree

end LogCensus
