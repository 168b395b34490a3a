import LogCensus.Analysis.Analyzer
import LogCensus.Analysis.Arguments
import LogCensus.Analysis.Content
import LogCensus.Analysis.LogCall
import LogCensus.Analysis.MessageFactory
import LogCensus.Analysis.MessageMethod
import LogCensus.Analysis.Scope
import LogCensus.Census
import LogCensus.Census.Batch
import LogCensus.Command
import LogCensus.Command.Extract
import LogCensus.Command.Init
import LogCensus.Command.Outcome
import LogCensus.CommandLine
import LogCensus.Compilation
import LogCensus.Compilation.Codec
import LogCensus.Config
import LogCensus.Constant
import LogCensus.Decimal.Double
import LogCensus.Decimal.Layout
import LogCensus.Decimal.Shortest
import LogCensus.Diagnostic
import LogCensus.EventId
import LogCensus.EventId.Codec
import LogCensus.EventId.Resolve
import LogCensus.Extraction.AnonymousObject
import LogCensus.Extraction.ArrayLiteral
import LogCensus.Extraction.KeyValue
import LogCensus.Extraction.MethodSignature
import LogCensus.Extraction.Outcome
import LogCensus.Extraction.State
import LogCensus.Extraction.TypeArguments
import LogCensus.FileTree
import LogCensus.FileTree.Expand
import LogCensus.Glob
import LogCensus.Glob.Matching
import LogCensus.Json.Basic
import LogCensus.Json.Number
import LogCensus.Json.Parser
import LogCensus.Json.Printer
import LogCensus.Json.Reader
import LogCensus.Main
import LogCensus.Operation
import LogCensus.Operation.Codec
import LogCensus.Path
import LogCensus.Report
import LogCensus.Severity
import LogCensus.Snapshot
import LogCensus.Snapshot.Codec
import LogCensus.Snapshot.Load
import LogCensus.Snapshot.Search
import LogCensus.SortedMap
import LogCensus.Summary
import LogCensus.Summary.Codec
import LogCensus.Symbol
import LogCensus.Symbol.Codec
import LogCensus.Template
import LogCensus.Text.Blank
import LogCensus.Text.Caseless
import LogCensus.Text.Glyph
import LogCensus.Text.Style
import LogCensus.Text.Utf8
import LogCensus.Text.Width
import LogCensus.Usage
import LogCensus.Usage.Codec
import LogCensus.WellKnown
import LogCensus.Proofs.Template.Scanning
import LogCensus.Proofs.Text.Encoding
import LogCensus.Proofs.Template.Reading
import LogCensus.Proofs.Template.RoundTrip
import LogCensus.Proofs.Analysis.Accounting
import LogCensus.Proofs.Analysis.Recognition
import LogCensus.Proofs.Analysis.StatePaths
import LogCensus.Proofs.Extraction.TagNames
import LogCensus.Proofs.Extraction.Matching
import LogCensus.Proofs.Extraction.Pairs
import LogCensus.Proofs.Extraction.Completeness
import LogCensus.Proofs.EventId.Emptiness
import LogCensus.Proofs.Census.Order
import LogCensus.Proofs.Census.Division
import LogCensus.Proofs.Census.Rearrangement
import LogCensus.Proofs.Census.Merging
import LogCensus.Proofs.Reordering
import LogCensus.Proofs.SortedMap
import LogCensus.Proofs.Summary.Tally
import LogCensus.Proofs.Summary.Order
import LogCensus.Proofs.Summary.Inconsistencies
import LogCensus.Proofs.Report.Occurrences
import LogCensus.Proofs.Presentation.Basic
import LogCensus.Proofs.Presentation.Symbols
import LogCensus.Proofs.Presentation.Extraction
import LogCensus.Proofs.Presentation.Records
import LogCensus.Proofs.Presentation.Handles
import LogCensus.Proofs.Presentation.Conversions
import LogCensus.Proofs.Presentation.Displays
import LogCensus.Proofs.Command.Status
import LogCensus.Proofs.FileTree.Walk
import LogCensus.Proofs.FileTree.Expand
import LogCensus.Proofs.Snapshot.Search
import LogCensus.Proofs.Snapshot.Load
import LogCensus.Proofs.Path
import LogCensus.Proofs.Snapshot.Isolation
import LogCensus.Proofs.Template.Runs
import LogCensus.Proofs.Json.Reader
import LogCensus.Proofs.Symbol.Storage
import LogCensus.Proofs.Operation.Storage
import LogCensus.Proofs.FileTree.Mount
import LogCensus.Proofs.FileTree.Pattern
import LogCensus.Proofs.FileTree.Twins
import LogCensus.Proofs.Glob.Anywhere
import LogCensus.Proofs.Snapshot.Relocation
import LogCensus.Proofs.Analysis.ArgumentOrder
import LogCensus.Proofs.Extraction.Leaves
import LogCensus.Proofs.Summary.Ranking
import LogCensus.Proofs.Summary.Merging
import LogCensus.Proofs.Summary.Balance
import LogCensus.Proofs.Extraction.Origins
import LogCensus.Proofs.Census.Types
import LogCensus.Proofs.Template.Continuation
import LogCensus.Proofs.Usage.Storage
import LogCensus.Proofs.Compilation
import LogCensus.Proofs.Extraction.Accumulation
import LogCensus.Proofs.Template.Positions
import LogCensus.Proofs.Path.Upward
import LogCensus.Proofs.Config
