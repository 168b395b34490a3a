import LogCensus.Census
import LogCensus.Json.Printer
import LogCensus.Text.Style
import LogCensus.Text.Width

/-!
# Reports

The report on a census: as text, with one block for every name used with several types, then the
most common names, the numbers of calls by kind, warnings and totals; or as JSON. Columns are
aligned by a measure of the texts in them, and lines are counted from one.

* `Report.textWith`: the report as text, for any measure.
* `Report.text`: the report as text, measured by display width.
* `Report.json`: the report as JSON.
-/

namespace LogCensus

open Text (Palette Style)

/-- What was read for a run. -/
structure RunCounts where
  snapshotsLoaded : Nat := 0
  snapshotsFailed : Nat := 0
  sourceFiles : Nat := 0
deriving DecidableEq

namespace Report

/-- The mark of a report without findings. -/
def successMark : String := "✓"

/-- The mark of a report with findings. -/
def failureMark : String := "✘"

/-- A number with a noun in the form that fits it. -/
def counted (count : Nat) (one many : String) : String :=
  toString count ++ " " ++ if count = 1 then one else many

/-- The width of the widest of some texts. -/
def widest (measure : String → Nat) (texts : List String) : Nat :=
  (texts.map measure).foldl max 0

/-- A place as it is shown: the file and its first line, counted from one. -/
def place (location : Location) : String :=
  location.filePath ++ ":" ++ toString (location.startLine + 1).toNat

/-! ## Uses of a name -/

/-- How often a type is used with a name, and where first. -/
structure Occurrences where
  count : Nat
  first : Location
deriving DecidableEq

/-- Counts one use of a type at a place. -/
def addOccurrence (found : SortedMap String Occurrences) (location : Location) (type : String) :
    SortedMap String Occurrences :=
  found.update type ⟨0, location⟩ fun known => { known with count := known.count + 1 }

/-- The types that a record uses with a name, one for each parameter. -/
def typesOf (name : String) (record : UsageRecord) : List String :=
  (record.parameters.filter fun parameter => parameter.name == name).map Parameter.type

/-- The uses of a name in records, by type. -/
def occurrencesByType (records : List UsageRecord) (name : String) :
    SortedMap String Occurrences :=
  records.foldl (fun found record =>
    (typesOf name record).foldl (fun found type => addOccurrence found record.location type) found)
    .empty

/-! ## Blocks of the text -/

section

variable (measure : String → Nat) (palette : Palette)

/-- The line of a type of an inconsistent name; none when no record uses it. -/
def typeLine? (uses : SortedMap String Occurrences) (columns : Nat) (type : String) :
    Option String :=
  (uses.get? type).map fun found =>
    "  " ++ palette.paint [.blue] "=" ++ " " ++ Text.padRight measure columns type ++ "  " ++
      place found.first ++ " (" ++ counted found.count "usage" "usages" ++ ")\n"

/-- A text with a hyphen in place of each blank. -/
def hyphenated (text : String) : String :=
  String.ofList (text.toList.map fun c => if c = ' ' then '-' else c)

/-- The kinds of issue of a finding. -/
def issueText (issues : List Issue) : String :=
  String.intercalate ", " (issues.map fun issue => hyphenated issue.label)

/-- The block of an inconsistent name. -/
def findingBlock (records : List UsageRecord) (finding : Inconsistency) : String :=
  let uses := occurrencesByType records finding.name
  let header :=
    palette.paint [.bold, .yellow] "warning" ++ ": parameter \"" ++ finding.name ++
      "\" is logged with " ++ toString finding.types.length ++ " different types  " ++
      palette.paint [.dimmed, .cyan] (issueText finding.issues) ++ "\n"
  let lines :=
    finding.types.filterMap (typeLine? measure palette uses (widest measure finding.types))
  header ++ String.join lines ++ "\n"

/-- The line of a common name. -/
def commonNameLine (nameColumns countColumns : Nat) (entry : CommonName) : String :=
  "  " ++ Text.padRight measure nameColumns entry.name ++ "  " ++
    Text.padLeft countColumns (toString entry.count) ++ "  " ++
    palette.paint [.dimmed] entry.mainType ++ "\n"

/-- The block of the most common names. -/
def commonNamesBlock (names : List CommonName) : String :=
  if names.isEmpty then ""
  else
    let nameColumns := widest measure (names.map CommonName.name)
    let countColumns := widest String.utf8ByteSize (names.map fun entry => toString entry.count)
    palette.paint [.bold] "Common parameter names" ++ "\n" ++
      String.join (names.map (commonNameLine measure palette nameColumns countColumns)) ++ "\n"

/-- The block of the numbers of calls by kind. -/
def kindsBlock (kinds : List (CallKind × Nat)) : String :=
  if kinds.isEmpty then ""
  else
    let columns := widest String.utf8ByteSize (kinds.map fun (kind, _) => kind.label)
    let lines := kinds.map fun (kind, count) =>
      "  " ++ Text.padRight measure columns kind.label ++ "  " ++ toString count ++ "\n"
    palette.paint [.bold] "Usages by kind" ++ "\n" ++ String.join lines ++ "\n"

end

/-- A line that warns. -/
def warningLine (palette : Palette) (text : String) : String :=
  palette.paint [.bold, .yellow] "warning:" ++ " " ++ text ++ "\n"

/-- The warnings about snapshots, extraction and cancellation. -/
def warningsBlock (palette : Palette) (census : Census) (counts : RunCounts) : String :=
  let failed := census.summary.failedExtractions
  let snapshots :=
    if counts.snapshotsFailed = 0 then ""
    else warningLine palette
      (counted counts.snapshotsFailed "snapshot" "snapshots" ++
        " could not be loaded (use " ++ palette.paint [.cyan] "-v" ++ " for details)")
  let extractions :=
    if failed = 0 then ""
    else warningLine palette
      ("parameters of " ++ counted failed "usage" "usages" ++ " could not be fully extracted")
  let cancellation :=
    if census.cancelled then
      warningLine palette "run was cancelled, results are incomplete"
    else ""
  snapshots ++ extractions ++ cancellation

/-- What was scanned. -/
def scannedText (summary : Summary) (counts : RunCounts) : String :=
  counted counts.sourceFiles "source file" "source files" ++ " in " ++
    counted counts.snapshotsLoaded "snapshot" "snapshots" ++ ", " ++
    counted summary.totalUsages "log usage" "log usages" ++ " with " ++
    counted summary.totalParameters "parameter" "parameters"

/-- The last line: the totals and the verdict. -/
def totalsLine (palette : Palette) (summary : Summary) (counts : RunCounts) : String :=
  let scanned := scannedText summary counts
  if summary.hasInconsistencies then
    palette.paint [.red] failureMark ++ " " ++
      palette.paint [.red] (counted summary.inconsistencies.length
        "inconsistent parameter name" "inconsistent parameter names") ++
      " (" ++ scanned ++ ")\n"
  else
    palette.paint [.green] successMark ++ " " ++
      palette.paint [.green] ("Scanned " ++ scanned ++ " - no inconsistencies found") ++ "\n"

/-- The report as text, its columns aligned by a measure. -/
def textWith (measure : String → Nat) (palette : Palette) (census : Census) (counts : RunCounts) :
    String :=
  let findings := census.summary.inconsistencies.map (findingBlock measure palette census.records)
  String.join findings ++ commonNamesBlock measure palette census.summary.commonNames ++
    kindsBlock measure palette census.summary.usagesByKind ++
    warningsBlock palette census counts ++ totalsLine palette census.summary counts

/-- The report as text, its columns aligned by display width. -/
def text (palette : Palette) (census : Census) (counts : RunCounts) : String :=
  textWith Text.width palette census counts

/-- The report as JSON, on indented lines. -/
def json (census : Census) : String :=
  census.toJson.pretty ++ "\n"

end Report

end LogCensus
