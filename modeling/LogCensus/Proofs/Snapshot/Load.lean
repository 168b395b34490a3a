import LogCensus.Proofs.Text.Encoding
import LogCensus.Snapshot.Load

/-!
# Loaded snapshots

Snapshots are loaded one by one, and the outcomes are added up. Here the result is given by the
list of outcomes: a file gives a project or a failure, whatever the other files give, and both lists
are in the order of the files.

* `loadSnapshots_eq`: the result for a list of files.
-/

namespace LogCensus

/-- Why a file was not loaded, if it was not. -/
def failure? : Except LoadFailure Snapshot → Option LoadFailure
  | .error failure => some failure
  | .ok _ => none

/-- One outcome adds a project or a failure. -/
theorem LoadedSnapshots.add_eq (patterns : List Glob) (loaded : LoadedSnapshots)
    (outcome : Except LoadFailure Snapshot) :
    loaded.add patterns outcome =
      { projects := loaded.projects ++ (outcome.toOption.map (Snapshot.exclude patterns)).toList
        failures := loaded.failures ++ (failure? outcome).toList } := by
  cases outcome with
  | ok project => simp [add, failure?, Except.toOption]
  | error failure => simp [add, failure?, Except.toOption]

/-- All outcomes: the projects and the failures come after those so far. -/
theorem LoadedSnapshots.foldl_add (patterns : List Glob) (loaded : LoadedSnapshots)
    (outcomes : List (Except LoadFailure Snapshot)) :
    outcomes.foldl (add patterns) loaded =
      { projects := loaded.projects ++
          (outcomes.filterMap Except.toOption).map (Snapshot.exclude patterns)
        failures := loaded.failures ++ outcomes.filterMap failure? } := by
  induction outcomes generalizing loaded with
  | nil => simp
  | cons outcome outcomes ih =>
    rw [List.foldl_cons, ih, add_eq]
    cases outcome with
    | ok project => simp [List.filterMap_cons, failure?, Except.toOption]
    | error failure => simp [List.filterMap_cons, failure?, Except.toOption]

theorem loadSnapshots_eq (tree : FileTree) (paths : List Path) (patterns : List Glob) :
    loadSnapshots tree paths patterns =
      { projects := (paths.filterMap fun path => (loadSnapshot tree path).toOption).map
          (Snapshot.exclude patterns)
        failures := paths.filterMap fun path => failure? (loadSnapshot tree path) } := by
  simp only [loadSnapshots, LoadedSnapshots.foldl_add, List.filterMap_map, List.nil_append,
    Function.comp_def]

theorem FileTree.readText?_of_entry? {tree : FileTree} {path : Path} {text : String}
    (h : tree.entry? path = some (.file (Text.bytes text))) : tree.readText? path = some text := by
  rw [readText?, h]
  exact Text.ofBytes?_bytes text

theorem FileTree.readText?_of_descend? {tree : FileTree} {path : Path} {location : List String}
    {text : String} (hplace : tree.locate? path = some location)
    (hfile : tree.root.descend? location = some (.file (Text.bytes text))) :
    tree.readText? path = some text := by
  apply readText?_of_entry?
  rw [FileTree.entry?, hplace]
  exact hfile

theorem loadSnapshot_of_readText? {tree : FileTree} {path : Path} {text : String}
    {snapshot : Snapshot} (htext : tree.readText? path = some text)
    (hsnapshot : Snapshot.ofText? text = some snapshot) :
    loadSnapshot tree path = .ok (snapshot.prepare path) := by
  rw [loadSnapshot, htext]
  dsimp only
  rw [hsnapshot]

/-- A snapshot is read from the characters of its text. -/
theorem Snapshot.ofText?_ofList (text : List Char) :
    ofText? (String.ofList text) =
      ((do
        let (found, rest) ← Json.Parser.value (2 * text.length + 2) text
        guard (Json.Parser.skipBlanks rest).isEmpty
        return found) : Option Json).bind (read Json.textLevels) := by
  rw [ofText?, Json.parse?, String.toList_ofList]
  rfl

end LogCensus
