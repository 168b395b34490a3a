import LogCensus.Summary
import LogCensus.Proofs.SortedMap
import Mathlib.Data.String.Basic

/-!
# The counts over records

The tally of a list of records goes through the records and their parameters one by one. Here each
of its counts is given by the list as a whole: how many parameters there are, how many records of
each kind, how many failures, and, for each name, the types used with it, each with the number of
its uses.

* `Tally.ofRecords_eq`: the tally of a list of records.
* `Tally.get?_countUses`: the types counted for a name.
* `typeCounts`: the types of a name among records; `Tally.mem_types_iff`: the tally holds them.
-/

namespace LogCensus

theorem CallKind.rank_injective {left right : CallKind} (h : left.rank = right.rank) :
    left = right := by
  revert h
  cases left <;> cases right <;> decide

instance : Std.LawfulEqOrd CallKind where
  eq_of_compare h := CallKind.rank_injective (Nat.compare_eq_eq.mp h)

/-- The parameters of all records, in order. -/
def parametersOf (records : List UsageRecord) : List Parameter :=
  records.flatMap UsageRecord.parameters

theorem parametersOf_cons (record : UsageRecord) (records : List UsageRecord) :
    parametersOf (record :: records) = record.parameters ++ parametersOf records :=
  List.flatMap_cons

/-- The types used with a name, once for each use. -/
def typesUsed (parameters : List Parameter) (name : String) : List String :=
  (parameters.filter fun parameter => parameter.name = name).map Parameter.type

namespace Tally

/-- Counts the use of a name with a type. -/
def countUse (types : SortedMap String (SortedMap String Nat)) (parameter : Parameter) :
    SortedMap String (SortedMap String Nat) :=
  types.update parameter.name .empty fun types => types.update parameter.type 0 (· + 1)

def countUses (types : SortedMap String (SortedMap String Nat)) (parameters : List Parameter) :
    SortedMap String (SortedMap String Nat) :=
  parameters.foldl countUse types

theorem countUses_append (types : SortedMap String (SortedMap String Nat))
    (first second : List Parameter) :
    countUses types (first ++ second) = countUses (countUses types first) second :=
  List.foldl_append

/-! ## The types of a name -/

/-- One use is counted for its own name only. -/
theorem get?_countUse (types : SortedMap String (SortedMap String Nat)) (parameter : Parameter)
    (name : String) :
    (countUse types parameter).get? name =
      if name = parameter.name then
        some (((types.get? name).getD .empty).update parameter.type 0 (· + 1))
      else types.get? name := by
  rw [countUse, SortedMap.get?_update]
  split
  · next heq => rw [heq]
  · rfl

/-- All uses: for each name, the types used with it are counted on top of those counted before, and
a name without uses is left alone. -/
theorem get?_countUses (types : SortedMap String (SortedMap String Nat))
    (parameters : List Parameter) (name : String) :
    (countUses types parameters).get? name =
      if typesUsed parameters name = [] then types.get? name
      else some (((types.get? name).getD .empty).countAll (typesUsed parameters name)) := by
  -- the counts so far are general, because the first use changes them
  induction parameters generalizing types with
  | nil => rfl
  | cons parameter parameters ih =>
    show (countUses (countUse types parameter) parameters).get? name = _
    rw [ih, get?_countUse]
    by_cases hname : name = parameter.name
    · have hused : typesUsed (parameter :: parameters) name =
          parameter.type :: typesUsed parameters name := by
        simp only [typesUsed, hname, decide_true, List.filter_cons_of_pos, List.map_cons]
      rw [if_pos hname, hused, if_neg (List.cons_ne_nil _ _)]
      split
      · next hnone => rw [hnone]; rfl
      · rfl
    · have hused : typesUsed (parameter :: parameters) name = typesUsed parameters name := by
        rw [typesUsed, List.filter_cons_of_neg (by simpa using Ne.symm hname)]
        rfl
      rw [if_neg hname, hused]

/-! ## All counts -/

/-- Counting parameters changes the types and the number of parameters. -/
theorem foldl_addParameter (tally : Tally) (parameters : List Parameter) :
    parameters.foldl addParameter tally =
      { tally with
        types := countUses tally.types parameters
        parameters := tally.parameters + parameters.length } := by
  induction parameters generalizing tally with
  | nil => rfl
  | cons parameter parameters ih =>
    rw [List.foldl_cons, ih, List.length_cons, Nat.add_comm parameters.length, ← Nat.add_assoc]
    rfl

/-- One record adds its parameters, its kind and its failure. -/
theorem addRecord_eq (tally : Tally) (record : UsageRecord) :
    tally.addRecord record =
      { types := countUses tally.types record.parameters
        kinds := tally.kinds.update record.kind 0 (· + 1)
        parameters := tally.parameters + record.parameters.length
        failures := tally.failures + if record.extractionFailed then 1 else 0 } := by
  rw [addRecord, foldl_addParameter]

/-- All records: the counts add up what the records say. -/
theorem foldl_addRecord (tally : Tally) (records : List UsageRecord) :
    records.foldl addRecord tally =
      { types := countUses tally.types (parametersOf records)
        kinds := tally.kinds.countAll (records.map UsageRecord.kind)
        parameters := tally.parameters + (parametersOf records).length
        failures := tally.failures + records.countP UsageRecord.extractionFailed } := by
  induction records generalizing tally with
  | nil => rfl
  | cons record records ih =>
    rw [List.foldl_cons, ih, addRecord_eq, parametersOf_cons, countUses_append, List.length_append,
      List.countP_cons, Tally.mk.injEq]
    dsimp only
    refine ⟨rfl, rfl, ?_, ?_⟩
    · omega
    · omega

theorem ofRecords_eq (records : List UsageRecord) :
    ofRecords records =
      { types := countUses .empty (parametersOf records)
        kinds := SortedMap.empty.countAll (records.map UsageRecord.kind)
        parameters := (parametersOf records).length
        failures := records.countP UsageRecord.extractionFailed } := by
  rw [ofRecords, foldl_addRecord]
  simp only [Nat.zero_add]

end Tally

/-! ## The types of a name among records -/

theorem mem_typesUsed {parameters : List Parameter} {name type : String} :
    type ∈ typesUsed parameters name ↔
      ∃ parameter ∈ parameters, parameter.name = name ∧ parameter.type = type := by
  simp only [typesUsed, List.mem_map, List.mem_filter, decide_eq_true_eq, and_assoc]

theorem typesUsed_eq_nil_iff {parameters : List Parameter} {name : String} :
    typesUsed parameters name = [] ↔ name ∉ parameters.map Parameter.name := by
  simp only [typesUsed, List.map_eq_nil_iff, List.filter_eq_nil_iff, decide_eq_true_eq,
    List.mem_map, not_exists, not_and]

/-- The types used with a name in some records, each with the number of its uses. -/
def typeCounts (records : List UsageRecord) (name : String) : SortedMap String Nat :=
  SortedMap.empty.countAll (typesUsed (parametersOf records) name)

theorem mem_keys_typeCounts {records : List UsageRecord} {name type : String} :
    type ∈ (typeCounts records name).keys ↔
      ∃ parameter ∈ parametersOf records, parameter.name = name ∧ parameter.type = type := by
  rw [typeCounts, SortedMap.mem_keys_countAll, mem_typesUsed]

theorem count_typesUsed (parameters : List Parameter) (name type : String) :
    (typesUsed parameters name).count type =
      parameters.countP fun parameter => parameter.name = name ∧ parameter.type = type := by
  rw [typesUsed, List.count, List.countP_map, List.countP_filter]
  apply List.countP_congr
  intro parameter _
  simp [and_comm]

/-- A type that is used is counted once for each use. -/
theorem get?_typeCounts {records : List UsageRecord} {name type : String}
    (htype : type ∈ (typeCounts records name).keys) :
    (typeCounts records name).get? type =
      some ((parametersOf records).countP fun parameter =>
        parameter.name = name ∧ parameter.type = type) := by
  rw [typeCounts, SortedMap.mem_keys_countAll] at htype
  rw [typeCounts, SortedMap.get?_countAll, if_pos htype, count_typesUsed]
  exact congrArg some (Nat.zero_add _)

/-- Types are listed in ascending order. -/
theorem keys_typeCounts_ascending (records : List UsageRecord) (name : String) :
    (typeCounts records name).keys.Pairwise (· < ·) :=
  (typeCounts records name).keys_ascending.imp fun hlt => compare_lt_iff_lt.mp hlt

/-- The tally holds the names that are used, each with its types. -/
theorem Tally.mem_types_iff {records : List UsageRecord} {name : String}
    {types : SortedMap String Nat} :
    (name, types) ∈ (Tally.ofRecords records).types.entries ↔
      name ∈ (parametersOf records).map Parameter.name ∧ types = typeCounts records name := by
  rw [SortedMap.mem_entries_iff, Tally.ofRecords_eq, Tally.get?_countUses]
  simp only [typesUsed_eq_nil_iff]
  by_cases hname : name ∈ (parametersOf records).map Parameter.name
  · rw [if_neg (not_not_intro hname), Option.some.injEq]
    simp only [hname, true_and]
    exact eq_comm
  · rw [if_pos hname]
    simp only [hname, false_and, iff_false]
    intro hnone
    cases hnone

/-- The ranking holds the names that are used, each with its types. -/
theorem Summary.mem_ranking_iff {records : List UsageRecord} {entry : CommonName} :
    entry ∈ ranking (Tally.ofRecords records).types ↔
      entry.name ∈ (parametersOf records).map Parameter.name ∧
        entry = commonName entry.name (typeCounts records entry.name) := by
  simp only [ranking, List.mem_mergeSort, List.mem_map (α := String × SortedMap String Nat),
    Prod.exists, Tally.mem_types_iff]
  constructor
  · rintro ⟨name, _, ⟨hname, rfl⟩, rfl⟩
    exact ⟨hname, rfl⟩
  · rintro ⟨hname, heq⟩
    exact ⟨entry.name, _, ⟨hname, rfl⟩, heq.symm⟩

end LogCensus
