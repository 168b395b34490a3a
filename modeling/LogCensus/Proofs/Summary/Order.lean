import LogCensus.Proofs.Summary.Tally
import LogCensus.Proofs.Reordering

/-!
# The order of records and parameters

A summary is computed from counts, and a count does not depend on the order in which things are
counted. So the records may be given in any order, and the parameters of each record as well.

* `Reordered`: the same records in another order, each with its parameters in another order.
* `summary_unaffected_by_order`: the summary of reordered records.
-/

namespace LogCensus

/-- The same record with its parameters in another order. -/
structure UsageRecord.SameButParameterOrder (record record' : UsageRecord) : Prop where
  parameters_perm : record.parameters.Perm record'.parameters
  rest_eq : { record with parameters := record'.parameters } = record'

/-- The same records in another order, each with its parameters in another order. -/
def Reordered (records records' : List UsageRecord) : Prop :=
  ReorderedBy UsageRecord.SameButParameterOrder records records'

/-! ## Counts of reordered records -/

theorem typesUsed_perm {parameters parameters' : List Parameter}
    (hperm : parameters.Perm parameters') (name : String) :
    (typesUsed parameters name).Perm (typesUsed parameters' name) :=
  (hperm.filter _).map _

/-- The types of all names are the same for every order of the uses. -/
theorem Tally.countUses_perm (types : SortedMap String (SortedMap String Nat))
    {parameters parameters' : List Parameter} (hperm : parameters.Perm parameters') :
    countUses types parameters = countUses types parameters' := by
  apply SortedMap.ext_get?
  intro name
  have hused := typesUsed_perm hperm name
  have hnone : typesUsed parameters name = [] ↔ typesUsed parameters' name = [] := by
    rw [← List.length_eq_zero_iff, hused.length_eq, List.length_eq_zero_iff]
  simp only [get?_countUses, hnone, SortedMap.countAll_perm _ hused]

namespace UsageRecord.SameButParameterOrder

variable {record record' : UsageRecord} (h : record.SameButParameterOrder record')

include h

theorem kind_eq : record.kind = record'.kind := by
  rw [← h.rest_eq]

theorem extractionFailed_eq : record.extractionFailed = record'.extractionFailed := by
  rw [← h.rest_eq]
  rfl

end UsageRecord.SameButParameterOrder

theorem Reordered.tally_eq {records records' : List UsageRecord} (h : Reordered records records') :
    Tally.ofRecords records = Tally.ofRecords records' := by
  have hparameters : (parametersOf records).Perm (parametersOf records') :=
    h.flatMap_perm fun _ _ hrecord => hrecord.parameters_perm
  have hkinds : (records.map UsageRecord.kind).Perm (records'.map UsageRecord.kind) :=
    h.map_perm fun _ _ hrecord => hrecord.kind_eq
  have hfailed : (records.map UsageRecord.extractionFailed).Perm
      (records'.map UsageRecord.extractionFailed) :=
    h.map_perm fun _ _ hrecord => hrecord.extractionFailed_eq
  -- failures are counted by a test, which sees a record only through its verdict
  have hfailures : records.countP UsageRecord.extractionFailed =
      records'.countP UsageRecord.extractionFailed := by
    simpa only [List.countP_map, Function.id_comp] using hfailed.countP_eq id
  rw [Tally.ofRecords_eq, Tally.ofRecords_eq, Tally.countUses_perm _ hparameters,
    SortedMap.countAll_perm _ hkinds, hparameters.length_eq, hfailures]

theorem UsageRecord.SameButParameterOrder.refl (record : UsageRecord) :
    record.SameButParameterOrder record :=
  ⟨.refl _, rfl⟩

theorem summarize_perm {records records' : List UsageRecord} (hperm : records.Perm records')
    (top : Nat) : summarize records top = summarize records' top := by
  have hreordered : Reordered records records' :=
    ⟨records', hperm, List.forall₂_same.mpr fun record _ => .refl record⟩
  rw [summarize, summarize, hreordered.tally_eq, hperm.length_eq]

/-- A summary does not depend on the order of the records, nor on the order of the parameters in
them: in no field, and for no length of the ranking. -/
theorem summary_unaffected_by_order {records records' : List UsageRecord}
    (h : Reordered records records') (top : Nat) :
    summarize records top = summarize records' top := by
  have hlength : records.length = records'.length := h.length_eq
  rw [summarize, summarize, h.tally_eq, hlength]

def useOf (parameters : List Parameter) : UsageRecord where
  kind := .logMethod
  methodName := "LogInformation"
  parameters := parameters
  location := ⟨"User.cs", 3, 3⟩

def localOf (name type : String) : Parameter where
  name := name
  type := type
  kind := .localReference

/-- Two names and two types that are used equally often. -/
theorem summary_unaffected_by_order_ties :
    let records := [useOf [localOf "Id" "int", localOf "Id" "string"],
      useOf [localOf "User" "string", localOf "User" "Guid"]]
    let records' := [useOf [localOf "User" "Guid", localOf "User" "string"],
      useOf [localOf "Id" "string", localOf "Id" "int"]]
    Reordered records records' ∧ summarize records 1 = summarize records' 1 := by
  intro records records'
  have hreordered : Reordered records records' := by
    refine ⟨records.reverse, records.reverse_perm.symm, ?_⟩
    exact .cons ⟨.swap .., rfl⟩ (.cons ⟨.swap .., rfl⟩ .nil)
  exact ⟨hreordered, summary_unaffected_by_order hreordered 1⟩

end LogCensus
