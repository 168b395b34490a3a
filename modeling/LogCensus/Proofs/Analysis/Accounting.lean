import LogCensus.Proofs.Analysis.Records
import LogCensus.Proofs.Extraction.Matching

/-!
# No value is lost in silence

A template announces how many values its message has. Unless the values bring names of their own, as
the pairs of a collection and the members of an anonymous object do, a record either has a parameter
for every placeholder or carries a report that says it has not.

* `Outcome.Fits`: what each strategy that works from a template promises.
* `Content.Accounted`: what every content keeps.
* `accounted_content_of_mem`: every record of a file keeps it.
-/

namespace LogCensus

/-! ## Strategies -/

/-- An outcome for the placeholders of a template: complete only with a parameter for each of them,
and, when the placeholders are served in order, with their names from the first on. -/
structure Outcome.Fits (outcome : Outcome) (names : List String) : Prop where
  complete : outcome.success = true → outcome.parameters.length = names.length
  positional : outcome.strategy = .arrayLiteral ∨ outcome.strategy = .genericTypeArguments →
    outcome.parameters.map Parameter.name <+: names
  strategy_ne : outcome.strategy ≠ .templateOnly

theorem Outcome.fits_unsupported {strategy : Strategy} (hne : strategy ≠ .templateOnly)
    (names : List String) : (Outcome.unsupported strategy).Fits names where
  complete hsuccess := by cases hsuccess
  positional _ := List.nil_prefix
  strategy_ne := hne

/-- Items named after the placeholders by position take the first names, in order. -/
theorem map_name_zipWith {α : Type} {f : String → α → Parameter}
    (hname : ∀ name item, (f name item).name = name) (names : List String) (items : List α) :
    (names.zipWith f items).map Parameter.name = names.take items.length := by
  induction names generalizing items with
  | nil => simp
  | cons name names ih =>
    cases items with
    | nil => rfl
    | cons item items =>
      rw [List.zipWith_cons_cons, List.map_cons, hname, ih, List.length_cons, List.take_succ_cons]

/-- Items that serve the placeholders by position fit, complete when there are as many of them. -/
theorem Outcome.fits_zipWith {α : Type} {strategy : Strategy} (hne : strategy ≠ .templateOnly)
    {f : String → α → Parameter} (hname : ∀ name item, (f name item).name = name)
    (names : List String) (items : List α) :
    (Outcome.found strategy (names.zipWith f items) (items.length == names.length)).Fits names where
  complete hsuccess := by
    have hlength : items.length = names.length := by simpa [found] using hsuccess
    simp only [found, List.length_zipWith, hlength, Nat.min_self]
  positional _ := by
    simp only [found]
    rw [map_name_zipWith hname]
    exact List.take_prefix _ _
  strategy_ne := hne

theorem ArrayLiteral.extract_fits (argument : Operation) (names : List String) :
    (ArrayLiteral.extract argument names).Fits names := by
  unfold ArrayLiteral.extract
  split
  · exact Outcome.fits_unsupported (by decide) names
  · next elements _ => exact Outcome.fits_zipWith (by decide) (fun _ _ => rfl) names elements

theorem TypeArguments.extract_fits (method : MethodRef) (names : List String) :
    (TypeArguments.extract method names).Fits names :=
  Outcome.fits_zipWith (by decide) (fun _ _ => rfl) names method.typeArguments

theorem MethodSignature.extract_fits (table : WellKnown) (method : MethodRef)
    (names : List String) : (MethodSignature.extract table method names).Fits names where
  complete hsuccess := by
    -- complete means that every slot is taken and that no parameter is appended behind them
    simp only [extract, Outcome.found, Bool.and_eq_true, List.all_eq_true, List.isEmpty_iff]
      at hsuccess ⊢
    obtain ⟨htaken, hleft⟩ := hsuccess
    rw [hleft, List.append_nil, List.length_map]
    calc _ = _ := List.filterMap_length_eq_length.mpr htaken
      _ = _ := length_fillGaps ..
      _ = names.length := length_matchNames ..
  positional hstrategy := by
    rcases hstrategy with hstrategy | hstrategy <;> cases hstrategy
  strategy_ne := by
    intro hstrategy
    cases hstrategy

/-! ## Contents -/

/-- What a content says about its values agrees with the placeholders of its template. -/
structure Content.Accounted (content : Content) : Prop where
  unreported : content.extraction = none →
    placeholders content.template = [] ∧ content.parameters = []
  complete : ∀ report, content.extraction = some report → report.success = true →
    content.parameters.length = (placeholders content.template).length
  positional : ∀ report, content.extraction = some report →
    report.strategy = some .arrayLiteral ∨ report.strategy = some .genericTypeArguments →
      content.parameters.map Parameter.name <+: placeholders content.template
  textOnly : ∀ report, content.extraction = some report → report.strategy = some .templateOnly →
    content.parameters = [] ∧ (report.success = true ↔ placeholders content.template = [])

theorem Content.accounted_ofOutcome {template : Option String} {outcome : Outcome}
    (hfits : outcome.Fits (placeholders template)) :
    (Content.ofOutcome template outcome).Accounted where
  unreported hnone := by cases hnone
  complete report hreport hsuccess := by
    cases hreport
    exact hfits.complete hsuccess
  positional report hreport hstrategy := by
    cases hreport
    apply hfits.positional
    simpa [Outcome.report] using hstrategy
  textOnly report hreport hstrategy := by
    cases hreport
    exact absurd (Option.some.inj hstrategy) hfits.strategy_ne

/-- A template without values is reported only when it announces some. -/
theorem Content.report_ofTemplate {template : Option String} {report : ExtractionReport}
    (hreport : (Content.ofTemplate template).extraction = some report) :
    placeholders template ≠ [] ∧ report = ⟨none, false⟩ := by
  cases hnames : placeholders template with
  | nil => simp [ofTemplate, hnames] at hreport
  | cons name names =>
    simp only [ofTemplate, hnames, List.isEmpty_cons, Bool.false_eq_true, if_false,
      Option.some.injEq] at hreport
    exact ⟨List.cons_ne_nil name names, hreport.symm⟩

theorem Content.accounted_ofTemplate (template : Option String) :
    (Content.ofTemplate template).Accounted where
  unreported hnone := by
    cases hnames : placeholders template with
    | nil => exact ⟨hnames, rfl⟩
    | cons name names => simp [ofTemplate, hnames] at hnone
  complete report hreport hsuccess := by
    obtain ⟨-, rfl⟩ := report_ofTemplate hreport
    cases hsuccess
  positional report hreport hstrategy := by
    obtain ⟨-, rfl⟩ := report_ofTemplate hreport
    exact List.nil_prefix
  textOnly report hreport hstrategy := by
    obtain ⟨-, rfl⟩ := report_ofTemplate hreport
    cases hstrategy

/-- A scope without a state announces nothing. -/
theorem Content.accounted_empty : ({} : Content).Accounted where
  unreported _ := ⟨rfl, rfl⟩
  complete report hreport := by cases hreport
  positional report hreport := by cases hreport
  textOnly report hreport := by cases hreport

/-- A state without values of its own is a text, which is its own template, or unknown. -/
theorem Content.accounted_ofState (template : Option String) {reading : StateReading}
    (hvalues : ∀ outcome, reading ≠ .values outcome) :
    (Content.ofState template reading).Accounted := by
  cases reading with
  | values outcome => exact absurd rfl (hvalues outcome)
  | text text =>
    have hsuccess : (StateReading.text text).report.success = true ↔ Template.parse text = [] :=
      List.isEmpty_iff
    constructor
    · intro hnone
      cases hnone
    · intro report hreport hcomplete
      cases hreport
      rw [hsuccess] at hcomplete
      exact (congrArg List.length hcomplete).symm
    · intro report hreport hstrategy
      exact List.nil_prefix
    · intro report hreport hstrategy
      cases hreport
      exact ⟨rfl, hsuccess⟩
  | unknown type =>
    constructor
    · intro hnone
      cases hnone
    · intro report hreport hcomplete
      cases hreport
      cases hcomplete
    · intro report hreport hstrategy
      exact List.nil_prefix
    · intro report hreport hstrategy
      cases hreport
      cases hstrategy

/-! ## Records -/

/-- Whether the values of a content bring their own names. -/
def Content.HasOwnNames (content : Content) : Prop :=
  ∃ report, content.extraction = some report ∧
    (report.strategy = some .keyValueCollection ∨ report.strategy = some .anonymousObject)

theorem Content.accounted_ofState_of_not_ownNames {template : Option String} {table : WellKnown}
    {state : Operation}
    (hown : ¬ (Content.ofState template (.ofState table state)).HasOwnNames) :
    (Content.ofState template (.ofState table state)).Accounted := by
  apply accounted_ofState
  intro outcome hreading
  apply hown
  refine ⟨_, rfl, ?_⟩
  rw [hreading]
  simpa [StateReading.report, Outcome.report] using StateReading.strategy_of_values hreading

/-- However it was found, a content is accounted for, unless its values bring their own names. -/
theorem Content.Found.accounted {table : WellKnown} {content : Content} (h : content.Found table)
    (hown : ¬ content.HasOwnNames) : content.Accounted := by
  cases h with
  | values template values => exact accounted_ofOutcome (ArrayLiteral.extract_fits values _)
  | state template state => exact accounted_ofState_of_not_ownNames hown
  | template template => exact accounted_ofTemplate template
  | signature template method =>
    exact accounted_ofOutcome (MethodSignature.extract_fits table method _)
  | typeArguments template method =>
    exact accounted_ofOutcome (TypeArguments.extract_fits method _)
  | nothing => exact accounted_empty

/-- Every record of a file is accounted for, unless its values bring their own names. -/
theorem accounted_content_of_mem {table : WellKnown} {file : SourceFile} {record : UsageRecord}
    (hmem : record ∈ analyzeFile Analyzer.all table file) (hown : ¬ record.content.HasOwnNames) :
    record.content.Accounted :=
  (describes_of_mem_analyzeFile hmem).2.accounted hown

/-- Where the number of parameters is not that of the placeholders, a report says so. -/
theorem Content.Accounted.failed_of_length_ne {content : Content} (h : content.Accounted)
    (hne : content.parameters.length ≠ (placeholders content.template).length) :
    ∃ report, content.extraction = some report ∧ report.success = false := by
  cases hreport : content.extraction with
  | none =>
    obtain ⟨hnames, hparameters⟩ := h.unreported hreport
    rw [hnames, hparameters] at hne
    exact absurd rfl hne
  | some report =>
    refine ⟨report, rfl, ?_⟩
    cases hsuccess : report.success with
    | false => rfl
    | true => exact absurd (h.complete report hreport hsuccess) hne

/-- No value of a message is lost in silence: every record of a file whose values do not bring their
own names agrees with the placeholders of its template, and one with another number of parameters
carries the report of a failure. -/
theorem values_accounted (compilation : Compilation) (file : SourceFile) (record : UsageRecord)
    (hmem : record ∈ analyzeFile Analyzer.all (WellKnown.resolve compilation) file)
    (hown : ¬ record.content.HasOwnNames) :
    record.content.Accounted ∧
      (record.parameters.length ≠ (placeholders record.messageTemplate).length →
        ∃ report, record.extraction = some report ∧ report.success = false) := by
  have haccounted := accounted_content_of_mem hmem hown
  exact ⟨haccounted, haccounted.failed_of_length_ne⟩

/-- A call with two placeholders and one value. -/
def partialCall : CallSite where
  span := ⟨3, 4⟩
  invocation :=
    { method := { symbol := ⟨21⟩, name := "LogInformation", containingType := some ⟨2⟩ }
      arguments :=
        [argumentOf { symbol := some ⟨5⟩, display := "string" }
          { constant := some (.string "User {Id} of {Group}"), shape := .literal },
         argumentOf { display := "object[]", elementType := some { display := "object" } }
          { shape := .arrayCreation [{ shape := .parameterReference "id" }] }] }

theorem values_accounted_partialCall :
    ∃ record ∈ analyzeFile Analyzer.all (WellKnown.resolve smallCompilation)
        { path := "User.cs", callSites := [partialCall] },
      ¬ record.content.HasOwnNames ∧ record.content.Accounted ∧
        (record.parameters.length ≠ (placeholders record.messageTemplate).length →
          ∃ report, record.extraction = some report ∧ report.success = false) := by
  refine ⟨_, List.mem_cons_self, ?_⟩
  have hown : ¬ (Content.ofValues (some "User {Id} of {Group}")
      { shape := .arrayCreation [{ shape := .parameterReference "id" }] }).HasOwnNames := by
    rintro ⟨report, hreport, hstrategy⟩
    cases hreport
    simp [Outcome.report, ArrayLiteral.strategy_extract] at hstrategy
  exact ⟨hown, values_accounted smallCompilation
    { path := "User.cs", callSites := [partialCall] } _ List.mem_cons_self hown⟩

end LogCensus
