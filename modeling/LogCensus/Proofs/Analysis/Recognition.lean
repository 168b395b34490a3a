import LogCensus.Proofs.Analysis.Records
import Mathlib.Data.List.Forall2

/-!
# Which calls are reported

A call is recognised by the member that its method is an instance of: by the type that declares the
member, found by its metadata name, and by the member's name. When the three types of the framework
are told apart and no member has two names or two types, the records of a file are exactly one for
each recognised call and each declaration with the message attribute.

* `recognizedMembers`: the members that each kind of call is recognised by.
* `Compilation.Unambiguous`: what a symbol table has to keep apart.
* `reported_exactly_once`: the records of a file, kind by kind.
-/

namespace LogCensus

/-! ## Members of a symbol table -/

/-- Whether the type with a metadata name declares a member with the given name and handle. -/
def Compilation.declares (compilation : Compilation) (typeName memberName : String)
    (id : SymbolId) : Bool :=
  compilation.types.any fun entry =>
    compilation.typeNamed? typeName == some entry.id &&
      entry.members.any fun member => member.name == memberName && member.id == id

theorem Compilation.declares_iff {compilation : Compilation} {typeName memberName : String}
    {id : SymbolId} :
    compilation.declares typeName memberName id = true ↔
      ∃ entry ∈ compilation.types, compilation.typeNamed? typeName = some entry.id ∧
        ∃ member ∈ entry.members, member.name = memberName ∧ member.id = id := by
  simp only [declares, List.any_eq_true, Bool.and_eq_true, beq_iff_eq]

/-- The members that the table of a compilation looks up are the declared ones. -/
theorem WellKnown.mem_membersOf {compilation : Compilation} {typeName memberName : String}
    {id : SymbolId} :
    id ∈ membersOf compilation (compilation.typeNamed? typeName) memberName ↔
      compilation.declares typeName memberName id = true := by
  rw [Compilation.declares_iff]
  cases htype : compilation.typeNamed? typeName with
  | none => simp [membersOf]
  | some type =>
    simp only [membersOf, Option.elim_some, Compilation.members, List.mem_map, List.mem_filter,
      List.mem_flatMap, beq_iff_eq, Option.some.injEq]
    constructor
    · rintro ⟨member, ⟨⟨entry, ⟨hentry, hid⟩, hmember⟩, hname⟩, heq⟩
      exact ⟨entry, hentry, hid.symm, member, hmember, hname, heq⟩
    · rintro ⟨entry, hentry, hid, member, hmember, hname, heq⟩
      exact ⟨member, ⟨⟨entry, ⟨hentry, hid.symm⟩, hmember⟩, hname⟩, heq⟩

theorem WellKnown.contains_membersOf (compilation : Compilation) (typeName memberName : String)
    (id : SymbolId) :
    (membersOf compilation (compilation.typeNamed? typeName) memberName).eraseDups.contains id =
      compilation.declares typeName memberName id := by
  rw [Bool.eq_iff_iff, List.contains_iff_mem, List.mem_eraseDups, mem_membersOf]

/-! ## The log methods of a table -/

theorem WellKnown.isSome_lookup {methods : List (SymbolId × SeveritySource)} {id : SymbolId} :
    (methods.lookup id).isSome = true ↔ id ∈ methods.map Prod.fst := by
  induction methods with
  | nil => simp
  | cons entry methods ih =>
    obtain ⟨known, source⟩ := entry
    by_cases hid : id = known
    · simp [hid]
    · rw [List.lookup_cons, beq_false_of_ne hid, List.map_cons, List.mem_cons]
      simp only [ih, hid, false_or]

/-- Setting the source of a method adds the method and keeps the others. -/
theorem WellKnown.mem_setSource (methods : List (SymbolId × SeveritySource)) (id : SymbolId)
    (source : SeveritySource) (method : SymbolId) :
    method ∈ (setSource methods id source).map Prod.fst ↔
      method = id ∨ method ∈ methods.map Prod.fst := by
  by_cases hid : method = id
  · simp [setSource, hid]
  · simp only [setSource, List.map_cons, List.mem_cons, hid, false_or, List.mem_map,
      List.mem_filter, bne_iff_ne, ne_eq]
    constructor
    · rintro ⟨entry, ⟨hentry, -⟩, heq⟩
      exact ⟨entry, hentry, heq⟩
    · rintro ⟨entry, hentry, heq⟩
      exact ⟨entry, ⟨hentry, heq ▸ hid⟩, heq⟩

theorem WellKnown.mem_foldl_setSource (ids : List SymbolId) (source : SeveritySource)
    (methods : List (SymbolId × SeveritySource)) (method : SymbolId) :
    method ∈ (ids.foldl (fun methods id => setSource methods id source) methods).map Prod.fst ↔
      method ∈ ids ∨ method ∈ methods.map Prod.fst := by
  induction ids generalizing methods with
  | nil => simp
  | cons id ids ih =>
    rw [List.foldl_cons, ih, mem_setSource, List.mem_cons, or_left_comm, or_assoc]

/-- The methods of the extension class are entered name by name. -/
theorem WellKnown.mem_foldl_extensionMethods (compilation : Compilation)
    (extensions : Option SymbolId) (method : SymbolId) (names : List String)
    (methods : List (SymbolId × SeveritySource)) :
    method ∈ (names.foldl (fun methods name =>
      (membersOf compilation extensions name).foldl (fun methods id =>
        setSource methods id (severitySource name)) methods) methods).map Prod.fst ↔
      method ∈ methods.map Prod.fst ∨
        ∃ name ∈ names, method ∈ membersOf compilation extensions name := by
  induction names generalizing methods with
  | nil => simp
  | cons name names ih =>
    rw [List.foldl_cons, ih, mem_foldl_setSource, List.exists_mem_cons_iff, or_assoc, or_left_comm]

/-- A method is a log method when the logger declares it, or the extension class does under one of
its names: later entries replace earlier ones, but none is dropped. -/
theorem WellKnown.mem_resolveLogMethods (compilation : Compilation)
    (logger extensions : Option SymbolId) (method : SymbolId) :
    method ∈ (resolveLogMethods compilation logger extensions).map Prod.fst ↔
      method ∈ membersOf compilation logger "Log" ∨
        ∃ name ∈ extensionLogMethods, method ∈ membersOf compilation extensions name := by
  unfold resolveLogMethods
  rw [mem_foldl_extensionMethods, mem_foldl_setSource]
  simp

/-! ## Recognised methods -/

/-- The members that each kind of call is recognised by, as the metadata name of the declaring type
and the name of the member. Declarations are recognised by their attribute instead. -/
def recognizedMembers : CallKind → List (String × String)
  | .logMethod =>
    [(WellKnown.loggerName, "Log"),
     (WellKnown.loggerExtensionsName, "Log"),
     (WellKnown.loggerExtensionsName, "LogTrace"),
     (WellKnown.loggerExtensionsName, "LogDebug"),
     (WellKnown.loggerExtensionsName, "LogInformation"),
     (WellKnown.loggerExtensionsName, "LogWarning"),
     (WellKnown.loggerExtensionsName, "LogError"),
     (WellKnown.loggerExtensionsName, "LogCritical")]
  | .messageAttribute => []
  | .messageDefine =>
    [(WellKnown.loggerMessageName, "Define"), (WellKnown.loggerMessageName, "DefineScope")]
  | .beginScope =>
    [(WellKnown.loggerName, "BeginScope"), (WellKnown.loggerExtensionsName, "BeginScope")]

/-- Whether a method is one of the members that a kind of call is recognised by. -/
def Compilation.recognizes (compilation : Compilation) (kind : CallKind) (id : SymbolId) : Bool :=
  (recognizedMembers kind).any fun member => compilation.declares member.1 member.2 id

/-- Whether a declaration has the message attribute. -/
def Compilation.hasMessageAttribute (compilation : Compilation)
    (declaration : MethodDeclaration) : Bool :=
  declaration.attributes.any fun applied =>
    compilation.typeNamed? WellKnown.loggerMessageAttributeName == some applied.type

section

variable (compilation : Compilation) (path : String) (site : CallSite)

theorem LogCall.isSome_record? :
    (LogCall.record? (WellKnown.resolve compilation) path site).isSome =
      compilation.recognizes .logMethod site.invocation.method.definition := by
  rw [Bool.eq_iff_iff]
  simp only [LogCall.record?, Option.isSome_map, WellKnown.severitySource?,
    WellKnown.isSome_lookup]
  show _ ∈ (WellKnown.resolveLogMethods ..).map Prod.fst ↔ _
  rw [WellKnown.mem_resolveLogMethods]
  simp only [WellKnown.mem_membersOf, WellKnown.extensionLogMethods, Compilation.recognizes,
    recognizedMembers, List.any_cons, List.any_nil, Bool.or_eq_true, List.exists_mem_cons_iff,
    List.not_mem_nil, false_and, exists_false, Bool.or_false, or_false]

theorem MessageFactory.isSome_record? :
    (MessageFactory.record? (WellKnown.resolve compilation) path site).isSome =
      compilation.recognizes .messageDefine site.invocation.method.definition := by
  have hscope : MessageFactory.buildsScope (WellKnown.resolve compilation) site.invocation =
      compilation.declares WellKnown.loggerMessageName "DefineScope"
        site.invocation.method.definition := WellKnown.contains_membersOf ..
  have hmessage : MessageFactory.buildsMessage (WellKnown.resolve compilation) site.invocation =
      compilation.declares WellKnown.loggerMessageName "Define"
        site.invocation.method.definition := WellKnown.contains_membersOf ..
  simp only [MessageFactory.record?, hscope, hmessage, Compilation.recognizes, recognizedMembers,
    List.any_cons, List.any_nil, Bool.or_false]
  cases compilation.declares WellKnown.loggerMessageName "DefineScope"
    site.invocation.method.definition <;>
  cases compilation.declares WellKnown.loggerMessageName "Define"
    site.invocation.method.definition <;> rfl

theorem Scope.isSome_record? :
    (Scope.record? (WellKnown.resolve compilation) path site).isSome =
      compilation.recognizes .beginScope site.invocation.method.definition := by
  have hstate : Scope.startsWithState (WellKnown.resolve compilation) site.invocation =
      compilation.declares WellKnown.loggerName "BeginScope"
        site.invocation.method.definition := WellKnown.contains_membersOf ..
  have htemplate : Scope.startsWithTemplate (WellKnown.resolve compilation) site.invocation =
      compilation.declares WellKnown.loggerExtensionsName "BeginScope"
        site.invocation.method.definition := WellKnown.contains_membersOf ..
  simp only [Scope.record?, Option.isSome_map, Scope.content?, hstate, htemplate,
    Compilation.recognizes, recognizedMembers, List.any_cons, List.any_nil, Bool.or_false]
  cases compilation.declares WellKnown.loggerName "BeginScope"
    site.invocation.method.definition <;>
  cases compilation.declares WellKnown.loggerExtensionsName "BeginScope"
    site.invocation.method.definition <;> rfl

end

theorem MessageMethod.isSome_record? (compilation : Compilation) (path : String)
    (declaration : MethodDeclaration) :
    (MessageMethod.record? (WellKnown.resolve compilation) path declaration).isSome =
      compilation.hasMessageAttribute declaration := by
  show (Option.map _ (MessageMethod.applied? _ declaration)).isSome = _
  rw [Option.isSome_map]
  show ((compilation.typeNamed? WellKnown.loggerMessageAttributeName).bind fun type =>
    declaration.attributes.find? fun applied => applied.type == type).isSome = _
  unfold Compilation.hasMessageAttribute
  cases compilation.typeNamed? WellKnown.loggerMessageAttributeName with
  | none => simp
  | some type =>
    rw [Option.bind_some, List.isSome_find?, Bool.eq_iff_iff]
    simp only [List.any_eq_true, beq_iff_eq, Option.some.injEq, @eq_comm _ type]

/-! ## Kinds are kept apart -/

/-- The metadata names of the types whose members are recognised. -/
def frameworkTypes : List String :=
  [WellKnown.loggerName, WellKnown.loggerExtensionsName, WellKnown.loggerMessageName]

/-- A symbol table in which the types of the framework have handles of their own, and in which
members with the same handle are declared by the same type under the same name. -/
structure Compilation.Unambiguous (compilation : Compilation) : Prop where
  types_distinct : ∀ name ∈ frameworkTypes, ∀ name' ∈ frameworkTypes,
    ∀ type ∈ compilation.typeNamed? name, compilation.typeNamed? name' = some type → name = name'
  member_unique : ∀ entry ∈ compilation.types, ∀ member ∈ entry.members,
    ∀ entry' ∈ compilation.types, ∀ member' ∈ entry'.members,
      member.id = member'.id → entry.id = entry'.id ∧ member.name = member'.name

theorem mem_frameworkTypes {kind : CallKind} {member : String × String}
    (h : member ∈ recognizedMembers kind) : member.1 ∈ frameworkTypes := by
  revert member
  cases kind <;> decide

/-- No member stands in the table under two kinds. -/
theorem kind_of_mem_recognizedMembers {kind kind' : CallKind} {member : String × String}
    (h : member ∈ recognizedMembers kind) (h' : member ∈ recognizedMembers kind') :
    kind = kind' := by
  revert member
  cases kind <;> cases kind' <;> decide

/-- A handle belongs to at most one kind of call. -/
theorem Compilation.Unambiguous.kind_unique {compilation : Compilation}
    (h : compilation.Unambiguous) {kind kind' : CallKind} {id : SymbolId}
    (hkind : compilation.recognizes kind id = true)
    (hkind' : compilation.recognizes kind' id = true) : kind = kind' := by
  obtain ⟨member, hmember, hdeclares⟩ := List.any_eq_true.mp hkind
  obtain ⟨member', hmember', hdeclares'⟩ := List.any_eq_true.mp hkind'
  obtain ⟨entry, hentry, htype, found, hfound, hname, hid⟩ := declares_iff.mp hdeclares
  obtain ⟨entry', hentry', htype', found', hfound', hname', hid'⟩ := declares_iff.mp hdeclares'
  obtain ⟨hsameType, hsameName⟩ := h.member_unique entry hentry found hfound
    entry' hentry' found' hfound' (hid.trans hid'.symm)
  -- both handles lead to one type and one name, hence to one row of the table
  have hrow : member = member' := by
    apply Prod.ext
    · exact h.types_distinct _ (mem_frameworkTypes hmember) _ (mem_frameworkTypes hmember')
        entry.id htype (by rw [htype', hsameType])
    · rw [← hname, ← hname', hsameName]
  exact kind_of_mem_recognizedMembers hmember (hrow ▸ hmember')

/-! ## The records of one kind -/

/-- The records of one kind in a file. -/
def recordsOfKind (table : WellKnown) (file : SourceFile) : CallKind → List UsageRecord
  | .logMethod => LogCall.records table file
  | .messageAttribute => MessageMethod.records table file
  | .messageDefine => MessageFactory.records table file
  | .beginScope => Scope.records table file

theorem kind_of_mem_recordsOfKind {table : WellKnown} {file : SourceFile} {kind : CallKind}
    {record : UsageRecord} (hmem : record ∈ recordsOfKind table file kind) :
    record.kind = kind := by
  cases kind with
  | logMethod =>
    obtain ⟨site, -, hsite⟩ := List.mem_filterMap.mp hmem
    exact (LogCall.of_record? hsite).1.kind_eq
  | messageAttribute =>
    obtain ⟨declaration, -, hdeclared⟩ := List.mem_filterMap.mp hmem
    exact (MessageMethod.of_record? hdeclared).1.kind_eq
  | messageDefine =>
    obtain ⟨site, -, hsite⟩ := List.mem_filterMap.mp hmem
    exact (MessageFactory.of_record? hsite).1.kind_eq
  | beginScope =>
    obtain ⟨site, -, hsite⟩ := List.mem_filterMap.mp hmem
    exact (Scope.of_record? hsite).1.kind_eq

theorem analyzeFile_eq_flatMap (table : WellKnown) (file : SourceFile) :
    analyzeFile Analyzer.all table file = CallKind.all.flatMap (recordsOfKind table file) := by
  simp only [analyzeFile_all, CallKind.all, List.flatMap_cons, List.flatMap_nil, List.append_nil,
    List.append_assoc, recordsOfKind]

/-- No analyzer makes records of another one's kind. -/
theorem filter_kind_recordsOfKind (table : WellKnown) (file : SourceFile) (kind kind' : CallKind) :
    (recordsOfKind table file kind').filter (fun record => record.kind = kind) =
      if kind' = kind then recordsOfKind table file kind' else [] := by
  split
  · next heq =>
    apply List.filter_eq_self.mpr
    intro record hmem
    simp [kind_of_mem_recordsOfKind hmem, heq]
  · next hne =>
    apply List.filter_eq_nil_iff.mpr
    intro record hmem
    simp [kind_of_mem_recordsOfKind hmem, hne]

/-- Filtering by the kind gives the records of the analyzer for that kind. -/
theorem filter_kind_analyzeFile (table : WellKnown) (file : SourceFile) (kind : CallKind) :
    (analyzeFile Analyzer.all table file).filter (fun record => record.kind = kind) =
      recordsOfKind table file kind := by
  rw [analyzeFile_eq_flatMap]
  simp only [CallKind.all, List.flatMap_cons, List.flatMap_nil, List.filter_append,
    filter_kind_recordsOfKind, List.append_nil]
  cases kind <;> simp

/-! ## One record for each -/

/-- What a partial function makes of a list, one for each element on which it is defined. -/
theorem forall₂_filterMap {α β : Type} {f : α → Option β} {test : α → Bool} {related : α → β → Prop}
    (htest : ∀ a, (f a).isSome = test a) (hrelated : ∀ a b, f a = some b → related a b)
    (list : List α) : List.Forall₂ related (list.filter test) (list.filterMap f) := by
  induction list with
  | nil => exact .nil
  | cons a list ih =>
    have ha := htest a
    cases hfa : f a with
    | none =>
      rw [hfa, Option.isSome_none] at ha
      rw [List.filter_cons_of_neg (by simp [← ha]), List.filterMap_cons_none hfa]
      exact ih
    | some b =>
      rw [hfa, Option.isSome_some] at ha
      rw [List.filter_cons_of_pos ha.symm, List.filterMap_cons_some hfa]
      exact .cons (hrelated a b hfa) ih

/-- The records of a kind describe its calls, one for each and in their order. -/
theorem forall₂_recordsOfKind (compilation : Compilation) (file : SourceFile) {kind : CallKind}
    (hkind : kind ≠ .messageAttribute) :
    List.Forall₂ (fun (site : CallSite) record =>
        record.Describes kind site.invocation.method (.ofSpan file.path site.span))
      (file.callSites.filter fun site =>
        compilation.recognizes kind site.invocation.method.definition)
      (recordsOfKind (WellKnown.resolve compilation) file kind) := by
  cases kind with
  | logMethod =>
    exact forall₂_filterMap (LogCall.isSome_record? compilation file.path)
      (fun _ _ hrecord => (LogCall.of_record? hrecord).1) file.callSites
  | messageAttribute => exact absurd rfl hkind
  | messageDefine =>
    exact forall₂_filterMap (MessageFactory.isSome_record? compilation file.path)
      (fun _ _ hrecord => (MessageFactory.of_record? hrecord).1) file.callSites
  | beginScope =>
    exact forall₂_filterMap (Scope.isSome_record? compilation file.path)
      (fun _ _ hrecord => (Scope.of_record? hrecord).1) file.callSites

/-- The records of declarations describe those with the message attribute, in their order. -/
theorem forall₂_messageMethods (compilation : Compilation) (file : SourceFile) :
    List.Forall₂ (fun (declaration : MethodDeclaration) record =>
        record.Describes .messageAttribute declaration.method
          (.ofSpan file.path declaration.span))
      (file.methods.filter compilation.hasMessageAttribute)
      (recordsOfKind (WellKnown.resolve compilation) file .messageAttribute) :=
  forall₂_filterMap (MessageMethod.isSome_record? compilation file.path)
    (fun _ _ hrecord => (MessageMethod.of_record? hrecord).1) file.methods

theorem length_filter_or {α : Type} {p q : α → Bool} (hdisjoint : ∀ a, p a = true → q a = false)
    (list : List α) :
    (list.filter fun a => p a || q a).length = (list.filter p).length + (list.filter q).length := by
  induction list with
  | nil => rfl
  | cons a list ih =>
    cases hp : p a with
    | true =>
      have hq := hdisjoint a hp
      simp only [List.filter_cons, hp, hq, Bool.true_or, if_true, Bool.false_eq_true, if_false,
        List.length_cons, ih]
      omega
    | false =>
      cases hq : q a with
      | true =>
        simp only [List.filter_cons, hp, hq, Bool.or_true, if_true, Bool.false_eq_true, if_false,
          List.length_cons, ih]
        omega
      | false => simpa [hp, hq] using ih

/-- Whether a call is recognised as a call of any kind. -/
def Compilation.recognizesCall (compilation : Compilation) (site : CallSite) : Bool :=
  CallKind.all.any fun kind => compilation.recognizes kind site.invocation.method.definition

/-- No call is counted for two kinds. -/
theorem Compilation.Unambiguous.length_recognized {compilation : Compilation}
    (h : compilation.Unambiguous) (sites : List CallSite) :
    (sites.filter compilation.recognizesCall).length =
      (sites.filter fun site =>
        compilation.recognizes .logMethod site.invocation.method.definition).length +
      (sites.filter fun site =>
        compilation.recognizes .messageDefine site.invocation.method.definition).length +
      (sites.filter fun site =>
        compilation.recognizes .beginScope site.invocation.method.definition).length := by
  -- a call of one kind is none of another, so the lengths of the filters add up
  have hapart : ∀ {kind kind' : CallKind} {id : SymbolId}, kind ≠ kind' →
      compilation.recognizes kind id = true → compilation.recognizes kind' id = false := by
    intro kind kind' id hne hkind
    cases hkind' : compilation.recognizes kind' id with
    | false => rfl
    | true => exact absurd (h.kind_unique hkind hkind') hne
  -- declarations are no calls, so three kinds are left
  have hcall : compilation.recognizesCall = fun site : CallSite =>
      (compilation.recognizes .logMethod site.invocation.method.definition ||
        compilation.recognizes .messageDefine site.invocation.method.definition) ||
        compilation.recognizes .beginScope site.invocation.method.definition := by
    funext site
    simp [recognizesCall, CallKind.all, Bool.or_assoc, recognizes, recognizedMembers]
  rw [hcall, length_filter_or, length_filter_or]
  · intro site hsite
    exact hapart (by decide) hsite
  · intro site hsite
    rcases Bool.or_eq_true_iff.mp hsite with hlog | hdefine
    · exact hapart (by decide) hlog
    · exact hapart (by decide) hdefine

/-- Each logging call is reported exactly once: the records of a kind describe the calls of the
methods of that kind, and those of declarations the declarations with the message attribute, one for
each and in their order; no method belongs to two kinds; and there are no other records. -/
theorem reported_exactly_once (compilation : Compilation) (hunambiguous : compilation.Unambiguous)
    (file : SourceFile) :
    let records := analyzeFile Analyzer.all (WellKnown.resolve compilation) file
    (∀ kind, kind ≠ .messageAttribute →
      List.Forall₂ (fun (site : CallSite) record =>
          record.Describes kind site.invocation.method (.ofSpan file.path site.span))
        (file.callSites.filter fun site =>
          compilation.recognizes kind site.invocation.method.definition)
        (records.filter fun record => record.kind = kind)) ∧
    List.Forall₂ (fun (declaration : MethodDeclaration) record =>
        record.Describes .messageAttribute declaration.method
          (.ofSpan file.path declaration.span))
      (file.methods.filter compilation.hasMessageAttribute)
      (records.filter fun record => record.kind = .messageAttribute) ∧
    (∀ site ∈ file.callSites, compilation.recognizesCall site = true →
      ∃! kind, compilation.recognizes kind site.invocation.method.definition = true) ∧
    records.length = (file.callSites.filter compilation.recognizesCall).length +
      (file.methods.filter compilation.hasMessageAttribute).length := by
  intro records
  refine ⟨?_, ?_, ?_, ?_⟩
  · intro kind hkind
    rw [filter_kind_analyzeFile]
    exact forall₂_recordsOfKind compilation file hkind
  · rw [filter_kind_analyzeFile]
    exact forall₂_messageMethods compilation file
  · intro site _ hsite
    obtain ⟨kind, -, hkind⟩ := List.any_eq_true.mp hsite
    exact ⟨kind, hkind, fun kind' hkind' => hunambiguous.kind_unique hkind' hkind⟩
  · -- the records are those of the four kinds, and each kind has as many as it describes
    have hcalls : ∀ kind, kind ≠ .messageAttribute →
        (recordsOfKind (WellKnown.resolve compilation) file kind).length =
          (file.callSites.filter fun site =>
            compilation.recognizes kind site.invocation.method.definition).length :=
      fun kind hkind => (forall₂_recordsOfKind compilation file hkind).length_eq.symm
    have hlength : records.length = _ :=
      congrArg List.length (analyzeFile_eq_flatMap (WellKnown.resolve compilation) file)
    simp only [CallKind.all, List.flatMap_cons, List.flatMap_nil, List.append_nil,
      List.length_append] at hlength
    rw [hlength, hunambiguous.length_recognized, hcalls .logMethod (by decide),
      hcalls .messageDefine (by decide), hcalls .beginScope (by decide),
      (forall₂_messageMethods compilation file).length_eq]
    omega

/-- A file with a log call, a scope, a call of no interest, and two declarations of which one has
the message attribute. -/
def smallFile : SourceFile where
  path := "User.cs"
  callSites :=
    [{ span := ⟨3, 3⟩
       invocation := { method := { symbol := ⟨21⟩, name := "LogInformation" } } },
     { span := ⟨5, 5⟩
       invocation :=
        { method := { symbol := ⟨90⟩, genericDefinition := some ⟨12⟩, name := "BeginScope" } } },
     { span := ⟨7, 7⟩
       invocation := { method := { symbol := ⟨91⟩, name := "LogInformation" } } }]
  methods :=
    [{ span := ⟨10, 12⟩, method := { symbol := ⟨41⟩, name := "UserFound" }
       attributes := [{ type := ⟨4⟩ }, { type := ⟨4⟩ }] },
     { span := ⟨14, 15⟩, method := { symbol := ⟨42⟩, name := "UserLost" } }]

theorem reported_exactly_once_smallFile :
    smallCompilation.Unambiguous ∧
      (analyzeFile Analyzer.all (WellKnown.resolve smallCompilation) smallFile).length = 3 := by
  have hunambiguous : smallCompilation.Unambiguous := ⟨by decide, by decide⟩
  refine ⟨hunambiguous, ?_⟩
  rw [(reported_exactly_once smallCompilation hunambiguous smallFile).2.2.2]
  decide

end LogCensus
