import LogCensus.Proofs.Presentation.Basic
import LogCensus.WellKnown

/-!
# Presented symbol tables

The well-known symbols of a compilation are found by the names of types and members, and everything
that is asked of them afterwards is whether two handles are equal. So the table of a presented
compilation is the presented table, and a presented type counts as what it counted as before.

* `WellKnown.resolve_present`: the table of a presented compilation.
* `WellKnown.isExactly_present`, `WellKnown.inherits_present`: the two tests that all others are
  made of.
-/

namespace LogCensus

variable (p : Presentation)

/-! ## Compilations -/

/-- A member as it is presented. -/
def MemberEntry.present (member : MemberEntry) : MemberEntry :=
  { member with id := p.handle member.id }

/-- A type of a compilation as it is presented. -/
def TypeEntry.present (entry : TypeEntry) : TypeEntry where
  metadataName := entry.metadataName
  id := p.handle entry.id
  members := entry.members.map (MemberEntry.present p)

/-- A symbol table as it is presented. -/
def Compilation.present (compilation : Compilation) : Compilation where
  types := compilation.types.map (TypeEntry.present p)
  index := compilation.index

theorem Compilation.entry?_present (compilation : Compilation) (metadataName : String) :
    entry? (compilation.present p) metadataName =
      (compilation.entry? metadataName).map (TypeEntry.present p) := by
  unfold entry? present
  cases compilation.index.lookup metadataName with
  | some position => exact List.getElem?_map
  | none => exact List.find?_map

theorem Compilation.typeNamed?_present (compilation : Compilation) (metadataName : String) :
    (compilation.present p).typeNamed? metadataName =
      (compilation.typeNamed? metadataName).map p.handle := by
  rw [typeNamed?, entry?_present, typeNamed?, Option.map_map, Option.map_map]
  rfl

theorem Compilation.members_present (compilation : Compilation) (type : SymbolId) (name : String) :
    (compilation.present p).members (p.handle type) name =
      (compilation.members type name).map p.handle := by
  have htest : (fun entry : TypeEntry => entry.id == p.handle type) ∘ TypeEntry.present p =
      fun entry => entry.id == type := by
    funext entry
    exact p.handle_beq entry.id type
  simp only [members, present, List.filter_map, htest, List.flatMap_map, List.filter_flatMap,
    List.map_flatMap]
  congr 1
  funext entry
  rw [TypeEntry.present, List.filter_map, List.map_map, List.map_map]
  rfl

/-! ## The table -/

/-- A log method of a table as it is presented. -/
def WellKnown.presentMethod (method : SymbolId × SeveritySource) : SymbolId × SeveritySource :=
  (p.handle method.1, method.2)

/-- A table of well-known symbols as it is presented. -/
def WellKnown.present (table : WellKnown) : WellKnown where
  logger := table.logger.map p.handle
  loggerOfT := table.loggerOfT.map p.handle
  loggerExtensions := table.loggerExtensions.map p.handle
  loggerMessage := table.loggerMessage.map p.handle
  loggerMessageAttribute := table.loggerMessageAttribute.map p.handle
  tagNameAttribute := table.tagNameAttribute.map p.handle
  logLevel := table.logLevel.map p.handle
  eventId := table.eventId.map p.handle
  exception := table.exception.map p.handle
  string := table.string.map p.handle
  keyValuePair := table.keyValuePair.map p.handle
  enumerableOfT := table.enumerableOfT.map p.handle
  logMethods := table.logMethods.map (presentMethod p)
  scopeMethods := table.scopeMethods.map p.handle
  scopeExtensionMethods := table.scopeExtensionMethods.map p.handle
  defineMethods := table.defineMethods.map p.handle
  defineScopeMethods := table.defineScopeMethods.map p.handle
  keyValuePairCreate := table.keyValuePairCreate.map p.handle

namespace WellKnown

theorem eraseDups_map_handle (ids : List SymbolId) :
    (ids.map p.handle).eraseDups = ids.eraseDups.map p.handle := by
  cases ids with
  | nil => rfl
  | cons id rest =>
    have htest : (fun later => !later == p.handle id) ∘ p.handle = fun later => !later == id := by
      funext later
      exact congrArg (!·) (p.handle_beq later id)
    rw [List.map_cons, List.eraseDups_cons, List.filter_map, htest, eraseDups_map_handle,
      List.eraseDups_cons, List.map_cons]
termination_by ids.length
decreasing_by exact Nat.lt_succ_of_le (List.length_filter_le ..)

theorem membersOf_present (compilation : Compilation) (type : Option SymbolId) (name : String) :
    membersOf (compilation.present p) (type.map p.handle) name =
      (membersOf compilation type name).map p.handle := by
  cases type with
  | none => rfl
  | some type => exact compilation.members_present p type name

theorem setSource_present (methods : List (SymbolId × SeveritySource)) (id : SymbolId)
    (source : SeveritySource) :
    setSource (methods.map (presentMethod p)) (p.handle id) source =
      (setSource methods id source).map (presentMethod p) := by
  have htest : (fun entry : SymbolId × SeveritySource => entry.1 != p.handle id) ∘ presentMethod p =
      fun entry => entry.1 != id := by
    funext entry
    exact congrArg (!·) (p.handle_beq entry.1 id)
  show _ :: (methods.map (presentMethod p)).filter (fun entry => entry.1 != p.handle id) = _
  rw [List.filter_map, htest]
  rfl

theorem foldl_setSource_present (ids : List SymbolId) (source : SeveritySource)
    (methods : List (SymbolId × SeveritySource)) :
    (ids.map p.handle).foldl (fun methods id => setSource methods id source)
        (methods.map (presentMethod p)) =
      (ids.foldl (fun methods id => setSource methods id source) methods).map
        (presentMethod p) := by
  induction ids generalizing methods with
  | nil => rfl
  | cons id ids ih => rw [List.map_cons, List.foldl_cons, setSource_present, ih, List.foldl_cons]

/-- The methods of the extension class are entered name by name. -/
theorem foldl_extensionMethods_present (compilation : Compilation) (extensions : Option SymbolId)
    (names : List String) (methods : List (SymbolId × SeveritySource)) :
    names.foldl (fun methods name =>
        (membersOf (compilation.present p) (extensions.map p.handle) name).foldl (fun methods id =>
          setSource methods id (severitySource name)) methods) (methods.map (presentMethod p)) =
      (names.foldl (fun methods name =>
        (membersOf compilation extensions name).foldl (fun methods id =>
          setSource methods id (severitySource name)) methods) methods).map (presentMethod p) := by
  induction names generalizing methods with
  | nil => rfl
  | cons name names ih =>
    rw [List.foldl_cons, membersOf_present, foldl_setSource_present, ih, List.foldl_cons]

theorem resolveLogMethods_present (compilation : Compilation)
    (logger extensions : Option SymbolId) :
    resolveLogMethods (compilation.present p) (logger.map p.handle) (extensions.map p.handle) =
      (resolveLogMethods compilation logger extensions).map (presentMethod p) := by
  have hown : ((membersOf compilation logger "Log").map p.handle).foldl (fun methods id =>
      setSource methods id .argument) [] = _ := foldl_setSource_present p _ .argument []
  rw [resolveLogMethods, membersOf_present, hown, foldl_extensionMethods_present]
  rfl

/-- The table of a presented compilation is the presented table. -/
theorem resolve_present (compilation : Compilation) :
    resolve (compilation.present p) = (resolve compilation).present p := by
  simp only [resolve, present, Compilation.typeNamed?_present, resolveLogMethods_present,
    membersOf_present, eraseDups_map_handle]

/-- A table holds handles and nothing else of what a presentation may change. -/
theorem present_of_handle_eq_id {p : Presentation} (hhandle : p.handle = id) (table : WellKnown) :
    table.present p = table := by
  have hmethod : presentMethod p = id := by
    funext method
    rw [presentMethod, hhandle]
    rfl
  simp only [present, hhandle, hmethod, Option.map_id, List.map_id, id_eq]

theorem severitySource?_present (table : WellKnown) (method : SymbolId) :
    (table.present p).severitySource? (p.handle method) = table.severitySource? method := by
  show (table.logMethods.map (presentMethod p)).lookup (p.handle method) = _
  unfold severitySource?
  induction table.logMethods with
  | nil => rfl
  | cons entry methods ih =>
    rw [List.map_cons, presentMethod, List.lookup_cons, ih, p.handle_beq, ← List.lookup_cons]

theorem contains_map_handle (ids : List SymbolId) (id : SymbolId) :
    (ids.map p.handle).contains (p.handle id) = ids.contains id := by
  rw [Bool.eq_iff_iff, List.contains_iff_mem, List.contains_iff_mem, List.mem_map]
  simp only [p.handle_eq_iff, exists_eq_right]

end WellKnown

/-- A call is recognised by the handle of its method. -/
theorem Invocation.contains_definition_present (call : Invocation) (methods : List SymbolId) :
    (methods.map p.handle).contains (call.present p).method.definition =
      methods.contains call.method.definition := by
  rw [method_present, MethodRef.definition_present, WellKnown.contains_map_handle]

/-! ## What a presented type counts as -/

namespace WellKnown

variable (table : WellKnown) (type : TypeRef)

theorem isOrInherits_present (symbol : SymbolId) :
    (type.present p).isOrInherits (p.handle symbol) = type.isOrInherits symbol := by
  have hsymbol : ∀ found : Option SymbolId,
      (found.map p.handle == some (p.handle symbol)) = (found == some symbol) := by
    intro found
    exact p.map_handle_beq found (some symbol)
  simp only [TypeRef.isOrInherits, TypeRef.symbol_present, TypeRef.baseTypes_present,
    TypeRef.interfaces_present, contains_map_handle, List.any_map, hsymbol]
  congr 2
  funext interface
  rw [Function.comp_apply, TypeRef.symbol_present, hsymbol]

@[simp] theorem inherits_present (symbol : Option SymbolId) :
    inherits (type.present p) (symbol.map p.handle) = inherits type symbol := by
  cases symbol with
  | none => rfl
  | some symbol => exact isOrInherits_present p type symbol

@[simp] theorem isExactly_present (symbol : Option SymbolId) :
    isExactly (type.present p) (symbol.map p.handle) = isExactly type symbol := by
  rw [isExactly, isExactly, TypeRef.symbol_present, Option.isSome_map, p.map_handle_beq]

@[simp] theorem isLogger_present :
    (table.present p).isLogger (type.present p) = table.isLogger type := by
  simp [isLogger, present]

@[simp] theorem isLogLevel_present :
    (table.present p).isLogLevel (type.present p) = table.isLogLevel type :=
  isExactly_present p type table.logLevel

@[simp] theorem isEventId_present :
    (table.present p).isEventId (type.present p) = table.isEventId type :=
  isExactly_present p type table.eventId

@[simp] theorem isException_present :
    (table.present p).isException (type.present p) = table.isException type :=
  inherits_present p type table.exception

@[simp] theorem isString_present :
    (table.present p).isString (type.present p) = table.isString type :=
  isExactly_present p type table.string

@[simp] theorem isStringPair_present :
    (table.present p).isStringPair (type.present p) = table.isStringPair type := by
  have hpair : isExactly (type.present p) (table.present p).keyValuePair = _ :=
    isExactly_present p type table.keyValuePair
  simp only [isStringPair, hpair, TypeRef.typeArguments_present, List.head?_map, Option.any_map,
    isString_present]

@[simp] theorem isKeyValueCollection_present :
    (table.present p).isKeyValueCollection (type.present p) = table.isKeyValueCollection type := by
  have henumerable : ∀ candidate : TypeRef,
      isExactly (candidate.present p) (table.present p).enumerableOfT = _ :=
    fun candidate => isExactly_present p candidate table.enumerableOfT
  have hcandidates : (type.present p).selfAndInterfaces =
      type.selfAndInterfaces.map (TypeRef.present p) := by
    rw [TypeRef.selfAndInterfaces, TypeRef.interfaces_present]
    rfl
  simp only [isKeyValueCollection, hcandidates, henumerable, TypeRef.elementType_present,
    TypeRef.typeArguments_present, Option.any_map, List.any_map, List.head?_map,
    Function.comp_def, isStringPair_present]

end WellKnown

end LogCensus
