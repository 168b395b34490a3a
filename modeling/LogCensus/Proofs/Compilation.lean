import LogCensus.WellKnown
import Mathlib.Data.List.Induction

/-!
# Look-up with and without an index

A metadata name may stand in a symbol table several times. The index is built by overwriting, so it
leads to the last entry with a name; without an index the table is searched from its start, which
leads to the first. The two look-ups differ in nothing else, and what is resolved by look-ups alone
is the same where they agree.

* `Compilation.entry?_rebuildIndex`, `Compilation.entry?_withoutIndex`: the entry that each finds.
* `WellKnown.resolve_congr`: the well-known symbols depend on thirteen names and on the members.
* `indexed_lookup_agrees_iff`: the tables for which an index makes no difference.
-/

namespace LogCensus

namespace Compilation

/-- The entries of a table with a metadata name, in their order. -/
def named (types : List TypeEntry) (metadataName : String) : List TypeEntry :=
  types.filter fun entry => entry.metadataName == metadataName

/-- The same table without an index. -/
def withoutIndex (compilation : Compilation) : Compilation :=
  { compilation with index := [] }

/-- For every metadata name, the first and the last entry carry the same handle. -/
def SameEnds (types : List TypeEntry) : Prop :=
  ∀ metadataName first last, (named types metadataName).head? = some first →
    (named types metadataName).getLast? = some last → first.id = last.id

section

variable {types : List TypeEntry} {metadataName : String}

theorem named_eq_nil_iff :
    named types metadataName = [] ↔ ∀ entry ∈ types, entry.metadataName ≠ metadataName := by
  simp only [named, List.filter_eq_nil_iff, beq_iff_eq, ne_eq]

theorem mem_named {entry : TypeEntry} :
    entry ∈ named types metadataName ↔ entry ∈ types ∧ entry.metadataName = metadataName := by
  rw [named, List.mem_filter, beq_iff_eq]

theorem named_concat (types : List TypeEntry) (entry : TypeEntry) (metadataName : String) :
    named (types ++ [entry]) metadataName =
      named types metadataName ++ if entry.metadataName = metadataName then [entry] else [] := by
  simp only [named, List.filter_append, List.filter_cons, List.filter_nil, beq_iff_eq]

/-- A table in which each name has one handle. -/
theorem sameEnds_of_unique
    (h : ∀ entry ∈ types, ∀ other ∈ types, entry.metadataName = other.metadataName →
      entry.id = other.id) : SameEnds types := by
  intro metadataName first last hfirst hlast
  obtain ⟨hfirst, hfirstName⟩ := mem_named.mp (List.mem_of_head? hfirst)
  obtain ⟨hlast, hlastName⟩ := mem_named.mp (List.mem_of_getLast? hlast)
  exact h first hfirst last hlast (hfirstName.trans hlastName.symm)

theorem sameEnds_iff :
    SameEnds types ↔ ∀ metadataName, (named types metadataName).getLast?.map TypeEntry.id =
      (named types metadataName).head?.map TypeEntry.id := by
  refine forall_congr' fun metadataName => ?_
  cases hnamed : named types metadataName with
  | nil => simp
  | cons first rest =>
    rw [List.head?_cons, List.getLast?_eq_some_getLast (List.cons_ne_nil first rest)]
    simp only [Option.some.injEq, Option.map_some]
    exact ⟨fun h => (h first _ rfl rfl).symm, by rintro h _ _ rfl rfl; exact h.symm⟩

/-! ## The index -/

/-- The position of the last type stands in front. -/
theorem indexOf_concat (types : List TypeEntry) (entry : TypeEntry) :
    indexOf (types ++ [entry]) = (entry.metadataName, types.length) :: indexOf types := by
  simp only [indexOf, List.zipIdx_append, List.foldl_append, Nat.zero_add, List.zipIdx_singleton,
    List.foldl_cons, List.foldl_nil]

/-- A name that is not in the index is not in the table. -/
theorem named_eq_nil_of_lookup_indexOf (h : (indexOf types).lookup metadataName = none) :
    named types metadataName = [] := by
  induction types using List.reverseRecOn with
  | nil => rfl
  | append_singleton types entry ih =>
    rw [indexOf_concat, List.lookup_cons] at h
    split at h
    · cases h
    · next hname =>
      rw [named_concat, ih h, if_neg (Ne.symm (beq_eq_false_iff_ne.mp hname)), List.append_nil]

/-- A name that is in the index leads to the last entry with that name. -/
theorem exists_getLast?_of_lookup_indexOf {position : Nat}
    (h : (indexOf types).lookup metadataName = some position) :
    ∃ entry, types[position]? = some entry ∧ (named types metadataName).getLast? = some entry := by
  induction types using List.reverseRecOn with
  | nil => cases h
  | append_singleton types last ih =>
    rw [indexOf_concat, List.lookup_cons] at h
    split at h
    · next hname =>
      -- the last entry of the table has the name, and its position overwrites all others
      obtain rfl := Option.some.inj h
      refine ⟨last, List.getElem?_concat_length, ?_⟩
      rw [named_concat, if_pos (eq_of_beq hname).symm, List.getLast?_concat]
    · next hname =>
      obtain ⟨entry, hposition, hlast⟩ := ih h
      refine ⟨entry, ?_, ?_⟩
      · rw [List.getElem?_append_left (List.getElem?_eq_some_iff.mp hposition).1, hposition]
      · rw [named_concat, if_neg (Ne.symm (beq_eq_false_iff_ne.mp hname)), List.append_nil, hlast]

end

/-! ## What is found -/

variable (compilation : Compilation) (metadataName : String)

/-- Without an index the first entry with a name is found. -/
theorem entry?_withoutIndex :
    compilation.withoutIndex.entry? metadataName = (named compilation.types metadataName).head? :=
  List.head?_filter.symm

/-- Through the index the last entry with a name is found. -/
theorem entry?_rebuildIndex :
    compilation.rebuildIndex.entry? metadataName =
      (named compilation.types metadataName).getLast? := by
  rw [rebuildIndex, entry?]
  cases hlookup : (indexOf compilation.types).lookup metadataName with
  | some position =>
    obtain ⟨entry, hposition, hlast⟩ := exists_getLast?_of_lookup_indexOf hlookup
    exact hposition.trans hlast.symm
  | none =>
    -- the search that follows finds nothing either
    have hnamed := named_eq_nil_of_lookup_indexOf hlookup
    rw [hnamed, List.getLast?_nil]
    exact List.find?_eq_none.mpr (List.filter_eq_nil_iff.mp hnamed)

end Compilation

/-! ## What is resolved -/

namespace WellKnown

/-- The metadata names that are looked up for a table of well-known symbols. -/
def resolvedNames : List String :=
  [loggerName, loggerOfTName, loggerExtensionsName, loggerMessageName, loggerMessageAttributeName,
   tagNameAttributeName, logLevelName, eventIdName, exceptionName, stringName, keyValuePairName,
   keyValuePairFactoryName, enumerableOfTName]

/-- Compilations that answer alike for the looked up names and for all members have the same
well-known symbols. -/
theorem resolve_congr {compilation other : Compilation}
    (hnames : ∀ name ∈ resolvedNames, compilation.typeNamed? name = other.typeNamed? name)
    (hmembers : ∀ type name, compilation.members type name = other.members type name) :
    resolve compilation = resolve other := by
  have hmembersOf (type : Option SymbolId) (name : String) :
      membersOf compilation type name = membersOf other type name := by
    cases type with
    | none => rfl
    | some type => exact hmembers type name
  simp only [resolvedNames, List.forall_mem_cons] at hnames
  simp only [resolve, resolveLogMethods, hmembersOf, hnames]

end WellKnown

open Compilation in
/-- For every table, the index leads to the last entry with a name and the search without it to the
first, and neither finds a name that is not there. So the two agree on all names exactly when the
first and the last entry with each name carry one handle, and then all well-known symbols are the
same. -/
theorem indexed_lookup_agrees_iff (compilation : Compilation) :
    (∀ name,
      compilation.rebuildIndex.typeNamed? name =
        (named compilation.types name).getLast?.map TypeEntry.id ∧
      compilation.withoutIndex.typeNamed? name =
        (named compilation.types name).head?.map TypeEntry.id ∧
      (compilation.rebuildIndex.typeNamed? name = none ↔
        ∀ entry ∈ compilation.types, entry.metadataName ≠ name) ∧
      (compilation.withoutIndex.typeNamed? name = none ↔
        ∀ entry ∈ compilation.types, entry.metadataName ≠ name)) ∧
    ((∀ name, compilation.rebuildIndex.typeNamed? name = compilation.withoutIndex.typeNamed? name) ↔
      SameEnds compilation.types) ∧
    (SameEnds compilation.types →
      WellKnown.resolve compilation.rebuildIndex = WellKnown.resolve compilation.withoutIndex) := by
  have hlast (name : String) : compilation.rebuildIndex.typeNamed? name =
      (named compilation.types name).getLast?.map TypeEntry.id := by
    rw [typeNamed?, entry?_rebuildIndex]
  have hfirst (name : String) : compilation.withoutIndex.typeNamed? name =
      (named compilation.types name).head?.map TypeEntry.id := by
    rw [typeNamed?, entry?_withoutIndex]
  have hagree : (∀ name, compilation.rebuildIndex.typeNamed? name =
      compilation.withoutIndex.typeNamed? name) ↔ SameEnds compilation.types := by
    simp only [hlast, hfirst]
    exact sameEnds_iff.symm
  refine ⟨fun name => ⟨hlast name, hfirst name, ?_, ?_⟩, hagree, fun hsame => ?_⟩
  · rw [hlast, Option.map_eq_none_iff, List.getLast?_eq_none_iff, named_eq_nil_iff]
  · rw [hfirst, Option.map_eq_none_iff, List.head?_eq_none_iff, named_eq_nil_iff]
  · exact WellKnown.resolve_congr (fun name _ => hagree.mpr hsame name) fun _ _ => rfl

/-- A table that two front ends filled: the logger stands in it twice, with one handle and different
members. -/
def loggerTwice : Compilation where
  types :=
    [⟨WellKnown.loggerName, ⟨1⟩, [⟨"Log", ⟨101⟩⟩]⟩, ⟨WellKnown.eventIdName, ⟨5⟩, []⟩,
     ⟨WellKnown.loggerName, ⟨1⟩, [⟨"BeginScope", ⟨102⟩⟩]⟩]

theorem indexed_lookup_agrees_loggerTwice :
    Compilation.SameEnds loggerTwice.types ∧
      WellKnown.resolve loggerTwice.rebuildIndex = WellKnown.resolve loggerTwice.withoutIndex ∧
      (WellKnown.resolve loggerTwice.rebuildIndex).scopeMethods = [⟨102⟩] := by
  have hsame : Compilation.SameEnds loggerTwice.types :=
    Compilation.sameEnds_of_unique (by decide)
  exact ⟨hsame, (indexed_lookup_agrees_iff loggerTwice).2.2 hsame, by decide +kernel⟩

/-- A name with two handles: the index leads to the last one, the search to the first. -/
example :
    let types : List TypeEntry := [⟨"App.User", ⟨3⟩, []⟩, ⟨"App.User", ⟨8⟩, []⟩]
    (Compilation.rebuildIndex ⟨types, []⟩).typeNamed? "App.User" = some ⟨8⟩ ∧
      (Compilation.withoutIndex ⟨types, []⟩).typeNamed? "App.User" = some ⟨3⟩ := by
  decide

end LogCensus
