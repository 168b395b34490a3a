import LogCensus.Proofs.Extraction.TagNames
import Mathlib.Data.List.Forall2

/-!
# Placeholders and formal parameters

A declared message method gives its formal parameters to the placeholders of its template: first by
name, then by position, and what is left is appended. Neither pass loses a parameter or uses one
twice, and a gap never takes a parameter that a placeholder names.

* `assign`: the slots of the placeholders after both passes.
* `extract_permutes`: every message parameter comes out once, and success is a matter of numbers.
* `matchNames_slot_iff`: the pass by name serves the first placeholder that names a parameter.
* `extract_prefers_names`: where each parameter stands when nothing is missing or left.
-/

namespace LogCensus.MethodSignature

variable {placeholder : String} {placeholders : List String} {table : WellKnown}
  {method : MethodRef} {parameter found : ParameterSymbol}
  {parameters others left chosen : List ParameterSymbol} {slots : List (Option ParameterSymbol)}

/-- The formal parameters that carry values of the message, in the order of the signature. -/
def messageParameters (table : WellKnown) (method : MethodRef) : List ParameterSymbol :=
  method.parameters.filter fun parameter =>
    !(table.isLogger parameter.type || table.isLogLevel parameter.type ||
      table.isException parameter.type)

/-- The slots of the placeholders after both passes, and the parameters that are left. -/
def assign (placeholders : List String) (parameters : List ParameterSymbol) :
    List (Option ParameterSymbol) × List ParameterSymbol :=
  fillGaps (matchNames placeholders parameters).1 (matchNames placeholders parameters).2

theorem extract_eq (table : WellKnown) (method : MethodRef) (placeholders : List String) :
    extract table method placeholders =
      .found .methodSignature
        (((assign placeholders (messageParameters table method)).1.filterMap id ++
          (assign placeholders (messageParameters table method)).2).map (toParameter table))
        ((assign placeholders (messageParameters table method)).1.all Option.isSome &&
          (assign placeholders (messageParameters table method)).2.isEmpty) :=
  rfl

/-! ## Slots -/

theorem length_matchNames (names : List String) (left : List ParameterSymbol) :
    (matchNames names left).1.length = names.length := by
  fun_induction matchNames names left with
  | case1 => rfl
  | case2 => simp_all
  | case3 => simp_all

theorem length_fillGaps (slots : List (Option ParameterSymbol)) (left : List ParameterSymbol) :
    (fillGaps slots left).1.length = slots.length := by
  fun_induction fillGaps slots left with
  | case1 => rfl
  | case2 => simp_all
  | case3 => simp_all
  | case4 => simp_all

theorem length_assign (placeholders : List String) (parameters : List ParameterSymbol) :
    (assign placeholders parameters).1.length = placeholders.length := by
  rw [assign, length_fillGaps, length_matchNames]

/-! ## Each parameter once -/

theorem takeNamed_perm (htaken : takeNamed placeholder parameters = some (found, others)) :
    parameters.Perm (found :: others) := by
  induction parameters generalizing others with
  | nil => cases htaken
  | cons parameter rest ih =>
    rw [takeNamed] at htaken
    split at htaken
    · cases htaken
      exact .refl _
    · obtain ⟨⟨_, passed⟩, hrest, heq⟩ := Option.map_eq_some_iff.mp htaken
      cases heq
      exact ((ih hrest).cons parameter).trans (.swap ..)

theorem matchNames_perm (placeholders : List String) (left : List ParameterSymbol) :
    ((matchNames placeholders left).1.filterMap id ++ (matchNames placeholders left).2).Perm
      left := by
  fun_induction matchNames placeholders left with
  | case1 left => exact .refl _
  | case2 left placeholder rest found others htaken slots remaining hrest ih =>
    rw [hrest] at ih
    exact (ih.cons found).trans (takeNamed_perm htaken).symm
  | case3 left placeholder rest htaken slots remaining hrest ih =>
    rw [hrest] at ih
    exact ih

theorem fillGaps_perm (slots : List (Option ParameterSymbol)) (left : List ParameterSymbol) :
    ((fillGaps slots left).1.filterMap id ++ (fillGaps slots left).2).Perm
      (slots.filterMap id ++ left) := by
  fun_induction fillGaps slots left with
  | case1 left => exact .refl _
  | case2 found rest left filled remaining hrest ih =>
    rw [hrest] at ih
    exact ih.cons found
  | case3 rest next left filled remaining hrest ih =>
    rw [hrest] at ih
    exact (ih.cons next).trans List.perm_middle.symm
  | case4 rest filled remaining hrest ih =>
    rw [hrest] at ih
    exact ih

theorem assign_perm (placeholders : List String) (parameters : List ParameterSymbol) :
    ((assign placeholders parameters).1.filterMap id ++ (assign placeholders parameters).2).Perm
      parameters :=
  (fillGaps_perm _ _).trans (matchNames_perm _ _)

/-! ## Success -/

/-- Without parameters left, every gap stays. -/
theorem fillGaps_nil (slots : List (Option ParameterSymbol)) : fillGaps slots [] = (slots, []) := by
  induction slots with
  | nil => rfl
  | cons slot rest ih => cases slot <;> simp only [fillGaps, ih]

/-- The pass by position stops only when the gaps or the parameters are used up. -/
theorem fillGaps_exhausts (slots : List (Option ParameterSymbol)) (left : List ParameterSymbol) :
    (fillGaps slots left).1.all Option.isSome = true ∨ (fillGaps slots left).2 = [] := by
  fun_induction fillGaps slots left with
  | case1 left => exact .inl rfl
  | case2 found rest left filled remaining hrest ih =>
    rw [hrest] at ih
    exact ih
  | case3 rest next left filled remaining hrest ih =>
    rw [hrest] at ih
    exact ih
  | case4 rest filled remaining hrest ih =>
    rw [fillGaps_nil] at hrest
    cases hrest
    exact .inr rfl

/-- Every slot is taken and no parameter is left exactly when there are as many parameters as
placeholders. -/
theorem assign_complete_iff (placeholders : List String) (parameters : List ParameterSymbol) :
    ((assign placeholders parameters).1.all Option.isSome = true ∧
      (assign placeholders parameters).2 = []) ↔ parameters.length = placeholders.length := by
  have htotal := (assign_perm placeholders parameters).length_eq
  have hslots := length_assign placeholders parameters
  have htaken : (assign placeholders parameters).1.all Option.isSome = true ↔
      ((assign placeholders parameters).1.filterMap id).length =
        (assign placeholders parameters).1.length := by
    rw [List.filterMap_length_eq_length, List.all_eq_true]
    rfl
  rw [List.length_append] at htotal
  constructor
  · rintro ⟨hfull, hleft⟩
    rw [htaken] at hfull
    rw [hleft, List.length_nil] at htotal
    omega
  · intro hlength
    rcases fillGaps_exhausts (matchNames placeholders parameters).1
      (matchNames placeholders parameters).2 with hfull | hleft
    · refine ⟨hfull, List.length_eq_zero_iff.mp ?_⟩
      have hcount := htaken.mp hfull
      omega
    · refine ⟨htaken.mpr ?_, hleft⟩
      have hnone : (assign placeholders parameters).2.length = 0 := congrArg List.length hleft
      omega

theorem success_iff (table : WellKnown) (method : MethodRef) (placeholders : List String) :
    (extract table method placeholders).success = true ↔
      (messageParameters table method).length = placeholders.length := by
  rw [← assign_complete_iff, extract_eq]
  simp only [Outcome.found, Bool.and_eq_true, List.isEmpty_iff]

/-- Matching loses and duplicates nothing: whether or not it succeeds, the formal parameters that
carry values come out in some order, each once, with its own name, type text and tag name. It
succeeds exactly when there are as many of them as placeholders. -/
theorem extract_permutes (table : WellKnown) (method : MethodRef) (placeholders : List String) :
    (∃ order : List ParameterSymbol, order.Perm (messageParameters table method) ∧
      List.Forall₂ (IsMadeFrom table) order (extract table method placeholders).parameters) ∧
      ((extract table method placeholders).success = true ↔
        (messageParameters table method).length = placeholders.length) := by
  refine ⟨⟨_, assign_perm placeholders (messageParameters table method), ?_⟩,
    success_iff table method placeholders⟩
  rw [extract_eq, Outcome.found, List.forall₂_map_right_iff]
  exact List.forall₂_same.mpr fun parameter _ => isMadeFrom_toParameter table parameter

/-- A signature with a logger and one value, which has a tag name. -/
def taggedSignature : MethodRef where
  symbol := ⟨31⟩
  name := "UserSeen"
  parameters :=
    [{ name := "logger", type := { symbol := some ⟨1⟩, display := "ILogger" } },
     { name := "user", type := { display := "" }
       attributes :=
        [{ type := ⟨7⟩
           constructorArguments := [{ name := "name", value := some (.string "no") }] },
         { type := ⟨8⟩
           constructorArguments := [{ name := "name", value := some (.string "user.id") }] }] }]

/-- The value has its tag name also when there are too many placeholders. -/
theorem extract_permutes_taggedSignature :
    let table : WellKnown := { logger := some ⟨1⟩, tagNameAttribute := some ⟨8⟩ }
    (extract table taggedSignature ["User", "Time"]).parameters =
        [⟨"user", "object", .methodParameter, some "user.id"⟩] ∧
      ¬ (extract table taggedSignature ["User", "Time"]).success = true := by
  intro table
  obtain ⟨⟨order, hperm, hmade⟩, hsuccess⟩ :=
    extract_permutes table taggedSignature ["User", "Time"]
  refine ⟨?_, hsuccess.not.mpr (by decide)⟩
  obtain rfl := List.perm_singleton.mp hperm
  obtain ⟨made, _, huser, hrest, hmade⟩ := List.forall₂_cons_left_iff.mp hmade
  obtain rfl := List.forall₂_nil_left_iff.mp hrest
  have htag : made.customTagName = some "user.id" := by
    refine (huser.tag_iff "user.id").mpr ⟨[_], _, [], ⟨"name", none, some (.string "user.id")⟩,
      rfl, rfl, by decide, ?_, rfl⟩
    exact .first (List.forall_mem_nil _) rfl (by decide)
  obtain ⟨name, type, kind, tag⟩ := made
  obtain ⟨rfl, rfl, rfl, -⟩ := huser
  rw [hmade, show tag = some "user.id" from htag]
  rfl

/-! ## Names first -/

/-- The position of the first placeholder that names a parameter. -/
def firstPosition? (placeholders : List String) (parameter : ParameterSymbol) : Option Nat :=
  placeholders.findIdx? fun placeholder => namesMatch placeholder parameter.name

/-- The positions of the placeholders that are not the first to name a parameter. -/
def openPositions (placeholders : List String) (parameters : List ParameterSymbol) : List Nat :=
  (List.range placeholders.length).filter fun position =>
    parameters.all fun parameter => firstPosition? placeholders parameter != some position

/-- No two parameters have one name, up to the case of ASCII letters and the mark of a verbatim
identifier. -/
def DistinctNames (parameters : List ParameterSymbol) : Prop :=
  parameters.Pairwise fun parameter other =>
    Text.eqIgnoringCase (withoutVerbatimMark parameter.name) (withoutVerbatimMark other.name) =
      false

instance : Decidable (DistinctNames parameters) :=
  inferInstanceAs (Decidable (List.Pairwise _ parameters))

namespace DistinctNames

theorem not_both (hdistinct : DistinctNames (parameter :: parameters))
    (hnamed : namesMatch placeholder parameter.name = true) :
    ∀ other ∈ parameters, namesMatch placeholder other.name = false := by
  intro other hother
  have hne := List.rel_of_pairwise_cons hdistinct hother
  rw [Bool.eq_false_iff] at hne ⊢
  intro hnamed'
  rw [namesMatch, Text.eqIgnoringCase_iff] at hnamed hnamed'
  exact hne (Text.eqIgnoringCase_iff.mpr (hnamed.symm.trans hnamed'))

theorem filter (hdistinct : DistinctNames parameters) (test : ParameterSymbol → Bool) :
    DistinctNames (parameters.filter test) :=
  List.Pairwise.filter test hdistinct

theorem perm (hdistinct : DistinctNames parameters) (hperm : parameters.Perm others) :
    DistinctNames others := by
  refine (hperm.pairwise_iff ?_).mp hdistinct
  intro parameter other hne
  rw [Bool.eq_false_iff, Ne, Text.eqIgnoringCase_iff] at hne ⊢
  exact fun heq => hne heq.symm

/-- A placeholder names at most one parameter. -/
theorem find?_eq_some_iff (hdistinct : DistinctNames parameters) :
    (parameters.find? fun other => namesMatch placeholder other.name) = some parameter ↔
      parameter ∈ parameters ∧ namesMatch placeholder parameter.name = true := by
  constructor
  · intro hfind
    have hnamed := List.find?_some hfind
    exact ⟨List.mem_of_find?_eq_some hfind, hnamed⟩
  · rintro ⟨hmem, hnamed⟩
    induction parameters with
    | nil => cases hmem
    | cons head rest ih =>
      rw [List.find?_cons]
      cases hhead : namesMatch placeholder head.name with
      | true =>
        rcases List.mem_cons.mp hmem with rfl | hrest
        · rfl
        · rw [hdistinct.not_both hhead parameter hrest] at hnamed
          cases hnamed
      | false =>
        rcases List.mem_cons.mp hmem with rfl | hrest
        · rw [hhead] at hnamed
          cases hnamed
        · exact ih (List.Pairwise.of_cons hdistinct) hrest

/-- Taking a named parameter leaves those with other names. -/
theorem takeNamed_eq (hdistinct : DistinctNames parameters) :
    takeNamed placeholder parameters =
      (parameters.find? fun other => namesMatch placeholder other.name).map fun found =>
        (found, parameters.filter fun other => !namesMatch placeholder other.name) := by
  induction parameters with
  | nil => rfl
  | cons head rest ih =>
    rw [takeNamed, List.find?_cons, List.filter_cons]
    cases hhead : namesMatch placeholder head.name with
    | true =>
      have hrest : (rest.filter fun other => !namesMatch placeholder other.name) = rest := by
        rw [List.filter_eq_self]
        intro other hother
        rw [hdistinct.not_both hhead other hother]
        rfl
      simp [hrest]
    | false =>
      rw [ih (List.Pairwise.of_cons hdistinct)]
      simp [Function.comp_def]

end DistinctNames

/-- The pass by name, one placeholder at a time: its slot holds the parameter that it names, and the
later placeholders see the parameters with other names. -/
theorem matchNames_cons (hdistinct : DistinctNames left) :
    matchNames (placeholder :: placeholders) left =
      let others := left.filter fun other => !namesMatch placeholder other.name
      ((left.find? fun other => namesMatch placeholder other.name) ::
        (matchNames placeholders others).1, (matchNames placeholders others).2) := by
  rw [matchNames, hdistinct.takeNamed_eq]
  cases hfind : left.find? fun other => namesMatch placeholder other.name with
  | some found => rfl
  | none =>
    have hall : (left.filter fun other => !namesMatch placeholder other.name) = left := by
      rw [List.filter_eq_self]
      intro other hother
      rw [Bool.not_eq_true', Bool.eq_false_iff]
      exact List.find?_eq_none.mp hfind other hother
    simp only [Option.map_none, hall]

/-- The pass by name leaves the parameters that no placeholder names. -/
theorem matchNames_left (hdistinct : DistinctNames left) :
    (matchNames placeholders left).2 =
      left.filter fun parameter => (firstPosition? placeholders parameter).isNone := by
  induction placeholders generalizing left with
  | nil =>
    rw [matchNames]
    exact (List.filter_eq_self.mpr fun _ _ => rfl).symm
  | cons placeholder rest ih =>
    rw [matchNames_cons hdistinct]
    simp only
    rw [ih (hdistinct.filter _), List.filter_filter]
    apply List.filter_congr
    intro parameter _
    simp only [firstPosition?, List.findIdx?_cons]
    cases namesMatch placeholder parameter.name <;> simp

/-- The pass by name puts each parameter that is named into the slot of the first placeholder that
names it, and nothing else into any slot. -/
theorem matchNames_slot_iff (hdistinct : DistinctNames left) {position : Nat} :
    (matchNames placeholders left).1[position]? = some (some parameter) ↔
      parameter ∈ left ∧ firstPosition? placeholders parameter = some position := by
  induction placeholders generalizing left position with
  | nil => simp [matchNames, firstPosition?]
  | cons placeholder rest ih =>
    rw [matchNames_cons hdistinct, firstPosition?, List.findIdx?_cons]
    cases position with
    | zero =>
      rw [List.getElem?_cons_zero, Option.some_inj, hdistinct.find?_eq_some_iff]
      cases namesMatch placeholder parameter.name <;> simp
    | succ position =>
      rw [List.getElem?_cons_succ, ih (hdistinct.filter _), List.mem_filter]
      cases namesMatch placeholder parameter.name <;> simp [firstPosition?]

/-! ## Gaps -/

/-- The pass by position keeps what the pass by name has put into a slot. -/
theorem fillGaps_keeps {position : Nat} (hslot : slots[position]? = some (some found)) :
    (fillGaps slots left).1[position]? = some (some found) := by
  fun_induction fillGaps slots left generalizing position with
  | case1 left => cases hslot
  | case2 held rest left filled remaining hrest ih =>
    cases position with
    | zero => exact hslot
    | succ position =>
      rw [hrest] at ih
      exact ih hslot
  | case3 rest next left filled remaining hrest ih =>
    cases position with
    | zero => cases hslot
    | succ position =>
      rw [hrest] at ih
      exact ih hslot
  | case4 rest filled remaining hrest ih =>
    cases position with
    | zero => cases hslot
    | succ position =>
      rw [hrest] at ih
      exact ih hslot

/-- The positions of the gaps. -/
def gaps (slots : List (Option ParameterSymbol)) : List Nat :=
  (List.range slots.length).filter fun position => slots[position]? == some none

theorem gaps_cons (slot : Option ParameterSymbol) (rest : List (Option ParameterSymbol)) :
    gaps (slot :: rest) = (if slot.isNone then [0] else []) ++ (gaps rest).map Nat.succ := by
  rw [gaps, List.length_cons, List.range_succ_eq_map, List.filter_cons, List.filter_map]
  cases slot <;> rfl

/-- When all gaps are filled and nothing is left, the gaps hold the parameters that were left, in
order. -/
theorem map_gaps (hfilled : fillGaps slots left = (chosen.map some, [])) :
    (gaps slots).map (chosen[·]?) = left.map some := by
  fun_induction fillGaps slots left generalizing chosen with
  | case1 left =>
    obtain ⟨-, rfl⟩ := Prod.mk.inj hfilled
    rfl
  | case2 held rest left filled remaining hrest ih =>
    rw [hrest] at ih
    obtain ⟨hslots, rfl⟩ := Prod.mk.inj hfilled
    obtain ⟨_, later, rfl, hheld, rfl⟩ := List.map_eq_cons_iff.mp hslots.symm
    rw [gaps_cons, List.map_append, List.map_map]
    exact ih rfl
  | case3 rest next left filled remaining hrest ih =>
    rw [hrest] at ih
    obtain ⟨hslots, rfl⟩ := Prod.mk.inj hfilled
    obtain ⟨first, later, rfl, hfirst, rfl⟩ := List.map_eq_cons_iff.mp hslots.symm
    rw [gaps_cons, List.map_append, List.map_map, List.map_cons, ← hfirst]
    exact congrArg (some first :: ·) (ih rfl)
  | case4 rest filled remaining hrest ih =>
    obtain ⟨hslots, -⟩ := Prod.mk.inj hfilled
    obtain ⟨_, _, _, hnone, _⟩ := List.map_eq_cons_iff.mp hslots.symm
    cases hnone

/-- The gaps that the pass by name leaves are the positions that no parameter is first named at. -/
theorem gaps_matchNames (hdistinct : DistinctNames left) :
    gaps (matchNames placeholders left).1 = openPositions placeholders left := by
  rw [gaps, openPositions, length_matchNames]
  apply List.filter_congr
  intro position hposition
  have hbound : position < (matchNames placeholders left).1.length := by
    rw [length_matchNames]
    exact List.mem_range.mp hposition
  rw [Bool.eq_iff_iff, beq_iff_eq, List.all_eq_true]
  constructor
  · intro hgap parameter hmem
    rw [bne_iff_ne]
    intro hfirst
    have hslot := (matchNames_slot_iff hdistinct).mpr ⟨hmem, hfirst⟩
    rw [hgap] at hslot
    cases hslot
  · intro hnone
    cases hslot : (matchNames placeholders left).1[position] with
    | none => rw [List.getElem?_eq_getElem hbound, hslot]
    | some found =>
      obtain ⟨hmem, hfirst⟩ := (matchNames_slot_iff hdistinct).mp
        ((List.getElem?_eq_getElem hbound).trans (congrArg some hslot))
      have hne := hnone found hmem
      rw [hfirst, bne_self_eq_false] at hne
      cases hne

/-- The slots that the pass by name fills do not depend on the order of the signature. -/
theorem matchNames_slots_perm (hdistinct : DistinctNames left) (hperm : left.Perm others) :
    (matchNames placeholders left).1 = (matchNames placeholders others).1 := by
  have hsame : ∀ (position : Nat) parameter,
      (matchNames placeholders left).1[position]? = some (some parameter) ↔
        (matchNames placeholders others).1[position]? = some (some parameter) := by
    intro position parameter
    rw [matchNames_slot_iff hdistinct, matchNames_slot_iff (hdistinct.perm hperm), hperm.mem_iff]
  apply List.ext_getElem
  · rw [length_matchNames, length_matchNames]
  · intro position hposition hposition'
    have hslot := hsame position
    rw [List.getElem?_eq_getElem hposition, List.getElem?_eq_getElem hposition'] at hslot
    apply Option.ext
    intro parameter
    simpa using hslot parameter

/-! ## Where the parameters stand -/

theorem eq_map_some_of_all (hfull : slots.all Option.isSome = true) :
    slots = (slots.filterMap id).map some := by
  induction slots with
  | nil => rfl
  | cons slot rest ih =>
    rw [List.all_cons, Bool.and_eq_true] at hfull
    obtain ⟨found, rfl⟩ := Option.isSome_iff_exists.mp hfull.1
    exact congrArg (some found :: ·) (ih hfull.2)

/-- A success gives every placeholder one parameter and leaves none. -/
theorem exists_chosen_of_success (hsuccess : (extract table method placeholders).success = true) :
    ∃ chosen : List ParameterSymbol,
      assign placeholders (messageParameters table method) = (chosen.map some, []) ∧
        (extract table method placeholders).parameters = chosen.map (toParameter table) := by
  rw [success_iff, ← assign_complete_iff] at hsuccess
  obtain ⟨hfull, hleft⟩ := hsuccess
  refine ⟨_, Prod.ext (eq_map_some_of_all hfull) hleft, ?_⟩
  rw [extract_eq]
  simp only [Outcome.found, hleft, List.append_nil]

/-- When every parameter is named, the outcome does not depend on the order of the signature. -/
theorem extract_perm_of_named (hdistinct : DistinctNames (messageParameters table method))
    (hnamed : ∀ parameter ∈ messageParameters table method,
      (firstPosition? placeholders parameter).isSome)
    {reordered : MethodRef} (hperm : reordered.parameters.Perm method.parameters) :
    extract table reordered placeholders = extract table method placeholders := by
  have hmessage : (messageParameters table method).Perm (messageParameters table reordered) :=
    (hperm.filter _).symm
  have hleft : ∀ {parameters : List ParameterSymbol}, DistinctNames parameters →
      (∀ parameter ∈ parameters, (firstPosition? placeholders parameter).isSome) →
      (matchNames placeholders parameters).2 = [] := by
    intro parameters hdistinct hnamed
    rw [matchNames_left hdistinct, List.filter_eq_nil_iff]
    intro parameter hmem hnone
    rw [Option.isNone_iff_eq_none] at hnone
    have hsome := hnamed parameter hmem
    rw [hnone] at hsome
    cases hsome
  have hassign : assign placeholders (messageParameters table reordered) =
      assign placeholders (messageParameters table method) := by
    rw [assign, assign, hleft hdistinct hnamed, hleft (hdistinct.perm hmessage) ?_,
      matchNames_slots_perm hdistinct hmessage]
    intro parameter hmem
    exact hnamed parameter (hmessage.mem_iff.mpr hmem)
  rw [extract_eq, extract_eq, hassign]

/-- Names win over positions. When no two message parameters share a name and extraction succeeds,
every parameter that is named stands at the position of the first placeholder that names it, and
the other positions hold the other parameters in the order of the signature. So, when every
parameter is named, the order of the signature makes no difference. -/
theorem extract_prefers_names (table : WellKnown) (method : MethodRef) (placeholders : List String)
    (hdistinct : DistinctNames (messageParameters table method))
    (hsuccess : (extract table method placeholders).success = true) :
    (∀ parameter ∈ messageParameters table method, ∀ position,
      firstPosition? placeholders parameter = some position →
        (extract table method placeholders).parameters[position]? =
          some (toParameter table parameter)) ∧
    (openPositions placeholders (messageParameters table method)).map
        ((extract table method placeholders).parameters[·]?) =
      ((messageParameters table method).filter fun parameter =>
        (firstPosition? placeholders parameter).isNone).map (some <| toParameter table ·) ∧
    ((∀ parameter ∈ messageParameters table method,
        (firstPosition? placeholders parameter).isSome) →
      ∀ reordered : MethodRef, reordered.parameters.Perm method.parameters →
        extract table reordered placeholders = extract table method placeholders) := by
  obtain ⟨chosen, hassign, hparameters⟩ := exists_chosen_of_success hsuccess
  refine ⟨?_, ?_, fun hnamed _ hperm => extract_perm_of_named hdistinct hnamed hperm⟩
  · intro parameter hmem position hfirst
    have hslot : (assign placeholders (messageParameters table method)).1[position]? =
        some (some parameter) :=
      fillGaps_keeps ((matchNames_slot_iff hdistinct).mpr ⟨hmem, hfirst⟩)
    rw [hassign, List.getElem?_map, Option.map_eq_some_iff] at hslot
    obtain ⟨_, hchosen, heq⟩ := hslot
    cases heq
    rw [hparameters, List.getElem?_map, hchosen, Option.map_some]
  · have hgaps := map_gaps hassign
    rw [gaps_matchNames hdistinct, matchNames_left hdistinct] at hgaps
    have hmapped := congrArg (List.map (Option.map (toParameter table))) hgaps
    rw [List.map_map, List.map_map] at hmapped
    simp only [hparameters, List.getElem?_map]
    exact hmapped

/-- A signature with a logger, and with names in another case, behind a mark, and of no
placeholder. -/
def mixedSignature : MethodRef where
  symbol := ⟨30⟩
  name := "UserActed"
  parameters :=
    [{ name := "logger", type := { symbol := some ⟨1⟩, display := "ILogger" } },
     { name := "count", type := { display := "int" } },
     { name := "userId", type := { display := "long" } },
     { name := "@event", type := { display := "string" } },
     { name := "extra", type := { display := "object" } }]

/-- Two placeholders name a parameter, one of them twice; the other two take what is left. -/
theorem extract_prefers_names_mixedSignature :
    let table : WellKnown := { logger := some ⟨1⟩ }
    let placeholders := ["Event", "0", "USERID", "event"]
    DistinctNames (messageParameters table mixedSignature) ∧
      (extract table mixedSignature placeholders).success = true ∧
      (messageParameters table mixedSignature).map (firstPosition? placeholders) =
        [none, some 2, some 0, none] ∧
      (openPositions placeholders (messageParameters table mixedSignature)).map
          ((extract table mixedSignature placeholders).parameters[·]?) =
        [some ⟨"count", "int", .methodParameter, none⟩,
         some ⟨"extra", "object", .methodParameter, none⟩] := by
  intro table placeholders
  have hdistinct : DistinctNames (messageParameters table mixedSignature) := by decide
  have hsuccess : (extract table mixedSignature placeholders).success = true := by decide
  obtain ⟨-, hopen, -⟩ := extract_prefers_names table mixedSignature placeholders hdistinct hsuccess
  refine ⟨hdistinct, hsuccess, by decide, hopen.trans ?_⟩
  decide

end LogCensus.MethodSignature
