import LogCensus.SortedMap
import Mathlib.Data.List.Count

/-!
# Sorted maps as functions

A sorted map is fixed by the values of its keys, and an update changes the value of one key only.
Counting the items of a list in a sorted map therefore depends on how often each item occurs, and
not on the order of the items.

* `SortedMap.ext_get?`: maps with the same values are equal.
* `SortedMap.get?_update`: the values after an update.
* `SortedMap.get?_countAll`: the values after counting a list.
* `SortedMap.mapValues`: the map with every value changed.
* `mem_sortedDistinct`: the distinct items of a list are its items.
-/

namespace LogCensus

namespace SortedMap

variable {α β : Type} [Ord α]

theorem keys_ascending (map : SortedMap α β) :
    map.keys.Pairwise fun left right => compare left right = .lt :=
  List.pairwise_map.mpr map.ascending

/-! ## Changed values -/

section

variable {γ : Type}

/-- The map with every value changed. -/
def mapValues (f : β → γ) (map : SortedMap α β) : SortedMap α γ where
  entries := map.entries.map (Prod.map id f)
  ascending := List.pairwise_map.mpr map.ascending

theorem keys_mapValues (f : β → γ) (map : SortedMap α β) : (map.mapValues f).keys = map.keys := by
  simp only [keys, mapValues, List.map_map]
  rfl

theorem get?_mapValues (f : β → γ) (map : SortedMap α β) (key : α) :
    (map.mapValues f).get? key = (map.get? key).map f := by
  simp only [get?, mapValues]
  induction map.entries with
  | nil => rfl
  | cons entry entries ih =>
    obtain ⟨known, value⟩ := entry
    simp only [List.map_cons, Prod.map_apply, id_eq, lookup]
    cases compare key known with
    | lt => exact ih
    | eq => rfl
    | gt => exact ih

variable {f : β → γ} {start : β} {change : β → β} {start' : γ} {change' : γ → γ}

theorem map_updateEntries (hstart : f (change start) = change' start')
    (hchange : ∀ value, f (change value) = change' (f value)) (key : α) (entries : List (α × β)) :
    (updateEntries key start change entries).map (Prod.map id f) =
      updateEntries key start' change' (entries.map (Prod.map id f)) := by
  induction entries with
  | nil => simp [updateEntries, hstart]
  | cons entry entries ih =>
    obtain ⟨known, value⟩ := entry
    simp only [List.map_cons, Prod.map_apply, id_eq, updateEntries]
    cases compare key known with
    | lt => simp [hstart]
    | eq => simp [hchange]
    | gt => simp [ih]

/-- Updates of corresponding values go together. -/
theorem mapValues_update [Std.TransOrd α] (hstart : f (change start) = change' start')
    (hchange : ∀ value, f (change value) = change' (f value)) (map : SortedMap α β) (key : α) :
    (map.update key start change).mapValues f = (map.mapValues f).update key start' change' := by
  simp only [mapValues, update, map_updateEntries hstart hchange]

end

/-! ## Look-up -/

section

variable [Std.LawfulEqOrd α]

/-- A key does not stand below itself. -/
theorem ne_of_compare_eq_lt {left right : α} (hlt : compare left right = .lt) : left ≠ right := by
  rintro rfl
  rw [Std.ReflOrd.compare_self] at hlt
  exact nomatch hlt

theorem lookup_cons_self (key : α) (value : β) (rest : List (α × β)) :
    lookup key ((key, value) :: rest) = some value := by
  simp only [lookup, Std.ReflCmp.compare_self]

theorem lookup_cons_of_ne {key known : α} (hne : key ≠ known) (value : β) (rest : List (α × β)) :
    lookup key ((known, value) :: rest) = lookup key rest := by
  rw [lookup]
  split
  · next heq => exact absurd (Std.LawfulEqCmp.eq_of_compare heq) hne
  · rfl

/-- A key below all others has no value. -/
theorem lookup_eq_none_of_lt {key : α} {entries : List (α × β)}
    (hbelow : ∀ entry ∈ entries, compare key entry.1 = .lt) : lookup key entries = none := by
  induction entries with
  | nil => rfl
  | cons entry entries ih =>
    rw [lookup_cons_of_ne (ne_of_compare_eq_lt (hbelow entry List.mem_cons_self))]
    exact ih fun other hother => hbelow other (List.mem_cons_of_mem _ hother)

/-- The value of a key is the one that it is paired with. -/
theorem lookup_eq_some_iff {entries : List (α × β)} (hascending : Ascending entries) {key : α}
    {value : β} : lookup key entries = some value ↔ (key, value) ∈ entries := by
  induction entries with
  | nil => simp [lookup]
  | cons entry entries ih =>
    obtain ⟨known, first⟩ := entry
    obtain ⟨hbelow, hrest⟩ := List.pairwise_cons.mp hascending
    by_cases hkey : key = known
    · subst hkey
      -- no pair behind the first one has its key
      have hnone : (key, value) ∉ entries := fun hmem => ne_of_compare_eq_lt (hbelow _ hmem) rfl
      rw [lookup_cons_self, Option.some.injEq, List.mem_cons, Prod.mk.injEq]
      simp only [hnone, or_false, true_and]
      exact eq_comm
    · rw [lookup_cons_of_ne hkey, ih hrest, List.mem_cons, Prod.mk.injEq]
      simp only [hkey, false_and, false_or]

theorem mem_entries_iff (map : SortedMap α β) {key : α} {value : β} :
    (key, value) ∈ map.entries ↔ map.get? key = some value :=
  (lookup_eq_some_iff map.ascending).symm

/-! ## Keys -/

theorem nodup_keys (map : SortedMap α β) : map.keys.Nodup :=
  map.keys_ascending.imp fun hlt => ne_of_compare_eq_lt hlt

theorem mem_keys_iff (map : SortedMap α β) {key : α} :
    key ∈ map.keys ↔ ∃ value, map.get? key = some value := by
  rw [keys, List.mem_map]
  constructor
  · rintro ⟨⟨known, value⟩, hentry, rfl⟩
    exact ⟨value, map.mem_entries_iff.mp hentry⟩
  · rintro ⟨value, hvalue⟩
    exact ⟨(key, value), map.mem_entries_iff.mpr hvalue, rfl⟩

/-- A map with more than one key has two different keys. -/
theorem one_lt_size_iff (map : SortedMap α β) :
    1 < map.size ↔ ∃ key ∈ map.keys, ∃ other ∈ map.keys, key ≠ other := by
  have hsize : map.size = map.keys.length := (List.length_map _).symm
  have hnodup := map.nodup_keys
  rw [hsize]
  generalize map.keys = keys at hnodup
  match keys with
  | [] => simp
  | [only] => simp
  | first :: second :: rest =>
    have hne : first ≠ second := by
      rintro rfl
      exact (List.nodup_cons.mp hnodup).1 List.mem_cons_self
    refine iff_of_true (by simp) ⟨first, List.mem_cons_self, second, ?_, hne⟩
    exact List.mem_cons_of_mem _ List.mem_cons_self

/-! ## Updates -/

/-- An update leaves the values of other keys alone. -/
theorem lookup_updateEntries_of_ne {key other : α} (hne : other ≠ key) (start : β)
    (change : β → β) (entries : List (α × β)) :
    lookup other (updateEntries key start change entries) = lookup other entries := by
  induction entries with
  | nil => exact lookup_cons_of_ne hne _ _
  | cons entry entries ih =>
    obtain ⟨known, value⟩ := entry
    unfold updateEntries
    split
    · exact lookup_cons_of_ne hne _ _
    · next heq =>
      have hsame : key = known := Std.LawfulEqCmp.eq_of_compare heq
      subst hsame
      rw [lookup_cons_of_ne hne, lookup_cons_of_ne hne]
    · by_cases hother : other = known
      · subst hother
        rw [lookup_cons_self, lookup_cons_self]
      · rw [lookup_cons_of_ne hother, lookup_cons_of_ne hother, ih]

end

variable [Std.TransOrd α] [Std.LawfulEqOrd α]

theorem lookup_updateEntries_self {entries : List (α × β)} (hascending : Ascending entries)
    (key : α) (start : β) (change : β → β) :
    lookup key (updateEntries key start change entries) =
      some (change ((lookup key entries).getD start)) := by
  induction entries with
  | nil => exact lookup_cons_self _ _ _
  | cons entry entries ih =>
    obtain ⟨known, value⟩ := entry
    obtain ⟨hbelow, hrest⟩ := List.pairwise_cons.mp hascending
    unfold updateEntries
    split
    · next hlt =>
      -- the key is new, because it stands below the first key
      have hnew : lookup key ((known, value) :: entries) = none := by
        apply lookup_eq_none_of_lt
        intro entry hentry
        rcases List.mem_cons.mp hentry with rfl | hmem
        · exact hlt
        · exact Std.TransCmp.lt_trans hlt (hbelow entry hmem)
      rw [lookup_cons_self, hnew]
      rfl
    · next heq =>
      have hsame : key = known := Std.LawfulEqCmp.eq_of_compare heq
      subst hsame
      rw [lookup_cons_self, lookup_cons_self]
      rfl
    · next hgt =>
      have hne : key ≠ known := (ne_of_compare_eq_lt (Std.OrientedCmp.lt_of_gt hgt)).symm
      rw [lookup_cons_of_ne hne, lookup_cons_of_ne hne, ih hrest]

/-- An update changes the value of its own key, and of no other. -/
theorem get?_update [DecidableEq α] (map : SortedMap α β) (key : α) (start : β) (change : β → β)
    (other : α) :
    (map.update key start change).get? other =
      if other = key then some (change ((map.get? key).getD start)) else map.get? other := by
  split
  · next heq =>
    subst heq
    exact lookup_updateEntries_self map.ascending other start change
  · next hne => exact lookup_updateEntries_of_ne hne start change map.entries

/-! ## Maps with the same values -/

/-- Lists that ascend by a key are equal when they have the same items. -/
theorem eq_of_ascending {γ : Type} (key : γ → α) {left right : List γ}
    (hleft : left.Pairwise fun a b => compare (key a) (key b) = .lt)
    (hright : right.Pairwise fun a b => compare (key a) (key b) = .lt)
    (hsame : ∀ a, a ∈ left ↔ a ∈ right) : left = right := by
  have hne : ∀ a b, compare (key a) (key b) = .lt → a ≠ b :=
    fun a b hlt heq => ne_of_compare_eq_lt hlt (congrArg key heq)
  have hperm : left.Perm right :=
    (List.perm_ext_iff_of_nodup (hleft.imp (hne _ _)) (hright.imp (hne _ _))).mpr hsame
  apply hperm.eq_of_pairwise _ hleft hright
  intro a b _ _ hlt hgt
  rw [Std.OrientedCmp.gt_of_lt hlt] at hgt
  exact nomatch hgt

/-- Maps with the same values are equal. -/
theorem ext_get? {map map' : SortedMap α β} (h : ∀ key, map.get? key = map'.get? key) :
    map = map' := by
  have hentries : map.entries = map'.entries := by
    apply eq_of_ascending Prod.fst map.ascending map'.ascending
    rintro ⟨key, value⟩
    rw [mem_entries_iff, mem_entries_iff, h]
  cases map
  cases map'
  cases hentries
  rfl

/-! ## Counting -/

/-- Counts the items of a list on top of the counts so far. -/
def countAll (counts : SortedMap α Nat) (items : List α) : SortedMap α Nat :=
  items.foldl (fun counts item => counts.update item 0 (· + 1)) counts

omit [Std.LawfulEqOrd α] in
theorem countAll_append (counts : SortedMap α Nat) (items items' : List α) :
    counts.countAll (items ++ items') = (counts.countAll items).countAll items' :=
  List.foldl_append

/-- After counting a list, its items have been counted as often as they occur, and the other counts
are what they were. -/
theorem get?_countAll [DecidableEq α] (counts : SortedMap α Nat) (items : List α) (item : α) :
    (counts.countAll items).get? item =
      if item ∈ items then some ((counts.get? item).getD 0 + items.count item)
      else counts.get? item := by
  induction items generalizing counts with
  | nil => rfl
  | cons first items ih =>
    show ((counts.update first 0 (· + 1)).countAll items).get? item = _
    simp only [ih, get?_update, List.count_cons, List.mem_cons]
    by_cases hfirst : item = first
    · subst hfirst
      by_cases hmem : item ∈ items
      · simp only [hmem, if_true, true_or, Option.getD_some, beq_self_eq_true]
        congr 1
        omega
      · simp only [hmem, if_true, if_false, true_or, List.count_eq_zero_of_not_mem hmem,
          beq_self_eq_true, Nat.zero_add]
    · have hother : (first == item) = false := beq_false_of_ne (Ne.symm hfirst)
      simp only [hfirst, false_or, if_false, hother, Bool.false_eq_true, Nat.add_zero]

theorem mem_keys_countAll (items : List α) (item : α) :
    item ∈ (empty.countAll items).keys ↔ item ∈ items := by
  classical
  rw [mem_keys_iff, get?_countAll]
  by_cases hitem : item ∈ items
  · simp only [hitem, if_true, Option.some.injEq, exists_eq']
  · rw [if_neg hitem]
    simp only [hitem, iff_false, not_exists]
    intro count hcount
    exact nomatch hcount

/-- The counts of two lists together are those of both lists, added key by key. -/
theorem get?_countAll_append (items items' : List α) (item : α) :
    (empty.countAll (items ++ items')).get? item =
      Option.merge (· + ·) ((empty.countAll items).get? item)
        ((empty.countAll items').get? item) := by
  classical
  have hnone : (empty : SortedMap α Nat).get? item = none := rfl
  simp only [get?_countAll, List.mem_append, List.count_append, hnone, Option.getD_none,
    Nat.zero_add]
  by_cases hfirst : item ∈ items
  · by_cases hsecond : item ∈ items'
    · simp only [hfirst, hsecond, or_self, if_true, Option.merge]
    · simp only [hfirst, hsecond, or_false, if_true, if_false, Option.merge,
        List.count_eq_zero_of_not_mem, not_false_eq_true, Nat.add_zero]
  · by_cases hsecond : item ∈ items'
    · simp only [hfirst, hsecond, or_true, if_true, if_false, Option.merge,
        List.count_eq_zero_of_not_mem, not_false_eq_true, Nat.zero_add]
    · simp only [hfirst, hsecond, or_self, if_false, Option.merge]

omit [Std.TransOrd α] [Std.LawfulEqOrd α] in
/-- Counting one item adds one to all counts together. -/
theorem total_updateEntries (item : α) (entries : List (α × Nat)) :
    ((updateEntries item 0 (· + 1) entries).map Prod.snd).foldr (· + ·) 0 =
      (entries.map Prod.snd).foldr (· + ·) 0 + 1 := by
  induction entries with
  | nil => rfl
  | cons entry entries ih =>
    obtain ⟨known, count⟩ := entry
    unfold updateEntries
    split
    · rw [List.map_cons, List.foldr_cons]
      omega
    · rw [List.map_cons, List.map_cons, List.foldr_cons, List.foldr_cons]
      omega
    · rw [List.map_cons, List.map_cons, List.foldr_cons, List.foldr_cons, ih]
      omega

omit [Std.LawfulEqOrd α] in
/-- All counts together say how many items were counted. -/
theorem total_countAll (counts : SortedMap α Nat) (items : List α) :
    (counts.countAll items).values.foldr (· + ·) 0 =
      counts.values.foldr (· + ·) 0 + items.length := by
  induction items generalizing counts with
  | nil => rfl
  | cons item items ih =>
    have hfirst : (counts.update item 0 (· + 1)).values.foldr (· + ·) 0 =
        counts.values.foldr (· + ·) 0 + 1 :=
      total_updateEntries item counts.entries
    show ((counts.update item 0 (· + 1)).countAll items).values.foldr (· + ·) 0 = _
    rw [ih, hfirst, List.length_cons]
    omega

/-- Counting does not depend on the order of the items. -/
theorem countAll_perm (counts : SortedMap α Nat) {items items' : List α}
    (hperm : items.Perm items') : counts.countAll items = counts.countAll items' := by
  classical
  apply ext_get?
  intro item
  simp only [get?_countAll, hperm.mem_iff, hperm.count_eq]

/-! ## Distinct items -/

/-- An update adds its own key. -/
theorem mem_keys_update (map : SortedMap α β) (key : α) (start : β) (change : β → β) (other : α) :
    other ∈ (map.update key start change).keys ↔ other = key ∨ other ∈ map.keys := by
  classical
  rw [mem_keys_iff, mem_keys_iff, get?_update]
  by_cases hother : other = key
  · simp only [hother, if_true, Option.some.injEq, exists_eq', true_or]
  · simp only [hother, if_false, false_or]

theorem mem_keys_foldl_update (map : SortedMap α Unit) (items : List α) (item : α) :
    item ∈ (items.foldl (fun found item => found.update item () id) map).keys ↔
      item ∈ map.keys ∨ item ∈ items := by
  induction items generalizing map with
  | nil => simp
  | cons first items ih =>
    rw [List.foldl_cons, ih, mem_keys_update, List.mem_cons]
    tauto

end SortedMap

variable {α : Type} [Ord α] [Std.TransOrd α]

theorem sortedDistinct_ascending (items : List α) :
    (sortedDistinct items).Pairwise fun left right => compare left right = .lt :=
  SortedMap.keys_ascending _

theorem mem_sortedDistinct [Std.LawfulEqOrd α] (items : List α) (item : α) :
    item ∈ sortedDistinct items ↔ item ∈ items := by
  rw [sortedDistinct, SortedMap.mem_keys_foldl_update]
  exact or_iff_right List.not_mem_nil

/-- The items counted in two lists together are those counted in one of them. -/
theorem SortedMap.keys_countAll_append [Std.LawfulEqOrd α] (items items' : List α) :
    (empty.countAll (items ++ items')).keys =
      sortedDistinct ((empty.countAll items).keys ++ (empty.countAll items').keys) := by
  apply eq_of_ascending id (keys_ascending _) (sortedDistinct_ascending _)
  intro item
  simp only [mem_keys_countAll, mem_sortedDistinct, List.mem_append]

end LogCensus
