import LogCensus.Census
import Mathlib.Data.Prod.Lex
import Mathlib.Data.String.Basic

/-!
# The order of records

Records are sorted by a key: the path of the file, the first line, the last line, the kind of the
call and the name of the method. Records with the same key keep the order in which they were found.
These two properties leave no choice.

* `StableSortOf`: what it is for a list to be the stable sort of another one.
* `StableSortOf.unique`: a list has one stable sort.
* `sortRecords_stable`: the records of a run are in that order.
* `sortRecords_eq_iff`: when two lists of records come out the same.
-/

namespace LogCensus

section

variable {α κ : Type} [LinearOrder κ]

/-- The stable sort of a list by a key: the keys ascend, and the items of each key are those of the
list, in the same order. -/
structure StableSortOf (key : α → κ) (input output : List α) : Prop where
  ordered : output.Pairwise fun left right => key left ≤ key right
  stable : ∀ k, output.filter (fun item => key item = k) = input.filter (fun item => key item = k)

namespace StableSortOf

/-- Lists with the same items for each key have the same items. -/
theorem mem_iff {key : α → κ} {input output : List α}
    (hstable : ∀ k, output.filter (fun item => key item = k) =
      input.filter (fun item => key item = k)) (item : α) : item ∈ output ↔ item ∈ input := by
  have hmem : item ∈ output.filter (fun other => key other = key item) ↔
      item ∈ input.filter (fun other => key other = key item) := by
    rw [hstable]
  simpa using hmem

/-- Two ascending lists with the same items for each key, in the same order, are equal. -/
theorem eq_of_ordered {key : α → κ} {left right : List α}
    (hleft : left.Pairwise fun a b => key a ≤ key b)
    (hright : right.Pairwise fun a b => key a ≤ key b)
    (hsame : ∀ k, left.filter (fun item => key item = k) =
      right.filter (fun item => key item = k)) : left = right := by
  induction left generalizing right with
  | nil =>
    symm
    rw [List.eq_nil_iff_forall_not_mem]
    intro item hitem
    exact List.not_mem_nil ((mem_iff hsame item).mpr hitem)
  | cons a left ih =>
    cases right with
    | nil => exact absurd ((mem_iff hsame a).mp List.mem_cons_self) List.not_mem_nil
    | cons b right =>
      obtain ⟨hafirst, hleftRest⟩ := List.pairwise_cons.mp hleft
      obtain ⟨hbfirst, hrightRest⟩ := List.pairwise_cons.mp hright
      -- each of the two heads occurs in the other list, so their keys are equal
      have hkey : key a = key b := by
        apply le_antisymm
        · rcases List.mem_cons.mp ((mem_iff hsame b).mpr List.mem_cons_self) with heq | hmem
          · rw [heq]
          · exact hafirst b hmem
        · rcases List.mem_cons.mp ((mem_iff hsame a).mp List.mem_cons_self) with heq | hmem
          · rw [heq]
          · exact hbfirst a hmem
      have hhead : a = b := by
        have hfilter := hsame (key a)
        rw [List.filter_cons_of_pos (by simp), List.filter_cons_of_pos (by simp [hkey])] at hfilter
        exact (List.cons.inj hfilter).1
      subst hhead
      refine congrArg (a :: ·) (ih hleftRest hrightRest fun k => ?_)
      have hfilter := hsame k
      by_cases hk : key a = k
      · rw [List.filter_cons_of_pos (by simpa using hk),
          List.filter_cons_of_pos (by simpa using hk)] at hfilter
        exact (List.cons.inj hfilter).2
      · rwa [List.filter_cons_of_neg (by simpa using hk),
          List.filter_cons_of_neg (by simpa using hk)] at hfilter

/-- A list has one stable sort. -/
theorem unique {key : α → κ} {input output output' : List α}
    (h : StableSortOf key input output) (h' : StableSortOf key input output') :
    output = output' :=
  eq_of_ordered h.ordered h'.ordered fun k => (h.stable k).trans (h'.stable k).symm

/-- Merge sort gives the stable sort. -/
theorem of_mergeSort {key : α → κ} {le : α → α → Bool}
    (hle : ∀ left right, le left right = true ↔ key left ≤ key right) (input : List α) :
    StableSortOf key input (input.mergeSort le) := by
  have htrans : ∀ a b c, le a b = true → le b c = true → le a c = true := by
    intro a b c hab hbc
    rw [hle] at hab hbc ⊢
    exact hab.trans hbc
  have htotal : ∀ a b, (le a b || le b a) = true := by
    intro a b
    rw [Bool.or_eq_true, hle, hle]
    exact le_total (key a) (key b)
  constructor
  · exact (List.pairwise_mergeSort htrans htotal input).imp fun h => (hle _ _).mp h
  · intro k
    -- the items of one key ascend in any order, so sorting keeps them as a sublist
    have hordered : (input.filter fun item => key item = k).Pairwise fun a b => le a b = true := by
      rw [List.pairwise_filter]
      apply List.pairwise_of_forall
      intro a b ha hb
      rw [hle, of_decide_eq_true ha, of_decide_eq_true hb]
    have hkept := List.sublist_mergeSort htrans htotal hordered List.filter_sublist
    have hpart := hkept.filter fun item => decide (key item = k)
    simp only [List.filter_filter, Bool.and_self] at hpart
    symm
    apply hpart.eq_of_length
    exact ((List.mergeSort_perm input le).filter _).length_eq.symm

end StableSortOf

end

/-! ## The key of a record -/

/-- Kinds of call rank in this order. -/
theorem CallKind.rank_eq_idxOf (kind : CallKind) :
    kind.rank = [logMethod, messageAttribute, messageDefine, beginScope].idxOf kind := by
  cases kind <;> rfl

/-- The key that records are sorted by. -/
def UsageRecord.key (record : UsageRecord) : String ×ₗ Nat ×ₗ Nat ×ₗ Nat ×ₗ String :=
  toLex (record.location.filePath, toLex (record.location.startLine.toNat,
    toLex (record.location.endLine.toNat, toLex (record.kind.rank, record.methodName))))

theorem isLE_then_iff {α : Type} [LT α] [DecidableLT α] [DecidableEq α] (left right : α)
    (rest : Ordering) :
    ((compareOfLessAndEq left right).then rest).isLE = true ↔
      left < right ∨ left = right ∧ rest.isLE = true := by
  unfold compareOfLessAndEq
  split
  · next hlt => simp [hlt]
  · next hnot =>
    split
    · next heq =>
      subst heq
      simp [hnot]
    · next hne => simp [hnot, hne]

/-- The order of records is the order of their keys. -/
theorem UsageRecord.le_iff (left right : UsageRecord) :
    UsageRecord.le left right = true ↔ left.key ≤ right.key := by
  have hle : UsageRecord.le left right =
      ((compareOfLessAndEq left.location.filePath right.location.filePath).then
        ((compareOfLessAndEq left.location.startLine right.location.startLine).then
          (compareOfLessAndEq left.location.endLine right.location.endLine)) |>.then
        ((compareOfLessAndEq left.kind.rank right.kind.rank).then
          ((compareOfLessAndEq left.methodName right.methodName).then .eq))).isLE := by
    rw [Ordering.then_eq]
    rfl
  rw [hle]
  simp only [Ordering.then_assoc, isLE_then_iff, Ordering.isLE_eq, and_true,
    UInt64.lt_iff_toNat_lt, ← UInt64.toNat_inj, ← le_iff_lt_or_eq]
  simp only [key, Prod.Lex.toLex_le_toLex]

/-- The records of a run are in the stable order of their keys. -/
theorem sortRecords_stable (records : List UsageRecord) :
    StableSortOf UsageRecord.key records (sortRecords records) :=
  .of_mergeSort UsageRecord.le_iff records

/-- What the key of a record is made of. -/
abbrev UsageRecord.Key : Type :=
  String ×ₗ Nat ×ₗ Nat ×ₗ Nat ×ₗ String

/-- The records with a given key, in the order in which they were found. -/
def recordsWithKey (k : UsageRecord.Key) (records : List UsageRecord) : List UsageRecord :=
  records.filter fun record => record.key = k

theorem recordsWithKey_append (k : UsageRecord.Key) (left right : List UsageRecord) :
    recordsWithKey k (left ++ right) = recordsWithKey k left ++ recordsWithKey k right :=
  List.filter_append ..

theorem recordsWithKey_sortRecords (k : UsageRecord.Key) (records : List UsageRecord) :
    recordsWithKey k (sortRecords records) = recordsWithKey k records :=
  (sortRecords_stable records).stable k

/-- Two lists of records are sorted into the same list when, key by key, they have the same records
in the same order; how the keys are mixed does not matter. -/
theorem sortRecords_eq_iff {left right : List UsageRecord} :
    sortRecords left = sortRecords right ↔
      ∀ k, recordsWithKey k left = recordsWithKey k right := by
  constructor
  · intro h k
    rw [← recordsWithKey_sortRecords k left, h, recordsWithKey_sortRecords]
  · intro h
    apply StableSortOf.eq_of_ordered (sortRecords_stable left).ordered
      (sortRecords_stable right).ordered
    intro k
    exact ((sortRecords_stable left).stable k).trans
      ((h k).trans ((sortRecords_stable right).stable k).symm)

end LogCensus
