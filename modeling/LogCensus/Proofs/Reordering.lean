import Mathlib.Data.List.Forall2
import Mathlib.Data.List.Nodup

/-!
# Lists in another order

A list is reordered when its items are put in another order and each item may itself be exchanged
for one that is the same up to an order: a project for one with its files in another order, a record
for one with its parameters in another order.

* `ReorderedBy`: another order of the items and of what is in them.
* `ReorderedBy.flatMap_perm`: what is gathered from all items is then in another order.
* `find?_eq_of_perm`: a search that at most one item answers.
* `filter_label_eq_of_perm`: a search for a label that no two items share.
-/

namespace LogCensus

variable {α β : Type}

/-- The same items in another order, each exchanged for a related one. -/
def ReorderedBy (related : α → α → Prop) (items items' : List α) : Prop :=
  ∃ between, items.Perm between ∧ List.Forall₂ related between items'

namespace ReorderedBy

variable {related : α → α → Prop} {items items' : List α} (h : ReorderedBy related items items')

include h

theorem flatMap_perm {f : α → List β} (hf : ∀ a a', related a a' → (f a).Perm (f a')) :
    (items.flatMap f).Perm (items'.flatMap f) := by
  obtain ⟨between, hperm, hrelated⟩ := h
  have hbetween : (items.flatMap f).Perm (between.flatMap f) := hperm.flatMap_right _
  refine hbetween.trans ?_
  clear hperm hbetween
  induction hrelated with
  | nil => exact .nil
  | cons hitem _ ih => exact (hf _ _ hitem).append ih

theorem map_perm {f : α → β} (hf : ∀ a a', related a a' → f a = f a') :
    (items.map f).Perm (items'.map f) := by
  rw [List.map_eq_flatMap, List.map_eq_flatMap]
  apply h.flatMap_perm
  intro a a' hrelated
  rw [hf a a' hrelated]

theorem length_eq : items.length = items'.length := by
  obtain ⟨between, hperm, hrelated⟩ := h
  exact hperm.length_eq.trans hrelated.length_eq

end ReorderedBy

/-- A list of at most one item has no other order. -/
theorem eq_of_perm_of_length_le_one {items items' : List α} (hperm : items.Perm items')
    (hone : items.length ≤ 1) : items = items' := by
  match items with
  | [] => exact hperm.nil_eq
  | [item] => exact List.singleton_perm.mp hperm
  | _ :: _ :: _ =>
    rw [List.length_cons, List.length_cons] at hone
    omega

/-- When at most one item passes a test, finding it does not depend on the order. -/
theorem find?_eq_of_perm {items items' : List α} (hperm : items.Perm items') {test : α → Bool}
    (hone : items.countP test ≤ 1) : items.find? test = items'.find? test := by
  have hpassing : items.filter test = items'.filter test := by
    apply eq_of_perm_of_length_le_one (hperm.filter test)
    rwa [← List.countP_eq_length_filter]
  rw [← List.head?_filter, ← List.head?_filter, hpassing]

/-- When no two items share a label, at most one item has a given label, and finding it does not
depend on the order. -/
theorem filter_label_eq_of_perm [DecidableEq β] {label : α → β} {items items' : List α}
    (hperm : items.Perm items') (hlabels : (items.map label).Nodup) (b : β) :
    items.filter (fun item => label item = b) = items'.filter (fun item => label item = b) := by
  apply eq_of_perm_of_length_le_one (hperm.filter fun item => decide (label item = b))
  calc (items.filter fun item => label item = b).length
      = (items.map label).count b := by
        rw [List.count, List.countP_map, List.countP_eq_length_filter]
        rfl
    _ ≤ 1 := List.nodup_iff_count_le_one.mp hlabels b

end LogCensus
