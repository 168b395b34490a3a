/-!
# Sorted maps

Finite maps as lists of pairs whose keys ascend strictly. The order of the pairs is the order of the
keys, so two maps with the same bindings are equal.

* `SortedMap.update`: changes the value of a key, starting from a given value when the key is new.
* `sortedDistinct`: the items of a list in ascending order, each once.
-/

namespace LogCensus

variable {α β : Type}

/-- Whether the keys of a list of pairs ascend strictly. -/
def Ascending [Ord α] (entries : List (α × β)) : Prop :=
  entries.Pairwise fun left right => compare left.1 right.1 = .lt

/-- A finite map, sorted by its keys. -/
structure SortedMap (α β : Type) [Ord α] where
  entries : List (α × β)
  ascending : Ascending entries
deriving DecidableEq

namespace SortedMap

section
variable [Ord α]

/-- The map without keys. -/
def empty : SortedMap α β :=
  ⟨[], List.Pairwise.nil⟩

instance : Inhabited (SortedMap α β) :=
  ⟨empty⟩

/-- The keys, ascending. -/
def keys (map : SortedMap α β) : List α :=
  map.entries.map Prod.fst

/-- The values, in the order of their keys. -/
def values (map : SortedMap α β) : List β :=
  map.entries.map Prod.snd

/-- The number of keys. -/
def size (map : SortedMap α β) : Nat :=
  map.entries.length

/-- The value of a key in a list of pairs. -/
def lookup (key : α) : List (α × β) → Option β
  | [] => none
  | (known, value) :: rest =>
    match compare key known with
    | .eq => some value
    | _ => lookup key rest

/-- The value of a key. -/
def get? (map : SortedMap α β) (key : α) : Option β :=
  lookup key map.entries

/-- Changes the value of a key in an ascending list of pairs; a new key starts from `start`. -/
def updateEntries (key : α) (start : β) (change : β → β) : List (α × β) → List (α × β)
  | [] => [(key, change start)]
  | (known, value) :: rest =>
    match compare key known with
    | .lt => (key, change start) :: (known, value) :: rest
    | .eq => (known, change value) :: rest
    | .gt => (known, value) :: updateEntries key start change rest

/-- An update adds no key but its own. -/
theorem key_of_mem_updateEntries {key : α} {start : β} {change : β → β} {entries : List (α × β)}
    {entry : α × β} (member : entry ∈ updateEntries key start change entries) :
    entry.1 = key ∨ ∃ old ∈ entries, entry.1 = old.1 := by
  induction entries with
  | nil => simp_all [updateEntries]
  | cons head rest ih =>
    obtain ⟨known, value⟩ := head
    unfold updateEntries at member
    split at member
    · rcases List.mem_cons.1 member with rfl | member
      · exact .inl rfl
      · exact .inr ⟨entry, member, rfl⟩
    · rcases List.mem_cons.1 member with rfl | member
      · exact .inr ⟨(known, value), List.mem_cons_self, rfl⟩
      · exact .inr ⟨entry, List.mem_cons_of_mem _ member, rfl⟩
    · rcases List.mem_cons.1 member with rfl | member
      · exact .inr ⟨(known, value), List.mem_cons_self, rfl⟩
      · rcases ih member with same | ⟨old, old_mem, same⟩
        · exact .inl same
        · exact .inr ⟨old, List.mem_cons_of_mem _ old_mem, same⟩

end

section
variable [Ord α] [Std.TransOrd α]

/-- An update keeps the keys ascending. -/
theorem ascending_updateEntries {key : α} {start : β} {change : β → β} {entries : List (α × β)}
    (ascending : Ascending entries) : Ascending (updateEntries key start change entries) := by
  induction entries with
  | nil => exact List.pairwise_singleton _ _
  | cons head rest ih =>
    obtain ⟨known, value⟩ := head
    obtain ⟨below, tail⟩ := List.pairwise_cons.1 ascending
    unfold updateEntries
    split
    next before =>
      refine List.pairwise_cons.2 ⟨fun entry member => ?_, ascending⟩
      rcases List.mem_cons.1 member with rfl | member
      · exact before
      · exact Std.TransCmp.lt_trans before (below entry member)
    next =>
      exact List.pairwise_cons.2 ⟨below, tail⟩
    next after =>
      refine List.pairwise_cons.2 ⟨fun entry member => ?_, ih tail⟩
      rcases key_of_mem_updateEntries member with same | ⟨old, old_mem, same⟩
      · rw [same]
        exact Std.OrientedCmp.lt_of_gt after
      · rw [same]
        exact below old old_mem

/-- Changes the value of a key; a new key starts from `start`. -/
def update (map : SortedMap α β) (key : α) (start : β) (change : β → β) : SortedMap α β :=
  ⟨updateEntries key start change map.entries, ascending_updateEntries map.ascending⟩

end

end SortedMap

/-- The items of a list in ascending order, each once. -/
def sortedDistinct [Ord α] [Std.TransOrd α] (items : List α) : List α :=
  (items.foldl (fun found item => found.update item () id) SortedMap.empty).keys

end LogCensus
