import LogCensus.Json.Reader

/-!
# Writing and reading back

What is written for a value can be read back as long as there are enough levels of nesting, and
what is read out of a well-formed value has the properties that its parts have. Both are said of a
reader of parts and carried over to lists, optional values and the fields of a record.

* `Restores`: a reader reads what a writer writes, perhaps with something in it left out.
* `Ensures`: a reader gives only values with some property.
-/

namespace LogCensus.Json

variable {α β : Type}

/-! ## Parts of a value -/

mutual
/-- Every part that is neither an array nor an object has a property. -/
def EveryScalar (good : Json → Prop) : Json → Prop
  | .array items => EveryScalarItem good items
  | .object members => EveryScalarMember good members
  | scalar => good scalar
/-- Every scalar of every item has a property. -/
def EveryScalarItem (good : Json → Prop) : List Json → Prop
  | [] => True
  | item :: rest => item.EveryScalar good ∧ EveryScalarItem good rest
/-- Every scalar of every member has a property. -/
def EveryScalarMember (good : Json → Prop) : List (String × Json) → Prop
  | [] => True
  | (_, value) :: rest => value.EveryScalar good ∧ EveryScalarMember good rest
end

@[simp] theorem everyScalar_array {good : Json → Prop} {items : List Json} :
    (Json.array items).EveryScalar good ↔ ∀ item ∈ items, item.EveryScalar good := by
  rw [EveryScalar]
  induction items with
  | nil => simp [EveryScalarItem]
  | cons item rest ih => rw [EveryScalarItem, ih, List.forall_mem_cons]

@[simp] theorem everyScalar_object {good : Json → Prop} {members : List (String × Json)} :
    (Json.object members).EveryScalar good ↔ ∀ member ∈ members, member.2.EveryScalar good := by
  rw [EveryScalar]
  induction members with
  | nil => simp [EveryScalarMember]
  | cons member rest ih => rw [EveryScalarMember, ih, List.forall_mem_cons]

/-- No part of the value is unreadable. -/
abbrev Readable (value : Json) : Prop :=
  value.EveryScalar (· ≠ .unreadable)

/-- A number that a text can hold: an integer of 64 bits, signed or not, or a finite double. -/
def NumberFits : Json → Prop
  | .int value => Int64.minValue.toInt ≤ value ∧ value < UInt64.size
  | .float value => value.isFinite = true
  | _ => True

/-- Every number in the value is one that a text can hold. -/
abbrev WellFormed (value : Json) : Prop :=
  value.EveryScalar NumberFits

@[simp] theorem depth_array_le_succ {items : List Json} {levels : Nat} :
    (Json.array items).depth ≤ levels + 1 ↔ ∀ item ∈ items, item.depth ≤ levels := by
  rw [depth, Nat.add_le_add_iff_right]
  induction items with
  | nil => simp [depthItems]
  | cons item rest ih => rw [depthItems, Nat.max_le, ih, List.forall_mem_cons]

@[simp] theorem depth_object_le_succ {members : List (String × Json)} {levels : Nat} :
    (Json.object members).depth ≤ levels + 1 ↔ ∀ member ∈ members, member.2.depth ≤ levels := by
  rw [depth, Nat.add_le_add_iff_right]
  induction members with
  | nil => simp [depthMembers]
  | cons member rest ih => rw [depthMembers, Nat.max_le, ih, List.forall_mem_cons]

@[simp] theorem depth_array_le_zero {items : List Json} : ¬ (Json.array items).depth ≤ 0 := by
  simp [depth]

@[simp] theorem depth_object_le_zero {members : List (String × Json)} :
    ¬ (Json.object members).depth ≤ 0 := by
  simp [depth]

theorem fits_of_readable {levels : Nat} {value : Json} (hreadable : value.Readable)
    (hdepth : value.depth ≤ levels) : value.fits levels = true := by
  induction levels generalizing value with
  | zero =>
    cases value with
    | unreadable => simp [Readable, EveryScalar] at hreadable
    | array items => exact absurd hdepth depth_array_le_zero
    | object members => exact absurd hdepth depth_object_le_zero
    | _ => rfl
  | succ levels ih =>
    cases value with
    | unreadable => simp [Readable, EveryScalar] at hreadable
    | array items =>
      rw [depth_array_le_succ] at hdepth
      rw [Readable, everyScalar_array] at hreadable
      rw [fits, List.all_eq_true]
      exact fun item hitem => ih (hreadable item hitem) (hdepth item hitem)
    | object members =>
      rw [depth_object_le_succ] at hdepth
      rw [Readable, everyScalar_object] at hreadable
      rw [fits, List.all_eq_true]
      exact fun member hmember => ih (hreadable member hmember) (hdepth member hmember)
    | _ => rfl

theorem readable_ofOption {write : α → Json} {value : Option α}
    (h : ∀ found ∈ value, (write found).Readable) : (ofOption write value).Readable := by
  cases value with
  | none => simp [ofOption, Readable, EveryScalar]
  | some found => exact h found rfl

theorem readable_ofList {write : α → Json} {items : List α}
    (h : ∀ item ∈ items, (write item).Readable) : (ofList write items).Readable := by
  rw [ofList, Readable, everyScalar_array]
  simpa using h

/-! ## Reading what is written -/

/-- What is written for a good value is read back with parts left out as `restored` says, if it is
not nested deeper than the levels allow. -/
def Restores (levels : Nat) (read : Json → Option α) (write : α → Json) (restored : α → α)
    (Good : α → Prop) : Prop :=
  ∀ value, Good value → (write value).depth ≤ levels → read (write value) = some (restored value)

theorem uint64?_toNat (word : UInt64) : uint64? (.int word.toNat) = some word := by
  have hword : word.toNat < UInt64.size := word.toNat_lt
  show (if word.toNat < UInt64.size then some word.toNat else none).map Nat.toUInt64 = some word
  rw [if_pos hword]
  simp

theorem mapM_eq_some_map {read : α → Option β} {result : α → β} {items : List α}
    (h : ∀ item ∈ items, read item = some (result item)) :
    items.mapM read = some (items.map result) := by
  induction items with
  | nil => rfl
  | cons item rest ih =>
    rw [List.forall_mem_cons] at h
    rw [List.mapM_cons, h.1, ih h.2]
    rfl

theorem listOf?_ofList {read : Json → Option α} {write : α → Json}
    (h : ∀ item, read (write item) = some item) (items : List α) :
    listOf? read (ofList write items) = some items := by
  have hitems : items.mapM (read ∘ write) = some (items.map id) :=
    mapM_eq_some_map fun item _ => h item
  show (items.map write).mapM read = some items
  rw [List.mapM_map, hitems, List.map_id]

theorem exists_mem_of_mapM {read : α → Option β} {items : List α} {results : List β}
    (h : items.mapM read = some results) :
    ∀ result ∈ results, ∃ item ∈ items, read item = some result := by
  induction items generalizing results with
  | nil =>
    rw [List.mapM_nil, Option.pure_def, Option.some.injEq] at h
    simp [← h]
  | cons item rest ih =>
    simp only [List.mapM_cons, Option.bind_eq_bind, Option.bind_eq_some_iff, Option.pure_def,
      Option.some.injEq] at h
    obtain ⟨first, hfirst, others, hothers, rfl⟩ := h
    rw [List.forall_mem_cons]
    refine ⟨⟨item, List.mem_cons_self, hfirst⟩, fun result hresult => ?_⟩
    obtain ⟨found, hfound, hread⟩ := ih hothers result hresult
    exact ⟨found, List.mem_cons_of_mem item hfound, hread⟩

theorem Restores.list {levels : Nat} {reader : Reader α} {write : α → Json} {restored : α → α}
    {Good : α → Prop} (h : ∀ below < levels, Restores below (reader below) write restored Good) :
    Restores levels (Reader.list reader levels) (ofList write) (List.map restored)
      (fun items => ∀ item ∈ items, Good item) := by
  intro items hgood hdepth
  cases levels with
  | zero => exact absurd hdepth depth_array_le_zero
  | succ levels =>
    rw [ofList, depth_array_le_succ, List.forall_mem_map] at hdepth
    rw [ofList, Reader.list, List.mapM_map]
    exact mapM_eq_some_map fun item hitem =>
      h levels (Nat.lt_succ_self levels) item (hgood item hitem) (hdepth item hitem)

theorem Restores.option {levels : Nat} {read : Json → Option α} {write : α → Json}
    {restored : α → α} {Good : α → Prop} (hnull : ∀ value, write value ≠ .null)
    (h : Restores levels read write restored Good) :
    Restores levels (nullable? read) (ofOption write) (Option.map restored)
      (fun value => ∀ found ∈ value, Good found) := by
  intro value hgood hdepth
  cases value with
  | none => rfl
  | some found =>
    show nullable? read (write found) = some (some (restored found))
    rw [nullable?.eq_2 _ _ (hnull found), h found (hgood found rfl) hdepth, Option.map_some]

/-- The fields of an object that leaves out some of its members. -/
theorem fields?_object_of_sublist {names : List String} {members : List (String × Json)}
    (hnames : (members.map Prod.fst).Sublist names) (hnodup : names.Nodup) :
    fields? names (.object members) = some ⟨members⟩ := by
  have hknown : members.filter (fun member => names.contains member.1) = members := by
    rw [List.filter_eq_self]
    intro member hmember
    rw [List.contains_iff_mem]
    exact hnames.subset (List.mem_map_of_mem hmember)
  rw [fields?, knownMembers?, hknown, if_pos (hnodup.sublist hnames)]

theorem fields?_object {names : List String} {members : List (String × Json)}
    (hnames : members.map Prod.fst = names) (hnodup : names.Nodup) :
    fields? names (.object members) = some ⟨members⟩ :=
  fields?_object_of_sublist (hnames ▸ List.Sublist.refl _) hnodup

theorem keys_member?_sublist (key : String) (write : α → Json) (value : Option α) :
    ((member? key write value).map Prod.fst).Sublist [key] := by
  cases value with
  | none => exact List.nil_sublist _
  | some found => exact List.Sublist.refl _

theorem lookup_member? (name key : String) (write : α → Json) (value : Option α) :
    (member? key write value).lookup name = if name = key then value.map write else none := by
  cases value with
  | none => exact (ite_self _).symm
  | some found =>
    rw [member?, List.lookup_cons, List.lookup_nil]
    split
    · next heq => rw [if_pos (beq_iff_eq.mp heq), Option.map_some]
    · next hne => rw [if_neg (by simpa using hne)]

namespace Fields

variable {fields : Fields} {name : String} {read : Json → Option α} {write : α → Json}

theorem required_eq_some {value : Json} {found : α} (hget : fields.get? name = some value)
    (hread : read value = some found) : fields.required name read = some found := by
  rw [required, hget]
  exact hread

/-- A member that is left out is a value that is not there. -/
theorem optional_eq_some {restored : α → α} {value : Option α}
    (hget : fields.get? name = value.map write) (hnull : ∀ found, write found ≠ .null)
    (hread : ∀ found, read (write found) = some (restored found)) :
    fields.optional name read = some (value.map restored) := by
  cases value with
  | none =>
    rw [optional, hget]
    rfl
  | some found =>
    have hnullable : nullable? read (write found) = some (some (restored found)) := by
      rw [nullable?.eq_2 _ _ (hnull found), hread, Option.map_some]
    rw [optional, hget]
    exact hnullable

theorem optional_eq_self {value : Option α} (hget : fields.get? name = value.map write)
    (hnull : ∀ found, write found ≠ .null) (hread : ∀ found, read (write found) = some found) :
    fields.optional name read = some value := by
  rw [optional_eq_some hget hnull hread, Option.map_id']

end Fields

/-! ## What is read -/

/-- Whatever is read out of a well-formed value has a property. -/
def Ensures (read : Json → Option α) (Good : α → Prop) : Prop :=
  ∀ value, value.WellFormed → ∀ found, read value = some found → Good found

theorem Ensures.list {reader : Reader α} {Good : α → Prop}
    (h : ∀ levels, Ensures (reader levels) Good) (levels : Nat) :
    Ensures (Reader.list reader levels) (fun items => ∀ item ∈ items, Good item) := by
  intro value hvalue found hread
  cases levels with
  | zero => simp [Reader.list] at hread
  | succ levels =>
    cases value with
    | array items =>
      rw [WellFormed, everyScalar_array] at hvalue
      rw [Reader.list] at hread
      intro result hresult
      obtain ⟨item, hitem, hfound⟩ := exists_mem_of_mapM hread result hresult
      exact h levels item (hvalue item hitem) result hfound
    | _ => simp [Reader.list] at hread

/-- A value that is not there is no exception. -/
theorem forall_mem_none {Good : α → Prop} : ∀ found ∈ (none : Option α), Good found :=
  fun found hfound => absurd hfound (Option.not_mem_none found)

theorem Ensures.nullable {read : Json → Option α} {Good : α → Prop} (h : Ensures read Good) :
    Ensures (nullable? read) (fun value => ∀ found ∈ value, Good found) := by
  intro value hvalue result hread found hfound
  unfold nullable? at hread
  split at hread
  · simp only [Option.some.injEq] at hread
    simp [← hread] at hfound
  · obtain ⟨read, hsome, rfl⟩ := Option.map_eq_some_iff.mp hread
    obtain rfl : read = found := by simpa using hfound
    exact h value hvalue read hsome

namespace Fields

/-- Every number in a field is one that a text can hold. -/
def WellFormed (fields : Fields) : Prop :=
  ∀ entry ∈ fields.entries, entry.2.WellFormed

variable {fields : Fields} {name : String} {read : Json → Option α} {Good : α → Prop}

theorem WellFormed.get? (hfields : fields.WellFormed) {value : Json}
    (h : fields.get? name = some value) : value.WellFormed := by
  rw [Fields.get?, List.lookup_eq_some_iff] at h
  obtain ⟨before, after, hentries, -⟩ := h
  exact hfields (name, value) (by simp [hentries])

theorem WellFormed.required (hfields : fields.WellFormed) (h : Ensures read Good) {found : α}
    (hread : fields.required name read = some found) : Good found := by
  simp only [Fields.required, Option.bind_eq_bind, Option.bind_eq_some_iff] at hread
  obtain ⟨value, hvalue, hfound⟩ := hread
  exact h value (hfields.get? hvalue) found hfound

theorem WellFormed.optional {Good : Option α → Prop} (hfields : fields.WellFormed)
    (h : Ensures (nullable? read) Good) (hnone : Good none) {found : Option α}
    (hread : fields.optional name read = some found) : Good found := by
  unfold Fields.optional at hread
  split at hread
  · rw [Option.some.injEq] at hread
    exact hread ▸ hnone
  · exact h _ (hfields.get? (by assumption)) found hread

theorem WellFormed.defaulted (hfields : fields.WellFormed) (h : Ensures read Good) {default : α}
    (hdefault : Good default) {found : α}
    (hread : fields.defaulted name default read = some found) : Good found := by
  unfold Fields.defaulted at hread
  split at hread
  · rw [Option.some.injEq] at hread
    exact hread ▸ hdefault
  · exact h _ (hfields.get? (by assumption)) found hread

theorem WellFormed.list (hfields : fields.WellFormed) {reader : Reader α}
    (h : ∀ levels, Ensures (reader levels) Good) {levels : Nat} {items : List α}
    (hread : fields.defaulted name [] (Reader.list reader levels) = some items) :
    ∀ item ∈ items, Good item :=
  hfields.defaulted (Ensures.list h levels) (List.forall_mem_nil Good) hread

end Fields

theorem WellFormed.knownMembers? {members : List (String × Json)} {names : List String}
    {fields : Fields} (hmembers : ∀ member ∈ members, member.2.WellFormed)
    (h : knownMembers? names members = some fields) : fields.WellFormed := by
  simp only [Json.knownMembers?, Option.ite_none_right_eq_some, Option.some.injEq] at h
  obtain ⟨-, rfl⟩ := h
  exact fun entry hentry => hmembers entry (List.mem_filter.mp hentry).1

theorem WellFormed.fields? {value : Json} {names : List String} {fields : Fields}
    (hvalue : value.WellFormed) (h : value.fields? names = some fields) : fields.WellFormed := by
  cases value with
  | object members =>
    rw [WellFormed, everyScalar_object] at hvalue
    exact WellFormed.knownMembers? hvalue h
  | array items =>
    rw [WellFormed, everyScalar_array] at hvalue
    simp only [Json.fields?, Option.ite_none_right_eq_some, Option.some.injEq] at h
    obtain ⟨-, rfl⟩ := h
    exact fun entry hentry => hvalue entry.2 (List.of_mem_zip hentry).2
  | _ => cases h

end LogCensus.Json
