import LogCensus.Extraction.AnonymousObject
import LogCensus.Proofs.Operation.Constants
import Mathlib.Data.List.Nodup

/-!
# The leaves of an anonymous object

Anonymous objects may stand inside one another, under conversions. The members that are no objects
themselves are the leaves; the names on the way to a leaf, joined with dots, are the name of its
parameter. A name without dots is a path of its own, so the path can be read off the name again, and
different leaves have different names.

* `Leaves`: the leaves of an object, each with its path, in the order of the text.
* `flatten_eq`: the parameters below a path are those of the leaves.
* `Leaves.paths_nodup`: no two leaves have the same path.
* `extract_flattens`: what is extracted from an anonymous object.
-/

namespace LogCensus.AnonymousObject

/-- Whether a value is an anonymous object with these members, under conversions. -/
def IsObject (value : Operation) (members : List AnonymousMember) : Prop :=
  value.unwrap.shape = .anonymousObjectCreation members

theorem IsObject.unique {value : Operation} {members members' : List AnonymousMember}
    (h : IsObject value members) (h' : IsObject value members') : members = members' :=
  Shape.anonymousObjectCreation.inj (h.symm.trans h')

/-! ## Names with dots -/

/-- The names of a path in one text. -/
def dotted (path : List String) : String :=
  ".".intercalate path

/-- The pieces of a text between dots. -/
def piecesOf (text : String) : List String :=
  (text.split '.').toList.map (·.copy)

/-- A name that is neither empty nor has a dot in it. -/
def IsPlain (name : String) : Prop :=
  name ≠ "" ∧ '.' ∉ name.toList

instance : DecidablePred IsPlain :=
  fun name => inferInstanceAs (Decidable (name ≠ "" ∧ '.' ∉ name.toList))

/-- The pieces of a path in one text are its names. -/
theorem piecesOf_dotted {path : List String} (hne : path ≠ [])
    (hnames : ∀ name ∈ path, IsPlain name) : piecesOf (dotted path) = path := by
  have hpieces := String.toList_split_intercalate fun name hname => (hnames name hname).2
  rwa [if_neg hne] at hpieces

/-- Only the empty path has an empty text. -/
theorem isEmpty_dotted {first : String} {rest : List String} (hfirst : first ≠ "") :
    (dotted (first :: rest)).isEmpty = false := by
  rw [String.isEmpty_eq_false_iff]
  cases rest with
  | nil => rwa [dotted, String.intercalate_singleton]
  | cons second rest => simp [dotted, String.intercalate_cons_cons, hfirst]

/-- The name of a member below a path is the path with one name more. -/
theorem qualified_dotted {path : List String} (hnames : ∀ name ∈ path, IsPlain name)
    (name : String) : qualified (dotted path) name = dotted (path ++ [name]) := by
  cases path with
  | nil => exact String.intercalate_singleton.symm
  | cons first rest =>
    -- the empty path means the top, and no name on the way is empty
    have hempty : (dotted (first :: rest)).isEmpty = false :=
      isEmpty_dotted (hnames first List.mem_cons_self).1
    rw [qualified, hempty, if_neg Bool.false_ne_true, dotted, dotted,
      String.intercalate_append_of_ne_nil (List.cons_ne_nil _ _) (List.cons_ne_nil _ _),
      String.intercalate_singleton]

/-! ## Leaves -/

/-- A member that is no anonymous object, with the names on the way to it. -/
structure Leaf where
  path : List String
  value : Operation

namespace Leaf

/-- The leaf as it is seen from outside of the member with a name. -/
def under (name : String) (leaf : Leaf) : Leaf :=
  { leaf with path := name :: leaf.path }

/-- The names on the way to the leaf, with dots between them. -/
def name (leaf : Leaf) : String :=
  dotted leaf.path

/-- The parameter of a leaf. -/
def parameter (leaf : Leaf) : Parameter :=
  .ofValue leaf.name leaf.value

end Leaf

/-- The leaves of the members of an object, in the order of the text: a member that is no object
itself is a leaf, and the leaves of one that is are found below its name. -/
inductive Leaves : List AnonymousMember → List Leaf → Prop
  | nil : Leaves [] []
  | value {member : AnonymousMember} {rest : List AnonymousMember} {leaves : List Leaf}
      (hvalue : ∀ inner, ¬ IsObject member.value inner) (hrest : Leaves rest leaves) :
      Leaves (member :: rest) (⟨[member.name], member.value⟩ :: leaves)
  | object {member : AnonymousMember} {rest inner : List AnonymousMember}
      {below leaves : List Leaf} (hobject : IsObject member.value inner)
      (hinner : Leaves inner below) (hrest : Leaves rest leaves) :
      Leaves (member :: rest) (below.map (Leaf.under member.name) ++ leaves)

theorem exists_leaves_of_objects {members : List AnonymousMember}
    (h : ∀ member ∈ members, ∀ inner, IsObject member.value inner → ∃ below, Leaves inner below) :
    ∃ leaves, Leaves members leaves := by
  induction members with
  | nil => exact ⟨[], .nil⟩
  | cons member rest ih =>
    obtain ⟨leaves, hrest⟩ := ih fun other hother => h other (List.mem_cons_of_mem _ hother)
    by_cases hobject : ∃ inner, IsObject member.value inner
    · obtain ⟨inner, hobject⟩ := hobject
      obtain ⟨below, hinner⟩ := h member List.mem_cons_self inner hobject
      exact ⟨_, .object hobject hinner hrest⟩
    · exact ⟨_, .value (not_exists.mp hobject) hrest⟩

/-- Objects nest to a finite depth, so their leaves can be listed. -/
theorem exists_leaves_of_isObject (value : Operation) :
    ∀ members, IsObject value members → ∃ leaves, Leaves members leaves := by
  induction value using Operation.inductionOnParts with
  | h value ih =>
    obtain ⟨type, constant, shape⟩ := value
    intro members hobject
    cases shape with
    | conversion operand => exact ih operand (List.mem_singleton_self operand) members hobject
    | anonymousObjectCreation inner =>
      obtain rfl : inner = members := Shape.anonymousObjectCreation.inj hobject
      apply exists_leaves_of_objects
      intro member hmember
      exact ih member.value (List.mem_map_of_mem hmember)
    | _ => cases hobject

theorem exists_leaves (members : List AnonymousMember) : ∃ leaves, Leaves members leaves :=
  exists_leaves_of_objects fun member _ => exists_leaves_of_isObject member.value

namespace Leaves

variable {members : List AnonymousMember} {leaves : List Leaf}

theorem unique (h : Leaves members leaves) {leaves' : List Leaf} (h' : Leaves members leaves') :
    leaves = leaves' := by
  induction h generalizing leaves' with
  | nil =>
    cases h'
    rfl
  | value hvalue _ ih =>
    cases h' with
    | value _ hrest' => rw [ih hrest']
    | object hobject' => exact absurd hobject' (hvalue _)
  | object hobject _ _ ihInner ihRest =>
    cases h' with
    | value hvalue' => exact absurd hobject (hvalue' _)
    | object hobject' hinner' hrest' =>
      cases hobject.unique hobject'
      rw [ihInner hinner', ihRest hrest']

/-- The path of a leaf starts with the name of a member. -/
theorem exists_path_eq (h : Leaves members leaves) {leaf : Leaf} (hleaf : leaf ∈ leaves) :
    ∃ member ∈ members, ∃ rest, leaf.path = member.name :: rest := by
  induction h with
  | nil => cases hleaf
  | @value member _ _ _ _ ih =>
    rcases List.mem_cons.mp hleaf with rfl | hmem
    · exact ⟨member, List.mem_cons_self, [], rfl⟩
    · obtain ⟨other, hother, hpath⟩ := ih hmem
      exact ⟨other, List.mem_cons_of_mem _ hother, hpath⟩
  | @object member _ _ _ _ _ _ _ _ ihRest =>
    rcases List.mem_append.mp hleaf with hbelow | hmem
    · obtain ⟨inner, -, rfl⟩ := List.mem_map.mp hbelow
      exact ⟨member, List.mem_cons_self, inner.path, rfl⟩
    · obtain ⟨other, hother, hpath⟩ := ihRest hmem
      exact ⟨other, List.mem_cons_of_mem _ hother, hpath⟩

end Leaves

/-! ## The objects of a tree -/

/-- The members of an object and of all objects inside it. -/
inductive Level : List AnonymousMember → List AnonymousMember → Prop
  | top (members : List AnonymousMember) : Level members members
  | inside {members inner level : List AnonymousMember} {member : AnonymousMember}
      (hmember : member ∈ members) (hobject : IsObject member.value inner)
      (hlevel : Level inner level) : Level members level

/-- A property of the members of an object holds of it and of all objects inside it. -/
def EveryLevel (P : List AnonymousMember → Prop) (members : List AnonymousMember) : Prop :=
  ∀ level, Level members level → P level

/-- No name of a member can be taken for a path. -/
def PlainNames (members : List AnonymousMember) : Prop :=
  ∀ member ∈ members, IsPlain member.name

/-- No two members of one object have the same name. -/
def DistinctNames (members : List AnonymousMember) : Prop :=
  (members.map AnonymousMember.name).Nodup

instance : DecidablePred PlainNames :=
  fun members => inferInstanceAs (Decidable (∀ member ∈ members, IsPlain member.name))

instance : DecidablePred DistinctNames :=
  fun members => inferInstanceAs (Decidable (members.map AnonymousMember.name).Nodup)

namespace EveryLevel

variable {P : List AnonymousMember → Prop} {member : AnonymousMember}
  {members rest inner : List AnonymousMember}

theorem here (h : EveryLevel P members) : P members :=
  h members (.top members)

theorem inside (h : EveryLevel P members) (hmember : member ∈ members)
    (hobject : IsObject member.value inner) : EveryLevel P inner :=
  fun level hlevel => h level (.inside hmember hobject hlevel)

/-- A property that the other members keep without the first one. -/
theorem tail (h : EveryLevel P (member :: rest)) (hrest : P (member :: rest) → P rest) :
    EveryLevel P rest := by
  intro level hlevel
  cases hlevel with
  | top => exact hrest h.here
  | inside hmember hobject hlevel =>
    exact h level (.inside (List.mem_cons_of_mem _ hmember) hobject hlevel)

theorem of_here (hhere : P members)
    (hinner : ∀ member ∈ members, ∀ inner, IsObject member.value inner → EveryLevel P inner) :
    EveryLevel P members := by
  intro level hlevel
  cases hlevel with
  | top => exact hhere
  | inside hmember hobject hlevel => exact hinner _ hmember _ hobject level hlevel

end EveryLevel

theorem PlainNames.tail {member : AnonymousMember} {rest : List AnonymousMember}
    (h : PlainNames (member :: rest)) : PlainNames rest :=
  fun other hother => h other (List.mem_cons_of_mem _ hother)

theorem DistinctNames.tail {member : AnonymousMember} {rest : List AnonymousMember}
    (h : DistinctNames (member :: rest)) : DistinctNames rest :=
  (List.nodup_cons.mp h).2

/-! ## Flattening -/

variable {path : String}

/-- An object is found through conversions. -/
theorem nested?_of_isObject (value : Operation) {members : List AnonymousMember}
    (h : IsObject value members) : nested? path value = some (flatten path members) := by
  obtain ⟨type, constant, shape⟩ := value
  cases shape with
  | conversion operand => exact nested?_of_isObject operand h
  | anonymousObjectCreation inner =>
    obtain rfl : inner = members := Shape.anonymousObjectCreation.inj h
    rfl
  | _ => cases h

theorem nested?_of_not_isObject (value : Operation)
    (h : ∀ members, ¬ IsObject value members) : nested? path value = none := by
  obtain ⟨type, constant, shape⟩ := value
  cases shape with
  | conversion operand => exact nested?_of_not_isObject operand h
  | anonymousObjectCreation members => exact absurd rfl (h members)
  | _ => rfl

theorem flatten_cons (member : AnonymousMember) (rest : List AnonymousMember) :
    flatten path (member :: rest) =
      (nested? (qualified path member.name) member.value).getD
        [.ofValue (qualified path member.name) member.value] ++ flatten path rest := by
  obtain ⟨name, value⟩ := member
  rw [flatten, flattenMember]

namespace Leaves

variable {members : List AnonymousMember} {leaves : List Leaf}

/-- The parameters below a path are those of the leaves, each named by its path behind that one. -/
theorem flatten_eq (h : Leaves members leaves) (hnames : EveryLevel PlainNames members)
    {path : List String} (hpath : ∀ name ∈ path, IsPlain name) :
    flatten (dotted path) members =
      leaves.map fun leaf => .ofValue (dotted (path ++ leaf.path)) leaf.value := by
  induction h generalizing path with
  | nil => rfl
  | value hvalue _ ih =>
    rw [flatten_cons, nested?_of_not_isObject _ hvalue, qualified_dotted hpath,
      ih (hnames.tail PlainNames.tail) hpath]
    rfl
  | @object member _ _ _ _ hobject _ _ ihInner ihRest =>
    have hbelow : ∀ name ∈ path ++ [member.name], IsPlain name := by
      intro name hname
      rcases List.mem_append.mp hname with hname | hname
      · exact hpath name hname
      · rw [List.mem_singleton.mp hname]
        exact hnames.here member List.mem_cons_self
    rw [flatten_cons, nested?_of_isObject _ hobject, qualified_dotted hpath, Option.getD_some,
      ihInner (hnames.inside List.mem_cons_self hobject) hbelow,
      ihRest (hnames.tail PlainNames.tail) hpath, List.map_append, List.map_map]
    simp only [List.append_assoc, List.singleton_append]
    rfl

/-- All names on the way to a leaf are plain. -/
theorem plain_path (h : Leaves members leaves) (hnames : EveryLevel PlainNames members) :
    ∀ leaf ∈ leaves, ∀ name ∈ leaf.path, IsPlain name := by
  induction h with
  | nil => exact List.forall_mem_nil _
  | @value member _ _ _ _ ih =>
    refine List.forall_mem_cons.mpr ⟨?_, ih (hnames.tail PlainNames.tail)⟩
    intro name hname
    rw [List.mem_singleton.mp hname]
    exact hnames.here member List.mem_cons_self
  | @object member _ _ _ _ hobject _ _ ihInner ihRest =>
    refine List.forall_mem_append.mpr ⟨?_, ihRest (hnames.tail PlainNames.tail)⟩
    refine List.forall_mem_map.mpr fun leaf hleaf => List.forall_mem_cons.mpr ⟨?_, ?_⟩
    · exact hnames.here member List.mem_cons_self
    · exact ihInner (hnames.inside List.mem_cons_self hobject) leaf hleaf

/-- When members of one object differ in their names, leaves differ in their paths. -/
theorem paths_nodup (h : Leaves members leaves) (hdistinct : EveryLevel DistinctNames members) :
    (leaves.map Leaf.path).Nodup := by
  -- a path starts with the name of a member, so the leaves of different members differ there
  have hapart : ∀ {member : AnonymousMember} {rest : List AnonymousMember} {others : List Leaf},
      DistinctNames (member :: rest) → Leaves rest others →
        ∀ path, member.name :: path ∉ others.map Leaf.path := by
    intro member rest others hnames hrest path hpath
    obtain ⟨leaf, hleaf, heq⟩ := List.mem_map.mp hpath
    obtain ⟨other, hother, tail, htail⟩ := hrest.exists_path_eq hleaf
    have hsame : other.name = member.name := (List.cons.inj (htail.symm.trans heq)).1
    exact (List.nodup_cons.mp hnames).1 (hsame ▸ List.mem_map_of_mem hother)
  induction h with
  | nil => exact List.nodup_nil
  | value _ hrest ih =>
    exact List.nodup_cons.mpr
      ⟨hapart hdistinct.here hrest [], ih (hdistinct.tail DistinctNames.tail)⟩
  | @object member _ _ below _ hobject _ hrest ihInner ihRest =>
    have hbelow : (below.map (Leaf.under member.name)).map Leaf.path =
        (below.map Leaf.path).map (member.name :: ·) := by
      rw [List.map_map, List.map_map]
      rfl
    rw [List.map_append, hbelow, List.nodup_append]
    refine ⟨?_, ihRest (hdistinct.tail DistinctNames.tail), ?_⟩
    · exact (ihInner (hdistinct.inside List.mem_cons_self hobject)).map (List.cons_injective)
    · intro path hpath other hother heq
      obtain ⟨tail, -, rfl⟩ := List.mem_map.mp hpath
      exact hapart hdistinct.here hrest tail (heq ▸ hother)

end Leaves

/-- An anonymous object, under conversions and behind locals and fields, is extracted completely
when the names of its members are plain: into one parameter for each leaf, in the order of the text,
named by the names on the way to it with dots between them. Such a name falls apart at the dots into
those names again; and when members of one object differ in their names, so do the parameters. -/
theorem extract_flattens {argument : Operation} {members : List AnonymousMember}
    (horigin : argument.origin.shape = .anonymousObjectCreation members)
    (hnames : EveryLevel PlainNames members) :
    ∃ leaves, Leaves members leaves ∧ (∀ leaves', Leaves members leaves' → leaves' = leaves) ∧
      extract argument = .found .anonymousObject (leaves.map Leaf.parameter) true ∧
      (∀ leaf ∈ leaves, piecesOf leaf.name = leaf.path) ∧
      (EveryLevel DistinctNames members →
        ((extract argument).parameters.map Parameter.name).Nodup) := by
  obtain ⟨leaves, hleaves⟩ := exists_leaves members
  have hextract : extract argument =
      .found .anonymousObject (leaves.map Leaf.parameter) true := by
    have hpath : ∀ name ∈ ([] : List String), IsPlain name := List.forall_mem_nil _
    have hflatten := hleaves.flatten_eq hnames hpath
    simp only [extract, members?, horigin]
    exact congrArg (Outcome.found .anonymousObject · true) hflatten
  have hpieces : ∀ leaf ∈ leaves, piecesOf leaf.name = leaf.path := by
    intro leaf hleaf
    obtain ⟨member, -, rest, hpath⟩ := hleaves.exists_path_eq hleaf
    have hne : leaf.path ≠ [] := by
      rw [hpath]
      exact List.cons_ne_nil _ _
    exact piecesOf_dotted hne (hleaves.plain_path hnames leaf hleaf)
  refine ⟨leaves, hleaves, fun _ hleaves' => hleaves'.unique hleaves, hextract, hpieces, ?_⟩
  intro hdistinct
  have hnamesOf : (extract argument).parameters.map Parameter.name = leaves.map Leaf.name := by
    rw [hextract]
    exact List.map_map
  -- the paths can be read off the names, so names that are equal come from equal paths
  have hpaths : (leaves.map Leaf.name).map piecesOf = leaves.map Leaf.path := by
    rw [List.map_map]
    exact List.map_congr_left hpieces
  rw [hnamesOf]
  apply List.Nodup.of_map piecesOf
  rw [hpaths]
  exact hleaves.paths_nodup hdistinct

def objectOf (members : List AnonymousMember) : Operation where
  shape := .anonymousObjectCreation members

/-- The members of an order: a number, and an object without members. -/
def orderMembers : List AnonymousMember :=
  [⟨"Id", { shape := .literal }⟩, ⟨"Customer", objectOf []⟩]

/-- The members of a state: an order under a conversion, and a number with the name of another. -/
def stateMembers : List AnonymousMember :=
  [⟨"Order", { shape := .conversion (objectOf orderMembers) }⟩,
   ⟨"Id", { shape := .parameterReference "id" }⟩]

theorem everyLevel_stateMembers {P : List AnonymousMember → Prop} (hstate : P stateMembers)
    (horder : P orderMembers) (hcustomer : P []) : EveryLevel P stateMembers := by
  refine .of_here hstate fun member hmember inner hobject => ?_
  rcases List.mem_pair.mp hmember with rfl | rfl
  · obtain rfl : inner = orderMembers := hobject.unique rfl
    refine .of_here horder fun member hmember inner hobject => ?_
    rcases List.mem_pair.mp hmember with rfl | rfl
    · cases hobject
    · obtain rfl : inner = [] := hobject.unique rfl
      exact .of_here hcustomer (List.forall_mem_nil _)
  · cases hobject

/-- The state behind a local, with a name that occurs at two depths. -/
theorem extract_flattens_stateMembers :
    let argument : Operation :=
      { shape := .conversion { shape := .localReference "state" (some (objectOf stateMembers)) } }
    argument.origin.shape = .anonymousObjectCreation stateMembers ∧
      EveryLevel PlainNames stateMembers ∧ EveryLevel DistinctNames stateMembers ∧
      ((extract argument).parameters.map Parameter.name).Nodup ∧
      (extract argument).parameters.map Parameter.name = ["Order.Id", "Id"] := by
  intro argument
  have hnames : EveryLevel PlainNames stateMembers :=
    everyLevel_stateMembers (by decide) (by decide) (by decide)
  have hdistinct : EveryLevel DistinctNames stateMembers :=
    everyLevel_stateMembers (by decide) (by decide) (by decide)
  have horigin : argument.origin.shape = .anonymousObjectCreation stateMembers := rfl
  obtain ⟨leaves, -, -, -, -, hnodup⟩ := extract_flattens horigin hnames
  exact ⟨horigin, hnames, hdistinct, hnodup hdistinct, by decide⟩

end LogCensus.AnonymousObject
