import LogCensus.Proofs.Census.Order
import LogCensus.Proofs.Summary.Tally
import Mathlib.Data.List.Dedup

/-!
# The ranking of names

Names are ranked by the number of their uses, the most used first; names that are used equally often
are ranked in ascending order. The same order decides which type stands for a name. It leaves no
ties, so a shorter list is the start of a longer one.

* `RanksBefore`: the order of the ranking.
* `foldl_larger`: the fold over ascending types finds the one that ranks first.
* `Summary.ranking_ordered`: the ranking of all names is strictly in order.
* `commonNames_top_of_ranking`: what the list of a summary is.
-/

namespace LogCensus

/-! ## The order of the ranking -/

/-- Of two texts, each with the number of its uses, whether the first one ranks before the second:
it is used more often, or equally often and is the smaller text. -/
def RanksBefore (left right : String × Nat) : Prop :=
  right.2 < left.2 ∨ left.2 = right.2 ∧ left.1 < right.1

/-- Texts with the numbers of their uses, as they are ranked. -/
def rankKey (entry : String × Nat) : Natᵒᵈ ×ₗ String :=
  toLex (OrderDual.toDual entry.2, entry.1)

theorem rankKey_lt_iff {left right : String × Nat} :
    rankKey left < rankKey right ↔ RanksBefore left right :=
  Prod.Lex.toLex_lt_toLex

theorem rankKey_injective {left right : String × Nat} (h : rankKey left = rankKey right) :
    left = right :=
  Prod.ext (congrArg (fun key => (ofLex key).2) h) (congrArg (fun key => (ofLex key).1) h)

/-! ## The type that stands for a name -/

/-- The entry with the larger count; of two equal counts, the first entry. -/
def larger (best next : String × Nat) : String × Nat :=
  if next.2 ≤ best.2 then best else next

/-- Of two entries with ascending texts, the larger one is the one that ranks first. -/
theorem rankKey_larger {best next : String × Nat} (hlt : best.1 < next.1) :
    rankKey (larger best next) = min (rankKey best) (rankKey next) := by
  unfold larger
  split
  · next hle =>
    have hbefore : rankKey best < rankKey next := rankKey_lt_iff.mpr (by
      rcases Nat.lt_or_eq_of_le hle with hless | heq
      · exact .inl hless
      · exact .inr ⟨heq.symm, hlt⟩)
    rw [min_eq_left hbefore.le]
  · next hgt =>
    have hbefore : rankKey next < rankKey best := rankKey_lt_iff.mpr (.inl (by omega))
    rw [min_eq_right hbefore.le]

/-- The fold over ascending entries finds one of them, and none ranks before it. -/
theorem foldl_larger {first : String × Nat} {rest : List (String × Nat)}
    (hascending : Ascending (first :: rest)) :
    rest.foldl larger first ∈ first :: rest ∧
      ∀ entry ∈ first :: rest, rankKey (rest.foldl larger first) ≤ rankKey entry := by
  induction rest generalizing first with
  | nil =>
    refine ⟨List.mem_cons_self, fun entry hentry => ?_⟩
    rw [List.mem_singleton.mp hentry]
    exact le_refl _
  | cons next rest ih =>
    obtain ⟨hbelow, hrest⟩ := List.pairwise_cons.mp hascending
    obtain ⟨hnext, hbelowRest⟩ := List.forall_mem_cons.mp hbelow
    have hcases : larger first next = first ∨ larger first next = next := ite_eq_or_eq ..
    have hkey := rankKey_larger (compare_lt_iff_lt.mp hnext)
    -- the entries from the larger one on ascend as well
    have hlarger : Ascending (larger first next :: rest) := by
      rcases hcases with heq | heq
      · rw [heq]
        exact List.pairwise_cons.mpr ⟨hbelowRest, (List.pairwise_cons.mp hrest).2⟩
      · rw [heq]
        exact hrest
    obtain ⟨hmem, hleast⟩ := ih hlarger
    have hstep := hleast _ List.mem_cons_self
    rw [hkey] at hstep
    rw [List.foldl_cons]
    refine ⟨?_, List.forall_mem_cons.mpr ⟨hstep.trans (min_le_left _ _),
      List.forall_mem_cons.mpr ⟨hstep.trans (min_le_right _ _), ?_⟩⟩⟩
    · rcases List.mem_cons.mp hmem with heq | hmem
      · rw [heq]
        rcases hcases with heq | heq
        · rw [heq]
          exact List.mem_cons_self
        · rw [heq]
          exact List.mem_cons_of_mem _ List.mem_cons_self
      · exact List.mem_cons_of_mem _ (List.mem_cons_of_mem _ hmem)
    · exact fun entry hentry => hleast entry (List.mem_cons_of_mem _ hentry)

/-- The main type of a name is one of its types, and ranks before all others. -/
theorem Summary.exists_mainType {types : SortedMap String Nat} (hne : types.entries ≠ []) :
    ∃ count, (mainType types, count) ∈ types.entries ∧
      ∀ entry ∈ types.entries, rankKey (mainType types, count) ≤ rankKey entry := by
  unfold mainType
  have hascending := types.ascending
  match hentries : types.entries with
  | [] => exact absurd hentries hne
  | first :: rest =>
    rw [hentries] at hascending
    exact ⟨(rest.foldl larger first).2, foldl_larger hascending⟩

/-! ## The uses of a name -/

/-- The names that are used in records, each once. -/
def namesUsed (records : List UsageRecord) : List String :=
  ((parametersOf records).map Parameter.name).dedup

/-- The number of parameters with a name. -/
def usesOf (records : List UsageRecord) (name : String) : Nat :=
  (parametersOf records).countP fun parameter => parameter.name = name

/-- The number of parameters with a name and a type. -/
def usesWith (records : List UsageRecord) (name type : String) : Nat :=
  (parametersOf records).countP fun parameter => parameter.name = name ∧ parameter.type = type

/-- The type used most often with a name; of several such types, the smallest. -/
structure IsMainType (records : List UsageRecord) (name type : String) : Prop where
  used : 0 < usesWith records name type
  most : ∀ other, usesWith records name other ≤ usesWith records name type
  smallest : ∀ other, usesWith records name other = usesWith records name type → type ≤ other

section

variable {records : List UsageRecord} {name : String}

theorem mem_namesUsed :
    name ∈ namesUsed records ↔ name ∈ (parametersOf records).map Parameter.name :=
  List.mem_dedup

theorem nodup_namesUsed (records : List UsageRecord) : (namesUsed records).Nodup :=
  List.nodup_dedup _

theorem usesWith_pos_iff {type : String} :
    0 < usesWith records name type ↔ type ∈ (typeCounts records name).keys := by
  simp only [usesWith, List.countP_pos_iff, decide_eq_true_eq, mem_keys_typeCounts]

theorem mem_entries_typeCounts {type : String} {count : Nat} :
    (type, count) ∈ (typeCounts records name).entries ↔
      0 < usesWith records name type ∧ count = usesWith records name type := by
  rw [SortedMap.mem_entries_iff, usesWith_pos_iff]
  constructor
  · intro hcount
    have hkey : type ∈ (typeCounts records name).keys :=
      (SortedMap.mem_keys_iff _).mpr ⟨count, hcount⟩
    rw [get?_typeCounts hkey] at hcount
    exact ⟨hkey, (Option.some.inj hcount).symm⟩
  · rintro ⟨hkey, rfl⟩
    exact get?_typeCounts hkey

/-- The uses of a name are those with all of its types. -/
theorem Summary.count_commonName (records : List UsageRecord) (name : String) :
    (commonName name (typeCounts records name)).count = usesOf records name := by
  rw [commonName, typeCounts, SortedMap.total_countAll, typesUsed, List.length_map, usesOf,
    List.countP_eq_length_filter]
  exact Nat.zero_add _

theorem Summary.isMainType_commonName (hname : name ∈ namesUsed records) :
    IsMainType records name (commonName name (typeCounts records name)).mainType := by
  obtain ⟨parameter, hmem, hparameter⟩ := List.mem_map.mp (mem_namesUsed.mp hname)
  have hpositive : 0 < usesWith records name parameter.type :=
    usesWith_pos_iff.mpr (mem_keys_typeCounts.mpr ⟨parameter, hmem, hparameter, rfl⟩)
  have hne : (typeCounts records name).entries ≠ [] :=
    List.ne_nil_of_mem (mem_entries_typeCounts.mpr ⟨hpositive, rfl⟩)
  obtain ⟨count, hentry, hleast⟩ := exists_mainType hne
  obtain ⟨hused, rfl⟩ := mem_entries_typeCounts.mp hentry
  -- a type that is used is an entry, and does not rank before the main type
  have hafter : ∀ other, 0 < usesWith records name other →
      ¬ RanksBefore (other, usesWith records name other) (mainType (typeCounts records name),
        usesWith records name (mainType (typeCounts records name))) := by
    intro other hother
    rw [← rankKey_lt_iff]
    exact (hleast _ (mem_entries_typeCounts.mpr ⟨hother, rfl⟩)).not_gt
  refine ⟨hused, fun other => ?_, fun other hsame => ?_⟩
  · by_contra hmore
    exact hafter other (by omega) (.inl (Nat.lt_of_not_le hmore))
  · by_contra hsmaller
    exact hafter other (by rw [hsame]; exact hused) (.inr ⟨hsame, lt_of_not_ge hsmaller⟩)

end

/-! ## The ranking of all names -/

/-- What a name is ranked by. -/
def CommonName.uses (entry : CommonName) : String × Nat :=
  (entry.name, entry.count)

theorem CommonName.le_iff (left right : CommonName) :
    CommonName.le left right = true ↔ rankKey left.uses ≤ rankKey right.uses := by
  have hle : CommonName.le left right =
      ((compareOfLessAndEq right.count left.count).then
        ((compareOfLessAndEq left.name right.name).then .eq)).isLE := by
    rw [Ordering.then_eq]
    rfl
  rw [hle]
  simp only [isLE_then_iff, Ordering.isLE_eq, and_true, ← le_iff_lt_or_eq]
  simp only [rankKey, uses, Prod.Lex.toLex_le_toLex, OrderDual.toDual_lt_toDual,
    OrderDual.toDual_inj, eq_comm]

namespace Summary

/-- The names of the ranking are the names that are used. -/
theorem names_ranking_perm (records : List UsageRecord) :
    ((ranking (Tally.ofRecords records).types).map CommonName.name).Perm (namesUsed records) := by
  have hkeys : ((ranking (Tally.ofRecords records).types).map CommonName.name).Perm
      (Tally.ofRecords records).types.keys := by
    have hsorted : (ranking (Tally.ofRecords records).types).Perm
        ((Tally.ofRecords records).types.entries.map fun entry => commonName entry.1 entry.2) :=
      List.mergeSort_perm _ _
    have hnames := hsorted.map CommonName.name
    rwa [List.map_map] at hnames
  have hnodup := hkeys.nodup_iff.mpr (SortedMap.nodup_keys _)
  rw [List.perm_ext_iff_of_nodup hnodup (nodup_namesUsed records)]
  intro name
  rw [List.mem_map, mem_namesUsed]
  constructor
  · rintro ⟨entry, hentry, rfl⟩
    exact (mem_ranking_iff.mp hentry).1
  · intro hname
    exact ⟨commonName name (typeCounts records name), mem_ranking_iff.mpr ⟨hname, rfl⟩, rfl⟩

/-- The ranking has no ties: names are different, and the order decides between any two. -/
theorem ranking_ordered (records : List UsageRecord) :
    (ranking (Tally.ofRecords records).types).Pairwise fun entry other =>
      RanksBefore entry.uses other.uses := by
  have hsorted : (ranking (Tally.ofRecords records).types).Pairwise fun entry other =>
      rankKey entry.uses ≤ rankKey other.uses :=
    (StableSortOf.of_mergeSort CommonName.le_iff _).ordered
  have hnames := List.pairwise_map.mp
    ((names_ranking_perm records).nodup_iff.mpr (nodup_namesUsed records))
  apply (hsorted.and hnames).imp
  rintro entry other ⟨hle, hne⟩
  have hkey : rankKey entry.uses ≠ rankKey other.uses :=
    fun hsame => hne (congrArg Prod.fst (rankKey_injective hsame))
  exact rankKey_lt_iff.mp (lt_of_le_of_ne hle hkey)

end Summary

/-- The list of a summary is the top of the ranking of all names. It is as long as was asked for, or
holds all names when there are fewer; it is strictly in order and has no name twice. A name is
listed with the number of its uses and its main type. A name that is not listed ranks after all
names that are. A longer list starts with the shorter one, and nothing else depends on the length
asked for. -/
theorem commonNames_top_of_ranking (records : List UsageRecord) (top : Nat) :
    let listed := (summarize records top).commonNames
    listed.length = min top (namesUsed records).length ∧
    (listed.Pairwise fun entry other => RanksBefore entry.uses other.uses) ∧
    (listed.map CommonName.name).Nodup ∧
    (∀ entry ∈ listed, entry.name ∈ namesUsed records ∧
      entry.count = usesOf records entry.name ∧
      IsMainType records entry.name entry.mainType) ∧
    (∀ name ∈ namesUsed records, name ∉ listed.map CommonName.name →
      ∀ entry ∈ listed, RanksBefore entry.uses (name, usesOf records name)) ∧
    (∀ top', top ≤ top' →
      listed <+: (summarize records top').commonNames ∧
      { summarize records top' with commonNames := listed } = summarize records top) := by
  intro listed
  have hranking := Summary.ranking_ordered records
  have hnames := Summary.names_ranking_perm records
  have hlisted : listed = (Summary.ranking (Tally.ofRecords records).types).take top := rfl
  have hsplit := List.take_append_drop top (Summary.ranking (Tally.ofRecords records).types)
  rw [← hlisted] at hsplit
  refine ⟨?_, ?_, ?_, ?_, ?_, ?_⟩
  · rw [hlisted, List.length_take, ← hnames.length_eq, List.length_map]
  · exact hranking.sublist (List.take_sublist _ _)
  · exact (hnames.nodup_iff.mpr (nodup_namesUsed records)).sublist ((List.take_sublist _ _).map _)
  · intro entry hentry
    obtain ⟨hname, heq⟩ := Summary.mem_ranking_iff.mp (List.mem_of_mem_take hentry)
    have hused := mem_namesUsed.mpr hname
    refine ⟨hused, ?_, ?_⟩
    · rw [heq]
      exact Summary.count_commonName records _
    · rw [heq]
      exact Summary.isMainType_commonName hused
  · intro name hname hnot entry hentry
    -- a name that is not listed is ranked below the cut
    have hranked : Summary.commonName name (typeCounts records name) ∈
        Summary.ranking (Tally.ofRecords records).types :=
      Summary.mem_ranking_iff.mpr ⟨mem_namesUsed.mp hname, rfl⟩
    have hrest : Summary.commonName name (typeCounts records name) ∈
        (Summary.ranking (Tally.ofRecords records).types).drop top := by
      rw [← hsplit] at hranked
      rcases List.mem_append.mp hranked with habove | hbelow
      · exact absurd (List.mem_map_of_mem habove) hnot
      · exact hbelow
    rw [← hsplit] at hranking
    have hbefore := (List.pairwise_append.mp hranking).2.2 entry hentry _ hrest
    rw [← Summary.count_commonName records name]
    exact hbefore
  · intro top' htop
    exact ⟨List.take_prefix_take_left htop, rfl⟩

end LogCensus
