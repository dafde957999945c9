import Mathlib.Data.Finmap

/-!
# Finite maps as mutable hash maps

Mathlib's `Finmap` is the model of a hash map used throughout: two maps are
equal when they hold the same values under the same keys, so nothing can depend
on a bucket order by accident. This file adds the operations a program performs
on such a map and Mathlib does not name: mapping every value in place, inserting
only into a vacant entry, and reading a map of lists with an absent entry taken
as the empty list.

A program that iterates over a hash map sees some listing of it. That order is
an association list `order` with `order.toFinmap = map`, and statements about
iteration quantify over all of them.
-/

namespace Finmap

universe u v w

variable {K : Type u} {V : Type v} {W : Type w}

/-- Every value replaced by its image, the keys unchanged. -/
def mapValues (f : V → W) (map : Finmap fun _ : K => V) : Finmap fun _ : K => W where
  entries := map.entries.map (Sigma.map id fun _ => f)
  nodupKeys := by
    rw [← Multiset.nodup_keys, Multiset.keys, Multiset.map_map]
    exact Multiset.nodup_keys.mpr map.nodupKeys

theorem exists_listing (map : Finmap fun _ : K => V) :
    ∃ order : AList fun _ : K => V, order.toFinmap = map := by
  induction map using Finmap.induction_on with
  | H order => exact ⟨order, rfl⟩

variable [DecidableEq K]

@[simp]
theorem lookup_mapValues (f : V → W) (map : Finmap fun _ : K => V) (key : K) :
    (map.mapValues f).lookup key = (map.lookup key).map f := by
  induction map using Finmap.induction_on with
  | H order =>
      exact @List.dlookup_map₂ K _ (fun _ => V) (fun _ => W) order.entries (fun _ => f) key

@[simp]
theorem mem_mapValues {f : V → W} {map : Finmap fun _ : K => V} {key : K} :
    key ∈ map.mapValues f ↔ key ∈ map := by
  rw [← lookup_isSome, ← lookup_isSome, lookup_mapValues, Option.isSome_map]

/-- `insert`, unless the key is already there. -/
def insertNew (key : K) (value : V) (map : Finmap fun _ : K => V) : Finmap fun _ : K => V :=
  if key ∈ map then map else map.insert key value

@[simp]
theorem mem_insertNew {key other : K} {value : V} {map : Finmap fun _ : K => V} :
    other ∈ map.insertNew key value ↔ other = key ∨ other ∈ map := by
  unfold insertNew
  split
  · rename_i present
    constructor
    · exact Or.inr
    · rintro (rfl | old)
      · exact present
      · exact old
  · exact mem_insert

theorem lookup_insertNew (key other : K) (value : V) (map : Finmap fun _ : K => V) :
    (map.insertNew key value).lookup other =
      if other = key then (map.lookup key).or (some value) else map.lookup other := by
  unfold insertNew
  by_cases same : other = key
  · subst same
    by_cases present : other ∈ map
    · rcases mem_iff.mp present with ⟨old, found⟩
      simp [present, found]
    · simp [present, lookup_eq_none.mpr present]
  · split
    · rfl
    · simp [same, lookup_insert_of_ne]

/-- The list stored under a key, empty when the key is absent. -/
def row (map : Finmap fun _ : K => List V) (key : K) : List V :=
  (map.lookup key).getD []

@[simp]
theorem row_empty (key : K) : (∅ : Finmap fun _ : K => List V).row key = [] := by
  simp [row]

@[simp]
theorem row_insert_self (key : K) (values : List V) (map : Finmap fun _ : K => List V) :
    (map.insert key values).row key = values := by
  simp [row]

theorem row_insert_of_ne {key other : K} (ne : other ≠ key) (values : List V)
    (map : Finmap fun _ : K => List V) :
    (map.insert key values).row other = map.row other := by
  simp [row, lookup_insert_of_ne _ ne]

@[simp]
theorem row_erase_self (key : K) (map : Finmap fun _ : K => List V) :
    (map.erase key).row key = [] := by
  simp [row]

theorem row_erase_of_ne {key other : K} (ne : other ≠ key)
    (map : Finmap fun _ : K => List V) :
    (map.erase key).row other = map.row other := by
  simp [row, lookup_erase_ne ne]

@[simp]
theorem row_mapValues (f : V → W) (map : Finmap fun _ : K => List V) (key : K) :
    (map.mapValues (List.map f)).row key = (map.row key).map f := by
  rw [row, row, lookup_mapValues]
  cases map.lookup key <;> rfl

theorem mem_entries_iff_lookup {order : AList fun _ : K => V} {key : K} {value : V} :
    ⟨key, value⟩ ∈ order.entries ↔ order.toFinmap.lookup key = some value := by
  rw [lookup_toFinmap]
  exact (List.mem_dlookup_iff order.nodupKeys).symm

theorem exists_listing_last {map : Finmap fun _ : K => V} {key : K} {value : V}
    (found : map.lookup key = some value) :
    ∃ (order : AList fun _ : K => V) (before : List (Sigma fun _ : K => V)),
      order.toFinmap = map ∧ order.entries = before ++ [⟨key, value⟩] := by
  rcases exists_listing (map.erase key) with ⟨others, listing⟩
  have absent : ∀ entry ∈ others.entries, entry.1 ≠ key := by
    rintro ⟨other, otherValue⟩ member
    rintro rfl
    rw [mem_entries_iff_lookup, listing, lookup_erase] at member
    cases member
  have nodup : (others.entries ++ [Sigma.mk key value]).NodupKeys := by
    rw [List.NodupKeys, List.keys, List.map_append, List.nodup_append]
    refine ⟨others.nodupKeys, List.nodup_singleton key, ?_⟩
    intro other member last lastMem
    rw [List.map_singleton, List.mem_singleton] at lastMem
    rcases List.mem_map.mp member with ⟨entry, entryMem, rfl⟩
    rw [lastMem]
    exact absent entry entryMem
  refine ⟨⟨others.entries ++ [⟨key, value⟩], nodup⟩, others.entries, ?_, rfl⟩
  refine ext_lookup fun other => Option.ext fun otherValue => ?_
  rw [← mem_entries_iff_lookup, List.mem_append, List.mem_singleton, mem_entries_iff_lookup,
    listing]
  by_cases same : other = key
  · subst same
    rw [lookup_erase, found]
    simp [eq_comm]
  · rw [lookup_erase_ne same]
    simp [same]

theorem exists_listing_first {map : Finmap fun _ : K => V} {key : K} {value : V}
    (found : map.lookup key = some value) :
    ∃ (order : AList fun _ : K => V) (after : List (Sigma fun _ : K => V)),
      order.toFinmap = map ∧ order.entries = ⟨key, value⟩ :: after := by
  rcases exists_listing_last found with ⟨order, before, listing, split⟩
  have perm := List.reverse_perm order.entries
  refine ⟨⟨order.entries.reverse, (List.perm_nodupKeys perm).mpr order.nodupKeys⟩,
    before.reverse, ?_, by simp [split]⟩
  rw [← listing, AList.toFinmap_eq]
  exact perm

/-- The elements of a map of lists, as met by any iteration over its values. -/
theorem mem_flatMap_entries_iff {order : AList fun _ : K => List V} {value : V} :
    value ∈ order.entries.flatMap (·.2) ↔ ∃ key, value ∈ order.toFinmap.row key := by
  rw [List.mem_flatMap]
  constructor
  · rintro ⟨⟨key, values⟩, listed, member⟩
    refine ⟨key, ?_⟩
    rw [row, mem_entries_iff_lookup.mp listed]
    exact member
  · rintro ⟨key, member⟩
    rw [row] at member
    cases found : order.toFinmap.lookup key with
    | none => simp [found] at member
    | some values =>
        rw [found] at member
        exact ⟨⟨key, values⟩, mem_entries_iff_lookup.mpr found, member⟩

/-- The map that holds `value key` under each of the keys for which there is one. -/
def tabulate (keys : Finset K) (value : K → Option V) : Finmap fun _ : K => V where
  entries := keys.val.filterMap fun key => (value key).map (Sigma.mk key)
  nodupKeys := by
    rw [← Multiset.nodup_keys, Multiset.keys, Multiset.map_filterMap]
    refine Multiset.Nodup.filterMap _ ?_ keys.nodup
    intro key other found
    cases value key <;> cases value other <;> simp_all

@[simp]
theorem lookup_tabulate (keys : Finset K) (value : K → Option V) (key : K) :
    (tabulate keys value).lookup key = if key ∈ keys then value key else none := by
  apply Option.ext
  intro found
  rw [Option.mem_def.symm, mem_lookup_iff, tabulate]
  simp only [Multiset.mem_filterMap, Finset.mem_val, Option.map_eq_some_iff]
  constructor
  · rintro ⟨other, listed, stored, same, ⟨⟩⟩
    rw [if_pos listed, same]
  · intro stored
    split at stored
    · rename_i listed
      exact ⟨key, listed, found, stored, rfl⟩
    · cases stored

/-! ## Collecting entries -/

/-- Insert entries one after another into an empty map. -/
def collect (entries : List (K × V)) : Finmap fun _ : K => V :=
  entries.foldl (fun map entry => map.insert entry.1 entry.2) ∅

theorem lookup_collect_concat (entries : List (K × V)) (entry : K × V) (key : K) :
    (collect (entries ++ [entry])).lookup key =
      if entry.1 = key then some entry.2 else (collect entries).lookup key := by
  rw [collect, List.foldl_append, List.foldl_cons, List.foldl_nil]
  by_cases same : entry.1 = key
  · subst same
    rw [lookup_insert, if_pos rfl]
  · rw [lookup_insert_of_ne _ (Ne.symm same), if_neg same]
    rfl

/-- The last entry with a key decides. -/
theorem lookup_collect (entries : List (K × V)) (key : K) :
    (collect entries).lookup key =
      (entries.filterMap fun entry => if entry.1 = key then some entry.2 else none).getLast? := by
  induction entries using List.reverseRecOn with
  | nil => rfl
  | append_singleton entries entry ih =>
      rw [lookup_collect_concat, List.filterMap_append, List.getLast?_append, ih]
      by_cases same : entry.1 = key
      · simp [same]
      · simp [same]

theorem mem_of_lookup_collect {entries : List (K × V)} {key : K} {value : V}
    (found : (collect entries).lookup key = some value) : (key, value) ∈ entries := by
  induction entries using List.reverseRecOn with
  | nil => cases found
  | append_singleton entries entry ih =>
      rw [lookup_collect_concat] at found
      split at found
      · rename_i same
        rw [Option.some.injEq] at found
        subst same found
        simp
      · exact List.mem_append_left _ (ih found)

theorem exists_lookup_collect {entries : List (K × V)} {key : K} {value : V}
    (member : (key, value) ∈ entries) : ∃ found, (collect entries).lookup key = some found := by
  induction entries using List.reverseRecOn with
  | nil => cases member
  | append_singleton entries entry ih =>
      rw [lookup_collect_concat]
      split
      · exact ⟨entry.2, rfl⟩
      · rename_i different
        rcases List.mem_append.mp member with old | last
        · exact ih old
        · exact absurd (congrArg Prod.fst (List.mem_singleton.mp last)).symm different

theorem lookup_collect_of_forall {entries : List (K × V)} {key : K} {value : V}
    (member : (key, value) ∈ entries)
    (unique : ∀ entry ∈ entries, entry.1 = key → entry.2 = value) :
    (collect entries).lookup key = some value := by
  rcases exists_lookup_collect member with ⟨other, found⟩
  have same : other = value := unique (key, other) (mem_of_lookup_collect found) rfl
  rw [found, same]

theorem lookup_collect_iff {entries : List (K × V)}
    (functional : ∀ entry ∈ entries, ∀ other ∈ entries, entry.1 = other.1 → entry = other)
    {key : K} {value : V} :
    (collect entries).lookup key = some value ↔ (key, value) ∈ entries := by
  constructor
  · exact mem_of_lookup_collect
  · intro member
    refine lookup_collect_of_forall member fun entry entryMem same => ?_
    rw [functional entry entryMem _ member same]

end Finmap
