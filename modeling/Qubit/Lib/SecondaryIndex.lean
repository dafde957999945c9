import Mathlib.Algebra.BigOperators.Group.Finset.Piecewise
import Mathlib.Data.Multiset.FinsetOps
import Mathlib.Logic.Function.Basic
import Qubit.Lib.FiniteMap

/-!
# Secondary indices over a multiset of records

A program that looks records up by an attribute keeps them grouped: a map from
the attribute to the list of records that have it. Such a map is an *index* of
the multiset of all records by that attribute. Several indices of one multiset,
each by its own attribute, are redundant views of the same data, and the usual
consistency conditions between them all follow from sharing the multiset.

The operations are the two that a program performs on all its views at once:
adding a record that is not stored yet, and substituting one attribute value by
another in every record, which moves a whole list to another key and rewrites
the records in place.
-/

namespace Finmap

universe u v

variable {K : Type u} {E : Type v} [DecidableEq K]

/-- `map` groups the records by `key`: under each value, in some order, the records that have it. -/
def IsIndexOf (map : Finmap fun _ : K => List E) (key : E → K) (records : Multiset E) : Prop :=
  ∀ value, (map.row value : Multiset E) = records.filter (fun record => key record = value)

/-- Append to the list under a key, unless the list already contains the record. -/
def pushNew [DecidableEq E] (key : K) (record : E) (map : Finmap fun _ : K => List E) :
    Finmap fun _ : K => List E :=
  map.insert key (if record ∈ map.row key then map.row key else map.row key ++ [record])

/-- Remove the list stored under `source`, if any, and append it to the list under `target`. -/
def moveRow (source target : K) (map : Finmap fun _ : K => List E) : Finmap fun _ : K => List E :=
  match map.lookup source with
  | none => map
  | some records =>
      (map.erase source).insert target ((map.erase source).row target ++ records)

theorem lookup_moveRow (source target value : K) (map : Finmap fun _ : K => List E) :
    (map.moveRow source target).lookup value =
      if value = target then
        ((map.erase source).lookup target).merge (· ++ ·) (map.lookup source)
      else (map.erase source).lookup value := by
  unfold moveRow
  cases found : map.lookup source with
  | none =>
      have absent : map.erase source = map := by
        apply ext_lookup
        intro other
        by_cases same : other = source
        · subst same
          rw [lookup_erase, found]
        · rw [lookup_erase_ne same]
      by_cases same : value = target
      · subst same
        simp [absent]
      · simp [same, absent]
  | some records =>
      by_cases same : value = target
      · subst same
        cases kept : (map.erase source).lookup value with
        | none => simp [row, kept]
        | some old => simp [row, kept]
      · simp [same, lookup_insert_of_ne]

theorem row_moveRow (source target value : K) (map : Finmap fun _ : K => List E) :
    (map.moveRow source target).row value =
      if value = target then (map.erase source).row target ++ map.row source
      else (map.erase source).row value := by
  rw [row, lookup_moveRow]
  split
  · simp only [row]
    cases (map.erase source).lookup target with
    | none => cases map.lookup source with
      | none => rfl
      | some records => rfl
    | some old => cases map.lookup source with
      | none => simp
      | some records => rfl
  · rfl

theorem mem_pushNew [DecidableEq E] {key other : K} {record : E}
    {map : Finmap fun _ : K => List E} :
    other ∈ map.pushNew key record ↔ other = key ∨ other ∈ map := by
  rw [Finmap.pushNew, mem_insert]

theorem mem_moveRow {source target other : K} {map : Finmap fun _ : K => List E}
    (moved : other ∈ map.moveRow source target) :
    ∃ old ∈ map, Function.update id source target old = other := by
  unfold moveRow at moved
  cases found : map.lookup source with
  | none =>
      rw [found] at moved
      refine ⟨other, moved, Function.update_of_ne ?_ ..⟩
      rintro rfl
      rw [lookup_eq_none] at found
      exact found moved
  | some records =>
      rw [found] at moved
      rcases mem_insert.mp moved with rfl | kept
      · exact ⟨source, mem_of_lookup_eq_some found, Function.update_self ..⟩
      · rw [mem_erase] at kept
        exact ⟨other, kept.2, Function.update_of_ne kept.1 ..⟩

/-- Grouped by a key, the records are as many as they are in total. -/
theorem sum_card_filter {key : E → K} {keys : Finset K} {records : Multiset E}
    (mem_keys : ∀ record ∈ records, key record ∈ keys) :
    ∑ value ∈ keys, (records.filter fun record => key record = value).card = records.card := by
  induction records using Multiset.induction_on with
  | empty => simp
  | cons first rest ih =>
      have restKeys := fun record member => mem_keys record (Multiset.mem_cons_of_mem member)
      have firstKey := mem_keys first (Multiset.mem_cons_self first rest)
      rw [Multiset.card_cons, ← ih restKeys]
      simp only [Multiset.filter_cons, Multiset.card_add, Finset.sum_add_distrib,
        apply_ite Multiset.card, Multiset.card_singleton, Multiset.card_zero]
      rw [Finset.sum_ite_eq, if_pos firstKey, add_comm]

namespace IsIndexOf

variable {map : Finmap fun _ : K => List E} {key : E → K} {records : Multiset E}

protected theorem empty (key : E → K) : (∅ : Finmap fun _ : K => List E).IsIndexOf key 0 := by
  intro value
  simp

theorem mem_row_iff (index : map.IsIndexOf key records) {value : K} {record : E} :
    record ∈ map.row value ↔ record ∈ records ∧ key record = value := by
  rw [← Multiset.mem_coe, index value, Multiset.mem_filter]

theorem count_row [DecidableEq E] (index : map.IsIndexOf key records) (value : K) (record : E) :
    (map.row value).count record = if key record = value then records.count record else 0 := by
  rw [← Multiset.coe_count, index value, Multiset.count_filter]

theorem key_mem (index : map.IsIndexOf key records) {record : E} (stored : record ∈ records) :
    key record ∈ map := by
  by_contra absent
  have listed := index.mem_row_iff.mpr ⟨stored, rfl⟩
  rw [row, lookup_eq_none.mpr absent] at listed
  simp at listed

/-- The lists of an index are together as long as there are records. -/
theorem sum_length_row (index : map.IsIndexOf key records) :
    ∑ value ∈ map.keys, (map.row value).length = records.card := by
  rw [← sum_card_filter fun record stored => mem_keys.mpr (index.key_mem stored)]
  refine Finset.sum_congr rfl fun value _ => ?_
  rw [← index value, Multiset.coe_card]

theorem nodup_iff [DecidableEq E] (index : map.IsIndexOf key records) :
    (∀ value, (map.row value).Nodup) ↔ records.Nodup := by
  constructor
  · intro rowsNodup
    rw [Multiset.nodup_iff_count_le_one]
    intro record
    have atMostOne := List.nodup_iff_count_le_one.mp (rowsNodup (key record)) record
    rwa [index.count_row, if_pos rfl] at atMostOne
  · intro nodup value
    rw [← Multiset.coe_nodup, index value]
    exact nodup.filter _

theorem pushNew [DecidableEq E] (index : map.IsIndexOf key records) (record : E) :
    (map.pushNew (key record) record).IsIndexOf key (records.ndinsert record) := by
  intro value
  have stored : record ∈ map.row (key record) ↔ record ∈ records := by
    simp [index.mem_row_iff]
  unfold Finmap.pushNew
  by_cases present : record ∈ records
  · rw [Multiset.ndinsert_of_mem present, if_pos (stored.mpr present), ← index value]
    by_cases same : value = key record
    · rw [same, row_insert_self]
    · rw [row_insert_of_ne same]
  · rw [Multiset.ndinsert_of_notMem present, if_neg (fun mem => present (stored.mp mem)),
      Multiset.filter_cons, ← index value]
    by_cases same : value = key record
    · subst same
      rw [row_insert_self, if_pos rfl, ← Multiset.coe_add, Multiset.coe_singleton, add_comm]
    · rw [row_insert_of_ne same, if_neg (Ne.symm same), zero_add]

/--
Substituting `source` by `target` in the records. The list of `source` moves behind the list of
`target`, and then every record is rewritten in place.
-/
theorem substitute (index : map.IsIndexOf key records) {source target : K} {rewrite : E → E}
    (key_rewrite : ∀ record, key (rewrite record) = Function.update id source target (key record)) :
    ((map.moveRow source target).mapValues (List.map rewrite)).IsIndexOf key
      (records.map rewrite) := by
  classical
  intro value
  rw [row_mapValues, ← Multiset.map_coe, Multiset.filter_map]
  congr 1
  ext record
  rw [Multiset.count_filter, Multiset.coe_count, row_moveRow]
  simp only [Function.comp_apply, key_rewrite, Function.update_apply, id_eq]
  by_cases onTarget : value = target
  · subst onTarget
    rw [if_pos rfl, List.count_append, index.count_row]
    by_cases same : value = source
    · subst same
      simp
    · rw [row_erase_of_ne same, index.count_row]
      by_cases moved : key record = source
      · simp [moved, Ne.symm same]
      · simp [moved]
  · rw [if_neg onTarget]
    by_cases same : value = source
    · subst same
      by_cases moved : key record = value
      · simp [moved, Ne.symm onTarget]
      · simp [moved]
    · rw [row_erase_of_ne same, index.count_row]
      by_cases moved : key record = source
      · simp [moved, Ne.symm same, Ne.symm onTarget]
      · simp [moved]

end IsIndexOf

end Finmap
