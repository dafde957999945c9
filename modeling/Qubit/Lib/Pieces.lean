import Mathlib.Data.Multiset.Filter
import Mathlib.Order.Interval.Finset.Nat
import Qubit.Lib.FiniteMap

/-!
# A list in pieces

Consecutive slices of one size put together give the list back, or its beginning when
they are too few. Grouping by a key keeps the items of a group in their order, and the
groups put together are a permutation of the items. A walk over the keys `1, 2, …` as
far as there are keys meets all of them when no number is missing before a key.
-/

universe u v

namespace Pieces

variable {A : Type u} {K : Type v}

/-- At most `size` items from position `start` on. -/
def slice (start size : ℕ) (items : List A) : List A :=
  (items.drop start).take size

/-- Slices of one size, as many as the items fill. -/
def slices (size : ℕ) (items : List A) : List (List A) :=
  (List.range ((items.length + size - 1) / size)).map fun index => slice (index * size) size items

theorem flatMap_slice (size count : ℕ) (items : List A) :
    ((List.range count).flatMap fun index => slice (index * size) size items) =
      items.take (count * size) := by
  induction count with
  | zero => simp
  | succ count ih =>
      rw [List.range_succ, List.flatMap_append, ih, List.flatMap_singleton, slice,
        Nat.add_mul, Nat.one_mul, List.take_add]

theorem le_ceil_mul (size length : ℕ) (positive : 0 < size) :
    length ≤ (length + size - 1) / size * size := by
  have split := Nat.div_add_mod (length + size - 1) size
  have remainder := Nat.mod_lt (length + size - 1) positive
  rw [Nat.mul_comm] at split
  omega

theorem flatten_slices {size : ℕ} (positive : 0 < size) (items : List A) :
    (slices size items).flatten = items := by
  rw [slices, ← List.flatMap_def, flatMap_slice]
  exact List.take_of_length_le (le_ceil_mul size items.length positive)

/-! ## Groups -/

variable [DecidableEq K]

/-- The items under their keys, those of one key in their order. -/
def groupBy (key : A → K) (items : List A) : Finmap fun _ : K => List A :=
  items.foldl (fun groups item => groups.insert (key item) (groups.row (key item) ++ [item])) ∅

theorem groupBy_concat (key : A → K) (items : List A) (item : A) :
    groupBy key (items ++ [item]) =
      (groupBy key items).insert (key item) ((groupBy key items).row (key item) ++ [item]) := by
  rw [groupBy, List.foldl_append]
  rfl

theorem row_groupBy (key : A → K) (items : List A) (value : K) :
    (groupBy key items).row value = items.filter fun item => key item = value := by
  induction items using List.reverseRecOn with
  | nil => simp [groupBy]
  | append_singleton items item ih =>
      rw [groupBy_concat, List.filter_append, ← ih]
      by_cases same : key item = value
      · subst same
        simp
      · simp [same, Finmap.row_insert_of_ne (Ne.symm same)]

theorem mem_groupBy {key : A → K} {items : List A} {value : K} :
    value ∈ groupBy key items ↔ ∃ item ∈ items, key item = value := by
  induction items using List.reverseRecOn with
  | nil =>
      rw [groupBy, List.foldl_nil]
      simp [Finmap.notMem_empty]
  | append_singleton items item ih =>
      rw [groupBy_concat, Finmap.mem_insert, ih]
      simp only [List.mem_append, List.mem_singleton]
      constructor
      · rintro (rfl | ⟨other, otherMem, rfl⟩)
        · exact ⟨item, Or.inr rfl, rfl⟩
        · exact ⟨other, Or.inl otherMem, rfl⟩
      · rintro ⟨other, otherMem | rfl, rfl⟩
        · exact Or.inr ⟨other, otherMem, rfl⟩
        · exact Or.inl rfl

/-- The groups of different keys, put together. -/
theorem flatMap_filter_perm (key : A → K) {keys : List K} (nodup : keys.Nodup)
    (items : List A) :
    (keys.flatMap fun value => items.filter fun item => key item = value).Perm
      (items.filter fun item => key item ∈ keys) := by
  induction keys with
  | nil => simp
  | cons value rest ih =>
      rw [List.nodup_cons] at nodup
      rw [List.flatMap_cons]
      refine ((ih nodup.2).append_left _).trans ?_
      rw [← Multiset.coe_eq_coe, ← Multiset.coe_add, ← Multiset.filter_coe,
        ← Multiset.filter_coe, ← Multiset.filter_coe, Multiset.filter_add_filter]
      have disjoint : (items : Multiset A).filter
          (fun item => key item = value ∧ key item ∈ rest) = 0 := by
        rw [Multiset.filter_eq_nil]
        rintro item - ⟨rfl, later⟩
        exact nodup.1 later
      rw [disjoint, add_zero]
      simp only [List.mem_cons]

/-- Lists under different keys that hold items of their key only, put together. -/
theorem count_flatMap_of_keyed [DecidableEq A] {key : A → K} {rows : K → List A}
    (keyed : ∀ value, ∀ item ∈ rows value, key item = value) {keys : List K} (nodup : keys.Nodup)
    (item : A) :
    (keys.flatMap rows).count item =
      if key item ∈ keys then (rows (key item)).count item else 0 := by
  induction keys with
  | nil => simp
  | cons first rest ih =>
      rw [List.nodup_cons] at nodup
      rw [List.flatMap_cons, List.count_append, ih nodup.2]
      by_cases isFirst : key item = first
      · subst isFirst
        simp [nodup.1]
      · have absent : (rows first).count item = 0 :=
          List.count_eq_zero.mpr fun itemMem => isFirst (keyed first item itemMem)
        simp [absent, isFirst]

/-- A walk over the keys from one on meets the items outside group zero. -/
theorem flatMap_range_filter_perm (key : A → ℕ) {items : List A} {count : ℕ}
    (inside : ∀ item ∈ items, 1 ≤ key item ∧ key item ≤ count ↔ key item ≠ 0) :
    ((List.range count).flatMap fun index => items.filter fun item => key item = index + 1).Perm
      (items.filter fun item => key item ≠ 0) := by
  have nodup : ((List.range count).map (· + 1)).Nodup :=
    List.nodup_range.map (add_left_injective 1)
  have perm := flatMap_filter_perm key nodup items
  rw [List.flatMap_map] at perm
  refine perm.trans (List.Perm.of_eq (List.filter_congr ?_))
  intro item member
  rw [decide_eq_decide, ← inside item member, List.mem_map]
  constructor
  · rintro ⟨index, index_lt, key_eq⟩
    rw [List.mem_range] at index_lt
    omega
  · rintro ⟨positive, le_count⟩
    refine ⟨key item - 1, ?_, ?_⟩
    · rw [List.mem_range]
      omega
    · omega

/-- Numbers from one on without a gap are those up to how many they are. -/
theorem eq_Icc_card {keys : Finset ℕ} (zero_notMem : 0 ∉ keys)
    (noGap : ∀ value, value + 2 ∈ keys → value + 1 ∈ keys) : keys = Finset.Icc 1 keys.card := by
  have below : ∀ value ∈ keys, Finset.Icc 1 value ⊆ keys := by
    intro value
    induction value with
    | zero => exact fun zero => absurd zero zero_notMem
    | succ value ih =>
        intro present
        cases value with
        | zero => simpa using present
        | succ value =>
            have earlier := ih (noGap value present)
            intro smaller inside
            rw [Finset.mem_Icc] at inside
            by_cases last : smaller = value + 1 + 1
            · rwa [last]
            · exact earlier (Finset.mem_Icc.mpr ⟨inside.1, by omega⟩)
  refine Finset.eq_of_subset_of_card_le ?_ (by simp)
  intro value present
  have card_le := Finset.card_le_card (below value present)
  rw [Nat.card_Icc] at card_le
  have positive : value ≠ 0 := fun zero => zero_notMem (zero ▸ present)
  rw [Finset.mem_Icc]
  omega

end Pieces
