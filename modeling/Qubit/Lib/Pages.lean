import Mathlib.Data.List.Count
import Mathlib.Order.Defs.LinearOrder
import Qubit.Lib.Pieces

/-!
# Pages of an ordering that leaves ties open

A query with a sort key, a limit and an offset returns a slice of some ordering of the
items by that key. Items of one key are ordered arbitrarily, and differently in the next
query. Pages read one after another then return every item once exactly when no page
boundary lies between two different items of one key: elsewhere the items before the
boundary are the same in every ordering.
-/

universe u v

namespace Pages

open Pieces (slice flatMap_slice)

variable {A : Type u} {K : Type v} [LinearOrder K] {key : A → K}

/-- A listing of the items by descending key. -/
structure IsOrdering (key : A → K) (items order : List A) : Prop where
  perm : order.Perm items
  sorted : order.Pairwise fun item later => key later ≤ key item

def above (key : A → K) (value : K) (items : List A) : List A :=
  items.filter fun item => value < key item

def tied (key : A → K) (value : K) (items : List A) : List A :=
  items.filter fun item => key item = value

def below (key : A → K) (value : K) (items : List A) : List A :=
  items.filter fun item => key item < value

/-- A cut after `position` items separates two different items of one key. -/
def SplitsTie (key : A → K) (items : List A) (position : ℕ) : Prop :=
  ∃ value, (above key value items).length < position ∧
    position < (above key value items).length + (tied key value items).length ∧
      ∃ item ∈ items, ∃ other ∈ items, key item = value ∧ key other = value ∧ item ≠ other

theorem eq_of_perm_of_uniform {first second : List A} (perm : first.Perm second)
    (uniform : ∀ item ∈ first, ∀ other ∈ first, item = other) : first = second := by
  cases first with
  | nil => exact perm.nil_eq
  | cons item rest =>
      have all : item :: rest = List.replicate (rest.length + 1) item :=
        List.eq_replicate_of_mem fun other member => uniform other member item List.mem_cons_self
      rw [all] at perm ⊢
      exact (List.perm_replicate.mp perm.symm).symm

theorem isOrdering_mergeSort (key : A → K) (items : List A) :
    IsOrdering key items (items.mergeSort fun item later => key later ≤ key item) := by
  refine ⟨List.mergeSort_perm _ _, ?_⟩
  have sorted : (items.mergeSort fun item later => key later ≤ key item).Pairwise
      fun item later => decide (key later ≤ key item) = true := by
    apply List.pairwise_mergeSort
    · simpa using fun first second third le le' => le_trans le' le
    · simpa using fun first second => le_total (key second) (key first)
  simpa using sorted

theorem exists_ordering (key : A → K) (items : List A) : ∃ order, IsOrdering key items order :=
  ⟨_, isOrdering_mergeSort key items⟩

/-- The first item of an ordering has the greatest key. -/
theorem le_head_of_isOrdering {key : A → K} {items rest : List A} {first : A}
    (ordered : IsOrdering key items (first :: rest)) {item : A} (member : item ∈ items) :
    key item ≤ key first := by
  rcases List.mem_cons.mp (ordered.1.mem_iff.mpr member) with rfl | later
  · exact le_rfl
  · exact (List.pairwise_cons.mp ordered.2).1 item later

/-- A descending listing is what is above a value, then what has it, then what is below. -/
theorem eq_append_of_sorted {order : List A}
    (sorted : order.Pairwise fun item later => key later ≤ key item) (value : K) :
    order = above key value order ++ (tied key value order ++ below key value order) := by
  induction order with
  | nil => rfl
  | cons item rest ih =>
      rw [List.pairwise_cons] at sorted
      have rest_eq := ih sorted.2
      simp only [above, tied, below, List.filter_cons] at rest_eq ⊢
      rcases lt_trichotomy (key item) value with less | same | more
      · have noneAbove : rest.filter (fun later => value < key later) = [] := by
          simpa using fun later member => (sorted.1 later member).trans less.le
        have noneTied : rest.filter (fun later => key later = value) = [] := by
          simpa using fun later member => ((sorted.1 later member).trans_lt less).ne
        rw [noneAbove, noneTied] at rest_eq ⊢
        simpa [less, less.not_gt, less.ne] using rest_eq
      · have noneAbove : rest.filter (fun later => value < key later) = [] := by
          simpa using fun later member => (sorted.1 later member).trans same.le
        rw [noneAbove] at rest_eq ⊢
        simpa [same] using rest_eq
      · simpa [more, more.not_gt, more.ne'] using rest_eq

namespace IsOrdering

variable {items order other : List A}

theorem above_perm (ordering : IsOrdering key items order) (value : K) :
    (above key value order).Perm (above key value items) :=
  ordering.perm.filter _

theorem tied_perm (ordering : IsOrdering key items order) (value : K) :
    (tied key value order).Perm (tied key value items) :=
  ordering.perm.filter _

/-- The items of one key may be listed in any other order. -/
theorem replace_tied (ordering : IsOrdering key items order) {value : K} {ties : List A}
    (perm : ties.Perm (tied key value order)) :
    IsOrdering key items (above key value order ++ (ties ++ below key value order)) where
  perm := by
    refine (((perm.append_right _).append_left _).trans ?_).trans ordering.perm
    rw [← eq_append_of_sorted ordering.sorted value]
  sorted := by
    have sorted := ordering.sorted
    rw [eq_append_of_sorted ordering.sorted value] at sorted
    simp only [List.pairwise_append] at sorted ⊢
    rcases sorted with ⟨aboveSorted, ⟨-, belowSorted, -⟩, aboveRest⟩
    have tie : ∀ item ∈ ties, key item = value := by
      intro item member
      have inOrder := perm.mem_iff.mp member
      simpa using (List.mem_filter.mp inOrder).2
    refine ⟨aboveSorted, ⟨?_, belowSorted, ?_⟩, ?_⟩
    · refine List.pairwise_of_forall_mem_list ?_
      intro item member later laterMem
      rw [tie item member, tie later laterMem]
    · intro item member later laterMem
      rw [tie item member]
      have less := (List.mem_filter.mp laterMem).2
      simp only [decide_eq_true_eq] at less
      exact less.le
    · intro item member later laterMem
      rw [List.mem_append, perm.mem_iff, ← List.mem_append] at laterMem
      exact aboveRest item member later laterMem

/-- How often an item is among the first ones depends on the ordering only through its ties. -/
theorem count_take [DecidableEq A] (ordering : IsOrdering key items order) (position : ℕ)
    (item : A) :
    (order.take position).count item =
      ((tied key (key item) order).take
        (position - (above key (key item) items).length)).count item := by
  have notAbove : item ∉ above key (key item) order := by simp [above]
  have notBelow : item ∉ below key (key item) order := by simp [below]
  have length_eq := (ordering.above_perm (key item)).length_eq
  conv_lhs => rw [eq_append_of_sorted ordering.sorted (key item)]
  rw [List.take_append, List.take_append, List.count_append, List.count_append,
    List.count_eq_zero_of_not_mem fun taken => notAbove (List.mem_of_mem_take taken),
    List.count_eq_zero_of_not_mem fun taken => notBelow (List.mem_of_mem_take taken),
    length_eq, Nat.zero_add, Nat.add_zero]

/-- Where no tie is split, every ordering has the same items before the cut. -/
theorem take_perm_take (ordering : IsOrdering key items order)
    (otherOrdering : IsOrdering key items other) {position : ℕ}
    (whole : ¬SplitsTie key items position) :
    (order.take position).Perm (other.take position) := by
  classical
  rw [List.perm_iff_count]
  intro item
  rw [ordering.count_take, otherOrdering.count_take]
  have tied_perm := (ordering.tied_perm (key item)).trans
    (otherOrdering.tied_perm (key item)).symm
  have tied_length := (ordering.tied_perm (key item)).length_eq
  by_cases before : position ≤ (above key (key item) items).length
  · rw [Nat.sub_eq_zero_of_le before, List.take_zero, List.take_zero]
  · by_cases behind : (above key (key item) items).length + (tied key (key item) items).length ≤
        position
    · rw [List.take_of_length_le (by omega), List.take_of_length_le, tied_perm.count_eq]
      rw [← tied_perm.length_eq]
      omega
    · -- The cut is inside the ties of the item, which are therefore all one item.
      have uniform : ∀ tie ∈ tied key (key item) order, ∀ twin ∈ tied key (key item) order,
          tie = twin := by
        intro tie tieMem twin twinMem
        rw [(ordering.tied_perm _).mem_iff] at tieMem twinMem
        rcases List.mem_filter.mp tieMem with ⟨tieItem, tieKey⟩
        rcases List.mem_filter.mp twinMem with ⟨twinItem, twinKey⟩
        by_contra different
        exact whole ⟨key item, by omega, by omega, tie, tieItem, twin, twinItem,
          by simpa using tieKey, by simpa using twinKey, different⟩
      rw [eq_of_perm_of_uniform tied_perm uniform]

/-- Of two items of one key, either may stand right before a cut among that key. -/
theorem exists_take_eq (ordering : IsOrdering key items order) {value : K} {position : ℕ}
    {first second : A} {rest : List A}
    (perm : (first :: second :: rest).Perm (tied key value order))
    (above_lt : (above key value order).length < position)
    (lt_tied : position < (above key value order).length + (tied key value order).length) :
    ∃ listing, IsOrdering key items listing ∧ listing.take position = above key value order ++
      (rest.take (position - (above key value order).length - 1) ++ [first]) := by
  have rest_length := perm.length_eq
  simp only [List.length_cons] at rest_length
  let cut := position - (above key value order).length - 1
  have tiesPerm : (rest.take cut ++ first :: second :: rest.drop cut).Perm
      (tied key value order) := by
    refine List.Perm.trans ?_ perm
    refine List.perm_middle.trans (List.Perm.cons _ (List.perm_middle.trans ?_))
    rw [List.take_append_drop]
  refine ⟨_, ordering.replace_tied tiesPerm, ?_⟩
  have cut_length : (rest.take cut).length = cut := by
    rw [List.length_take]
    omega
  have position_eq : position =
      (above key value order ++ (rest.take cut ++ [first])).length := by
    simp only [List.length_append, cut_length, List.length_singleton]
    omega
  have regrouped : above key value order ++
      (rest.take cut ++ first :: second :: rest.drop cut ++ below key value order) =
        above key value order ++ (rest.take cut ++ [first]) ++
          (second :: rest.drop cut ++ below key value order) := by
    simp
  rw [regrouped]
  exact List.take_left' position_eq.symm

end IsOrdering

/-- Where a tie is split, two orderings differ in the items before the cut. -/
theorem SplitsTie.exists_orderings {items : List A} {position : ℕ}
    (splits : SplitsTie key items position) :
    ∃ first second, IsOrdering key items first ∧ IsOrdering key items second ∧
      ¬(first.take position).Perm (second.take position) := by
  classical
  rcases splits with
    ⟨value, above_lt, lt_tied, item, itemMem, other, otherMem, item_key, other_key, different⟩
  rcases exists_ordering key items with ⟨order, ordering⟩
  rw [← (ordering.above_perm value).length_eq] at above_lt lt_tied
  rw [← (ordering.tied_perm value).length_eq] at lt_tied
  have mem_tied : ∀ tie ∈ items, key tie = value → tie ∈ tied key value order := by
    intro tie tieMem tie_key
    refine List.mem_filter.mpr ⟨ordering.perm.mem_iff.mpr tieMem, by simpa using tie_key⟩
  have otherLeft : other ∈ (tied key value order).erase item :=
    (List.mem_erase_of_ne different.symm).mpr (mem_tied other otherMem other_key)
  have perm : (item :: other :: ((tied key value order).erase item).erase other).Perm
      (tied key value order) :=
    ((List.perm_cons_erase otherLeft).symm.cons item).trans
      (List.perm_cons_erase (mem_tied item itemMem item_key)).symm
  rcases ordering.exists_take_eq perm above_lt lt_tied with ⟨first, firstOrdering, first_take⟩
  rcases ordering.exists_take_eq ((List.Perm.swap item other _).trans perm) above_lt lt_tied with
    ⟨second, secondOrdering, second_take⟩
  refine ⟨first, second, firstOrdering, secondOrdering, ?_⟩
  rw [first_take, second_take, List.perm_append_left_iff, List.perm_append_left_iff,
    List.singleton_perm_singleton]
  exact different

/-! ## Reading page after page -/

theorem SplitsTie.lt_length {items : List A} {position : ℕ}
    (splits : SplitsTie key items position) : position < items.length := by
  rcases splits with ⟨value, -, lt_tied, -⟩
  rcases exists_ordering key items with ⟨order, ordering⟩
  have split := congrArg List.length (eq_append_of_sorted ordering.sorted value)
  rw [List.length_append, List.length_append, (ordering.above_perm value).length_eq,
    (ordering.tied_perm value).length_eq, ordering.perm.length_eq] at split
  omega

/-- Pages cut from different orderings add up to the beginning of any one ordering. -/
theorem flatMap_slice_perm_take {items order : List A} (ordering : IsOrdering key items order)
    {size : ℕ} (whole : ∀ index, ¬SplitsTie key items (index * size)) {orders : ℕ → List A}
    (orderings : ∀ index, IsOrdering key items (orders index)) (count : ℕ) :
    ((List.range count).flatMap fun index => slice (index * size) size (orders index)).Perm
      (order.take (count * size)) := by
  induction count with
  | zero => simp
  | succ count ih =>
      rw [List.range_succ, List.flatMap_append, List.flatMap_singleton]
      have before := ih.trans (ordering.take_perm_take (orderings count) (whole count))
      refine (before.append_right _).trans ?_
      rw [slice, ← List.take_add]
      have next := (orderings count).take_perm_take ordering (whole (count + 1))
      rwa [Nat.add_mul, Nat.one_mul] at next ⊢

/-- The first pages from one ordering, the others from a second one. -/
theorem flatMap_slice_switch (size : ℕ) {switch count : ℕ} (switch_le : switch ≤ count)
    (first second : List A) :
    ((List.range count).flatMap fun index =>
      slice (index * size) size (if index < switch then first else second)) =
        first.take (switch * size) ++ (second.take (count * size)).drop (switch * size) := by
  rcases Nat.exists_eq_add_of_le switch_le with ⟨later, rfl⟩
  rw [List.range_add, List.flatMap_append, List.flatMap_map]
  congr 1
  · rw [← flatMap_slice]
    refine List.flatMap_congr ?_
    intro index inside
    rw [if_pos (List.mem_range.mp inside)]
  · rw [List.drop_take, ← Nat.sub_mul, Nat.add_sub_cancel_left, ← flatMap_slice]
    refine List.flatMap_congr ?_
    intro index _
    rw [if_neg (by omega), slice, slice, List.drop_drop, Nat.add_mul]

/--
Pages that reach to the end return every item exactly once, whatever ordering each of them
sees, exactly when no page boundary splits a tie.
-/
theorem pages_perm_iff {items : List A} {size count : ℕ}
    (enough : items.length ≤ count * size) :
    (∀ orders : ℕ → List A, (∀ index, IsOrdering key items (orders index)) →
      ((List.range count).flatMap fun index =>
        slice (index * size) size (orders index)).Perm items) ↔
      ∀ index, ¬SplitsTie key items (index * size) := by
  constructor
  · intro partition index splits
    have index_lt : index < count := by
      by_contra ge
      have := Nat.mul_le_mul_right size (not_lt.mp ge)
      have := splits.lt_length
      omega
    rcases splits.exists_orderings with ⟨first, second, firstOrdering, secondOrdering, differ⟩
    have switching : ∀ other, IsOrdering key items (if other < index then first else second) := by
      intro other
      split
      · exact firstOrdering
      · exact secondOrdering
    have read := partition _ switching
    have all_read : second.take (count * size) = second := by
      apply List.take_of_length_le
      rwa [secondOrdering.perm.length_eq]
    rw [flatMap_slice_switch size index_lt.le, all_read] at read
    refine differ ((List.perm_append_right_iff (second.drop (index * size))).mp ?_)
    rw [List.take_append_drop]
    exact read.trans secondOrdering.perm.symm
  · intro whole orders orderings
    rcases exists_ordering key items with ⟨order, ordering⟩
    refine (flatMap_slice_perm_take ordering whole orderings count).trans ?_
    rw [List.take_of_length_le (by rw [ordering.perm.length_eq]; exact enough)]
    exact ordering.perm

end Pages
