import Mathlib.Data.List.Basic

/-!
# Batches of new keys

A table takes from every batch the rows whose key it does not have yet. Within a batch a
key can repeat, since the batch is compared with the table as it was before. So after any
sequence of batches a key is there as often as in the first of them that has it, the
initial table counted as the first batch.
-/

universe u v

namespace NewKeys

variable {Row : Type u} {Key : Type v} [DecidableEq Key] (keyOf : Row → Key)

/-- Some row has the key. -/
def Has (key : Key) (rows : List Row) : Prop :=
  ∃ row ∈ rows, keyOf row = key

instance (key : Key) (rows : List Row) : Decidable (Has keyOf key rows) :=
  inferInstanceAs (Decidable (∃ row ∈ rows, keyOf row = key))

/-- The number of rows with the key. -/
def count (key : Key) (rows : List Row) : ℕ :=
  rows.countP fun row => keyOf row = key

/-- Append the rows of a batch whose keys are new. -/
def append (table batch : List Row) : List Row :=
  table ++ batch.filter fun row => ¬Has keyOf (keyOf row) table

def appendAll (table : List Row) (batches : List (List Row)) : List Row :=
  batches.foldl (append keyOf) table

variable {keyOf} {key : Key}

theorem has_append (table batch : List Row) :
    Has keyOf key (append keyOf table batch) ↔ Has keyOf key table ∨ Has keyOf key batch := by
  constructor
  · rintro ⟨row, rowMem, same⟩
    rcases List.mem_append.mp rowMem with old | new
    · exact Or.inl ⟨row, old, same⟩
    · exact Or.inr ⟨row, List.mem_of_mem_filter new, same⟩
  · rintro (⟨row, rowMem, same⟩ | ⟨row, rowMem, same⟩)
    · exact ⟨row, List.mem_append_left _ rowMem, same⟩
    · by_cases known : Has keyOf key table
      · rcases known with ⟨old, oldMem, oldKey⟩
        exact ⟨old, List.mem_append_left _ oldMem, oldKey⟩
      · refine ⟨row, List.mem_append_right _ (List.mem_filter.mpr ⟨rowMem, ?_⟩), same⟩
        simpa [same] using known

theorem count_eq_zero {rows : List Row} (unknown : ¬Has keyOf key rows) :
    count keyOf key rows = 0 := by
  apply List.countP_eq_zero.mpr
  intro row rowMem
  simp only [decide_eq_true_eq]
  intro same
  exact unknown ⟨row, rowMem, same⟩

/-- A batch changes the number of a key only if the table does not have it. -/
theorem count_append (table batch : List Row) :
    count keyOf key (append keyOf table batch) =
      if Has keyOf key table then count keyOf key table else count keyOf key batch := by
  rw [append, count, List.countP_append, List.countP_filter, ← count]
  split
  · rename_i known
    have nothingNew : batch.countP (fun row => decide (keyOf row = key) &&
        decide ¬Has keyOf (keyOf row) table) = 0 := by
      apply List.countP_eq_zero.mpr
      intro row _
      by_cases same : keyOf row = key
      · simp [same, known]
      · simp [same]
    omega
  · rename_i unknown
    have allNew : batch.countP (fun row => decide (keyOf row = key) &&
        decide ¬Has keyOf (keyOf row) table) = count keyOf key batch := by
      apply List.countP_congr
      intro row _
      by_cases same : keyOf row = key
      · simp [same, unknown]
      · simp [same]
    have noneOld := count_eq_zero unknown
    omega

theorem has_appendAll (table : List Row) (batches : List (List Row)) :
    Has keyOf key (appendAll keyOf table batches) ↔
      Has keyOf key table ∨ ∃ batch ∈ batches, Has keyOf key batch := by
  induction batches generalizing table with
  | nil => simp [appendAll]
  | cons batch batches ih =>
      rw [appendAll, List.foldl_cons, ← appendAll, ih]
      simp [has_append, or_assoc]

theorem appendAll_concat (table : List Row) (batches : List (List Row)) (batch : List Row) :
    appendAll keyOf table (batches ++ [batch]) =
      append keyOf (appendAll keyOf table batches) batch := by
  rw [appendAll, appendAll, List.foldl_append, List.foldl_cons, List.foldl_nil]

/-- After all batches a key is there as often as in the first of them that has it. -/
theorem count_appendAll (table : List Row) (batches : List (List Row)) :
    count keyOf key (appendAll keyOf table batches) =
      if Has keyOf key table then count keyOf key table
      else (batches.find? fun batch => Has keyOf key batch).elim 0 (count keyOf key) := by
  induction batches generalizing table with
  | nil =>
      split
      · rfl
      · rename_i unknown
        exact count_eq_zero unknown
  | cons batch batches ih =>
      rw [appendAll, List.foldl_cons, ← appendAll, ih]
      by_cases known : Has keyOf key table
      · simp [has_append, count_append, known]
      · by_cases here : Has keyOf key batch
        · simp [has_append, count_append, known, here]
        · simp [has_append, known, here]

end NewKeys
