import Mathlib.Data.List.Infix
import Mathlib.Data.List.TakeWhile

/-!
# Searching by windows

A search slides a window of fixed size over the items and goes on behind the first window
that matches. When a window that matches has no separator in it, the search treats lines
that end with separators one after the other, and finds the first line with a match.
-/

universe u

namespace Windows

variable {A : Type u}

/-- The runs of `size` consecutive items. -/
def windows (size : ℕ) : List A → List (List A)
  | [] => []
  | item :: rest =>
      if size ≤ rest.length + 1 then (item :: rest).take size :: windows size rest else []

/-- The items behind the first window that matches. -/
def behindFirst (size : ℕ) (p : List A → Bool) (items : List A) : Option (List A) :=
  ((windows size items).findIdx? p).map fun position => items.drop (position + size)

variable {size : ℕ} {p : List A → Bool}

theorem behindFirst_of_short (items : List A) (short : items.length < size) :
    behindFirst size p items = none := by
  cases items with
  | nil => rfl
  | cons item rest =>
      have narrow : ¬size ≤ rest.length + 1 := Nat.not_le.mpr short
      simp [behindFirst, windows, narrow]

theorem behindFirst_cons {item : A} {rest : List A} (wide : size ≤ rest.length + 1) :
    behindFirst size p (item :: rest) =
      if p ((item :: rest).take size) then some ((item :: rest).drop size)
      else behindFirst size p rest := by
  rw [behindFirst, windows, if_pos wide, List.findIdx?_cons]
  split
  · simp
  · rw [Option.map_map, behindFirst]
    congr 1
    funext position
    simp [Nat.add_right_comm]

theorem behindFirst_of_take {items : List A} (positive : 0 < size) (wide : size ≤ items.length)
    (front : p (items.take size) = true) :
    behindFirst size p items = some (items.drop size) := by
  cases items with
  | nil => simp at wide; omega
  | cons item rest => rw [behindFirst_cons wide, if_pos front]

theorem behindFirst_suffix {items text : List A} (found : behindFirst size p items = some text) :
    text <:+ items := by
  rcases Option.map_eq_some_iff.mp found with ⟨position, _, rfl⟩
  exact List.drop_suffix _ _

/-- A match stays the first one when items are added at the end. -/
theorem behindFirst_append_of_some {front text : List A}
    (found : behindFirst size p front = some text) (back : List A) :
    behindFirst size p (front ++ back) = some (text ++ back) := by
  induction front with
  | nil => cases found
  | cons item front ih =>
      by_cases wide : size ≤ front.length + 1
      · have wider : size ≤ (front ++ back).length + 1 := by
          rw [List.length_append]
          omega
        rw [behindFirst_cons wide] at found
        rw [List.cons_append, behindFirst_cons wider, ← List.cons_append,
          List.take_append_of_le_length wide, List.drop_append_of_le_length wide]
        split at found
        · rename_i here
          rw [if_pos here, ← Option.some.inj found]
        · rename_i elsewhere
          rw [if_neg elsewhere, ih found]
      · rw [behindFirst_of_short _ (by simpa using wide)] at found
        cases found

/-! ## Separators -/

section

variable {separator : A} (separates : ∀ window, separator ∈ window → p window = false)

include separates

theorem behindFirst_separator (positive : 0 < size) (rest : List A) :
    behindFirst size p (separator :: rest) = behindFirst size p rest := by
  by_cases wide : size ≤ rest.length + 1
  · have inWindow : separator ∈ (separator :: rest).take size := by
      rw [← Nat.succ_pred_eq_of_pos positive, List.take_succ_cons]
      exact List.mem_cons_self
    simp [behindFirst_cons wide, separates _ inWindow]
  · rw [behindFirst_of_short _ (by simpa using wide), behindFirst_of_short _ (by omega)]

/-- A match begins before a separator and lies before it, or begins behind it. -/
theorem behindFirst_append (positive : 0 < size) (line rest : List A) :
    behindFirst size p (line ++ separator :: rest) =
      ((behindFirst size p line).map (· ++ separator :: rest)).or (behindFirst size p rest) := by
  induction line with
  | nil => exact behindFirst_separator separates positive rest
  | cons item line ih =>
      by_cases wide : size ≤ line.length + 1
      · have wider : size ≤ (line ++ separator :: rest).length + 1 := by
          rw [List.length_append]
          omega
        rw [List.cons_append, behindFirst_cons wide, behindFirst_cons wider, ih,
          ← List.cons_append, List.take_append_of_le_length wide,
          List.drop_append_of_le_length wide]
        split <;> simp
      · rw [behindFirst_of_short (item :: line) (by simpa using wide)]
        rw [behindFirst_of_short line (by omega)] at ih
        by_cases wider : size ≤ (line ++ separator :: rest).length + 1
        · have inWindow : separator ∈ (item :: (line ++ separator :: rest)).take size := by
            have covered : ∃ count, size = (item :: line).length + (count + 1) :=
              ⟨size - line.length - 2, by rw [List.length_cons]; omega⟩
            rcases covered with ⟨count, rfl⟩
            rw [← List.cons_append, List.take_length_add_append, List.take_succ_cons]
            simp
          rw [List.cons_append, behindFirst_cons wider, separates _ inWindow, ih]
          rfl
        · rw [behindFirst_of_short _ (by simpa using wider)]
          rw [behindFirst_of_short _ (by omega)] at ih
          exact ih

end

/-- The first line with a match decides, whatever follows it. -/
theorem exists_behindFirst_lines {separator : A} {more : List A}
    (separates : ∀ mark ∈ separator :: more, ∀ window, mark ∈ window → p window = false)
    (positive : 0 < size) {lines : List (List A)} {text : List A}
    (found : lines.findSome? (behindFirst size p) = some text) (tail : List A) :
    ∃ rest, behindFirst size p (lines.flatMap (· ++ separator :: more) ++ tail) =
      some (text ++ separator :: rest) := by
  have skip (marks rest : List A) (marksMem : ∀ mark ∈ marks, mark ∈ separator :: more) :
      behindFirst size p (marks ++ rest) = behindFirst size p rest := by
    induction marks with
    | nil => rfl
    | cons mark marks ih =>
        rw [List.forall_mem_cons] at marksMem
        rw [List.cons_append, behindFirst_separator (separates mark marksMem.1) positive,
          ih marksMem.2]
  induction lines with
  | nil => simp at found
  | cons line lines ih =>
      rw [List.flatMap_cons, List.append_assoc, List.append_assoc, List.cons_append,
        behindFirst_append (separates separator List.mem_cons_self) positive,
        skip more _ fun mark markMem => List.mem_cons_of_mem _ markMem]
      rw [List.findSome?_cons] at found
      cases here : behindFirst size p line with
      | some text' =>
          rw [here, Option.some.injEq] at found
          exact ⟨_, by rw [found]; rfl⟩
      | none =>
          rw [here] at found
          simpa using ih found

/-! ## Cutting at the first match -/

theorem drop_of_findIdx? {items : List A} {p : A → Bool} {index : ℕ}
    (found : items.findIdx? (!p ·) = some index) : items.drop index = items.dropWhile p := by
  rw [List.findIdx?_eq_some_iff_findIdx_eq] at found
  rw [List.dropWhile_eq_drop_findIdx_not, found.2]

theorem take_findIdx? (items : List A) (p : A → Bool) :
    items.take ((items.findIdx? p).getD items.length) = items.takeWhile (!p ·) := by
  rw [← List.findIdx_eq_getD_findIdx?, List.takeWhile_eq_take_findIdx_not]
  simp

theorem dropWhile_append_cons {p : A → Bool} {stop : A} (stops : p stop = false)
    (items rest : List A) :
    (items ++ stop :: rest).dropWhile p = items.dropWhile p ++ stop :: rest := by
  rw [List.dropWhile_append]
  split
  · simp_all
  · rfl

end Windows
