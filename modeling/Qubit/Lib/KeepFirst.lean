import Mathlib.Data.Finset.Insert

/-!
# Keeping the first of each key

A loop that remembers the keys it has met and skips an item whose key it knows
returns a list with one item for every key, the first one. Nothing is lost exactly
when the key tells the items apart.
-/

universe u v

namespace KeepFirst

variable {A : Type u} {K : Type v} [DecidableEq K]

/-- What the loop has kept, and the keys it has seen. -/
structure Progress (A : Type u) (K : Type v) where
  kept : List A
  seen : Finset K

def Progress.start : Progress A K where
  kept := []
  seen := ∅

/-- Keep an item unless its key was seen. -/
def Progress.push (key : A → K) (progress : Progress A K) (item : A) : Progress A K :=
  if key item ∈ progress.seen then progress
  else { kept := progress.kept ++ [item], seen := insert (key item) progress.seen }

/-- The items kept when `seen` are the keys met before. -/
def keep (key : A → K) : Finset K → List A → List A
  | _, [] => []
  | seen, item :: rest =>
      if key item ∈ seen then keep key seen rest
      else item :: keep key (insert (key item) seen) rest

theorem kept_foldl_push (key : A → K) (items : List A) (progress : Progress A K) :
    (items.foldl (Progress.push key) progress).kept =
      progress.kept ++ keep key progress.seen items := by
  induction items generalizing progress with
  | nil => simp [keep]
  | cons item rest ih =>
      rw [List.foldl_cons, ih, keep, Progress.push]
      by_cases known : key item ∈ progress.seen
      · rw [if_pos known, if_pos known]
      · rw [if_neg known, if_neg known, List.append_assoc]
        rfl

theorem mem_of_mem_keep {key : A → K} {seen : Finset K} {items : List A} {item : A}
    (kept : item ∈ keep key seen items) : item ∈ items ∧ key item ∉ seen := by
  induction items generalizing seen with
  | nil => cases kept
  | cons first rest ih =>
      rw [keep] at kept
      split at kept
      · exact ⟨List.mem_cons_of_mem _ (ih kept).1, (ih kept).2⟩
      · rename_i unknown
        rcases List.mem_cons.mp kept with rfl | later
        · exact ⟨List.mem_cons_self, unknown⟩
        · exact ⟨List.mem_cons_of_mem _ (ih later).1,
            fun old => (ih later).2 (Finset.mem_insert_of_mem old)⟩

theorem eq_of_mem_keep {key : A → K} {seen : Finset K} {items : List A} {item other : A}
    (kept : item ∈ keep key seen items) (otherKept : other ∈ keep key seen items)
    (sameKey : key item = key other) : item = other := by
  induction items generalizing seen with
  | nil => cases kept
  | cons first rest ih =>
      rw [keep] at kept otherKept
      split at kept
      · rename_i known
        rw [if_pos known] at otherKept
        exact ih kept otherKept
      · rename_i unknown
        rw [if_neg unknown] at otherKept
        rcases List.mem_cons.mp kept with rfl | later
        · rcases List.mem_cons.mp otherKept with rfl | otherLater
          · rfl
          · exact absurd (sameKey ▸ Finset.mem_insert_self _ _) (mem_of_mem_keep otherLater).2
        · rcases List.mem_cons.mp otherKept with rfl | otherLater
          · exact absurd (sameKey ▸ Finset.mem_insert_self _ _) (mem_of_mem_keep later).2
          · exact ih later otherLater

theorem exists_mem_keep {key : A → K} {seen : Finset K} {items : List A} {item : A}
    (member : item ∈ items) (unknown : key item ∉ seen) :
    ∃ kept ∈ keep key seen items, key kept = key item := by
  induction items generalizing seen with
  | nil => cases member
  | cons first rest ih =>
      rw [keep]
      by_cases known : key first ∈ seen
      · rw [if_pos known]
        rcases List.mem_cons.mp member with rfl | later
        · exact absurd known unknown
        · exact ih later unknown
      · rw [if_neg known]
        by_cases same : key first = key item
        · exact ⟨first, List.mem_cons_self, same⟩
        · rcases List.mem_cons.mp member with rfl | later
          · exact absurd rfl same
          · have stillUnknown : key item ∉ insert (key first) seen := by
              rw [Finset.mem_insert]
              rintro (new | old)
              · exact same new.symm
              · exact unknown old
            rcases ih later stillUnknown with ⟨kept, keptMem, keptKey⟩
            exact ⟨kept, List.mem_cons_of_mem _ keptMem, keptKey⟩

theorem mem_keep_of_injOn {key : A → K} {items : List A} {item : A} (member : item ∈ items)
    (apart : ∀ other ∈ items, key other = key item → other = item) :
    item ∈ keep key ∅ items := by
  rcases exists_mem_keep member (Finset.notMem_empty (key item)) with ⟨kept, keptMem, keptKey⟩
  rwa [apart kept (mem_of_mem_keep keptMem).1 keptKey] at keptMem

end KeepFirst
