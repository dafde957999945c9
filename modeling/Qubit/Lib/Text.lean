import Mathlib.Algebra.GroupWithZero.Nat
import Mathlib.Data.List.Infix
import Mathlib.Data.List.TakeWhile

/-!
# Text searching and splitting

The string operations a parser of host names and paths performs, on the list of
characters of the string.
-/

namespace Text

/-- The text before the first `stop`, all of it when there is none. -/
def upTo (stop : Char) (text : String) : String :=
  String.ofList (text.toList.takeWhile (· ≠ stop))

/-- `needle` occurs in `text` as a contiguous piece. -/
def Contains (needle text : String) : Prop :=
  needle.toList <:+: text.toList

instance (needle text : String) : Decidable (Contains needle text) :=
  inferInstanceAs (Decidable (needle.toList <:+: text.toList))

/-- At most `limit` pieces separated by `sep`; the last one is the unsplit rest. -/
def splitn : Nat → Char → List Char → List (List Char)
  | 0, _, _ => []
  | 1, _, text => [text]
  | limit + 2, sep, text =>
      match text.dropWhile (· ≠ sep) with
      | [] => [text]
      | _ :: rest => text.takeWhile (· ≠ sep) :: splitn (limit + 1) sep rest

/-- All the pieces separated by `sep`. -/
def split (sep : Char) (text : String) : List String :=
  (text.toList.splitOn sep).map String.ofList

/-- The text before the first `sep` and the text behind it. -/
def splitFirst (sep : Char) (text : String) : Option (String × String) :=
  match text.toList.dropWhile (· ≠ sep) with
  | [] => none
  | _ :: rest => some (upTo sep text, String.ofList rest)

/-- Every `char` replaced by the text `new`. -/
def replace (char : Char) (new : String) (text : String) : String :=
  String.ofList (text.toList.flatMap fun other => if other = char then new.toList else [other])

theorem upTo_eq_self {stop : Char} {text : String} (absent : stop ∉ text.toList) :
    upTo stop text = text := by
  have whole : text.toList.takeWhile (· ≠ stop) = text.toList := by
    rw [List.takeWhile_eq_self_iff]
    intro char mem
    simp only [ne_eq, decide_eq_true_eq]
    rintro rfl
    exact absent mem
  rw [upTo, whole, String.ofList_toList]

theorem notMem_upTo (stop : Char) (text : String) : stop ∉ (upTo stop text).toList := by
  rw [upTo, String.toList_ofList]
  intro mem
  simpa using List.mem_takeWhile_imp mem

theorem mem_of_mem_upTo {stop char : Char} {text : String} (mem : char ∈ (upTo stop text).toList) :
    char ∈ text.toList := by
  rw [upTo, String.toList_ofList] at mem
  exact (List.takeWhile_prefix _).subset mem

theorem upTo_append (stop : Char) (left right : String) :
    upTo stop (left ++ right) =
      if stop ∈ left.toList then upTo stop left else left ++ upTo stop right := by
  split
  · rename_i mem
    have shorter : (left.toList.takeWhile (· ≠ stop)).length ≠ left.toList.length := by
      intro whole
      have kept := List.takeWhile_eq_self_iff.mp ((List.takeWhile_prefix _).eq_of_length whole)
      simpa using kept stop mem
    rw [upTo, upTo, String.toList_append, List.takeWhile_append, if_neg shorter]
  · rename_i absent
    have whole := congrArg String.toList (upTo_eq_self absent)
    rw [upTo, String.toList_ofList] at whole
    rw [upTo, upTo, String.toList_append, List.takeWhile_append, if_pos (congrArg _ whole)]
    apply String.toList_inj.mp
    simp

theorem upTo_eq_empty_iff {stop : Char} {text : String} :
    upTo stop text = "" ↔ ∀ char ∈ text.toList.head?, char = stop := by
  rw [upTo, ← String.toList_inj, String.toList_ofList]
  cases text.toList with
  | nil => simp
  | cons char rest => simp [List.takeWhile_cons]

/-- A text behind another one adds nothing exactly when it is not reached or starts with `stop`. -/
theorem upTo_append_eq_iff {stop : Char} {left right : String} :
    upTo stop (left ++ right) = upTo stop left ↔
      stop ∈ left.toList ∨ ∀ char ∈ right.toList.head?, char = stop := by
  rw [upTo_append]
  split
  · rename_i mem
    simp [mem]
  · rename_i absent
    rw [upTo_eq_self absent, String.append_eq_left_iff, upTo_eq_empty_iff]
    simp [absent]

/-- Two texts joined by `sep` are recovered exactly when the first one does not contain it. -/
theorem splitFirst_join_iff {sep : Char} {left right : String} :
    splitFirst sep (left ++ String.singleton sep ++ right) = some (left, right) ↔
      sep ∉ left.toList := by
  constructor
  · intro recovered
    unfold splitFirst at recovered
    split at recovered
    · cases recovered
    · rw [Option.some.injEq, Prod.mk.injEq] at recovered
      rw [← recovered.1]
      exact notMem_upTo sep _
  · intro absent
    have whole : (left ++ String.singleton sep ++ right).toList =
        left.toList ++ sep :: right.toList := by
      simp
    have kept : ∀ char ∈ left.toList, decide (char ≠ sep) = true := by
      intro char mem
      rw [decide_eq_true_eq]
      rintro rfl
      exact absent mem
    have before : (left.toList ++ sep :: right.toList).takeWhile (· ≠ sep) = left.toList := by
      rw [List.takeWhile_append_of_pos kept]
      simp
    have behind : (left.toList ++ sep :: right.toList).dropWhile (· ≠ sep) =
        sep :: right.toList := by
      rw [List.dropWhile_append_of_pos kept]
      simp
    simp only [splitFirst, upTo, whole, before, behind, String.ofList_toList]

/-! ## Pieces -/

theorem splitOn_append_of_notMem {sep : Char} {front : List Char} (absent : sep ∉ front)
    (back : List Char) :
    (front ++ back).splitOn sep = (back.splitOn sep).modifyHead (front ++ ·) := by
  induction front with
  | nil => exact (congrFun List.modifyHead_id _).symm
  | cons char front ih =>
      rw [List.mem_cons, not_or] at absent
      have kept : ¬(char == sep) = true := by simpa using Ne.symm absent.1
      rw [List.cons_append, List.splitOn_cons_eq_if_modifyHead, if_neg kept, ih absent.2,
        List.modifyHead_modifyHead]
      rfl

theorem prefix_intercalate (sep : Char) (first : List Char) (rest : List (List Char)) :
    first <+: [sep].intercalate (first :: rest) := by
  cases rest with
  | nil => simp
  | cons next rest =>
      rw [List.intercalate_cons_cons, List.append_assoc]
      exact List.prefix_append _ _

theorem infix_intercalate {sep : Char} {piece : List Char} (first : List Char)
    {rest : List (List Char)} (pieceMem : piece ∈ rest) :
    sep :: piece <:+: [sep].intercalate (first :: rest) := by
  induction rest generalizing first with
  | nil => cases pieceMem
  | cons next rest ih =>
      rw [List.intercalate_cons_cons, List.append_assoc, List.singleton_append]
      have behind : sep :: [sep].intercalate (next :: rest) <:+
          first ++ sep :: [sep].intercalate (next :: rest) := List.suffix_append _ _
      rcases List.mem_cons.mp pieceMem with rfl | later
      · have starts : sep :: piece <+: sep :: [sep].intercalate (piece :: rest) :=
          List.prefix_cons_inj sep |>.mpr (prefix_intercalate sep piece rest)
        exact starts.isInfix.trans behind.isInfix
      · exact (ih next later).trans ((List.suffix_cons _ _).trans behind).isInfix

/-- `needle` stands behind a separator exactly when a piece after the first one starts with it. -/
theorem infix_iff_exists_piece {sep : Char} {needle : List Char} (absent : sep ∉ needle)
    (text : List Char) :
    sep :: needle <:+: text ↔ ∃ piece ∈ (text.splitOn sep).tail, needle <+: piece := by
  constructor
  · rintro ⟨front, back, rfl⟩
    rcases List.exists_cons_of_ne_nil (List.splitOn_ne_nil sep front) with ⟨first, more, front_eq⟩
    rcases List.exists_cons_of_ne_nil (List.splitOn_ne_nil sep back) with ⟨next, rest, back_eq⟩
    have pieces : (front ++ sep :: needle ++ back).splitOn sep =
        first :: (more ++ (needle ++ next) :: rest) := by
      rw [List.append_assoc, List.cons_append, List.splitOn_append_cons_self, front_eq,
        splitOn_append_of_notMem absent, back_eq]
      rfl
    rw [pieces]
    exact ⟨needle ++ next, by simp, List.prefix_append _ _⟩
  · rintro ⟨piece, pieceMem, starts⟩
    rcases List.exists_cons_of_ne_nil (List.splitOn_ne_nil sep text) with ⟨first, rest, text_eq⟩
    rw [text_eq] at pieceMem
    have whole : [sep].intercalate (first :: rest) = text := by
      rw [← text_eq, List.intercalate_splitOn]
    have front : sep :: needle <+: sep :: piece := (List.prefix_cons_inj sep).mpr starts
    exact whole ▸ front.isInfix.trans (infix_intercalate first pieceMem)

theorem splitOn_of_dropWhile {sep other : Char} {text rest : List Char}
    (behind : text.dropWhile (· ≠ sep) = other :: rest) :
    text.splitOn sep = text.takeWhile (· ≠ sep) :: rest.splitOn sep := by
  have stops : other = sep := by
    have head := List.head?_dropWhile_not (fun char => decide (char ≠ sep)) text
    rw [behind, List.head?_cons] at head
    simpa using head
  have absent : sep ∉ text.takeWhile (· ≠ sep) := fun mem => by
    simpa using List.mem_takeWhile_imp mem
  have whole : text.takeWhile (· ≠ sep) ++ sep :: rest = text := by
    subst stops
    rw [← behind, List.takeWhile_append_dropWhile]
  have pieces := List.splitOn_append_cons_self_of_not_mem absent rest
  rwa [whole] at pieces

theorem splitOn_of_dropWhile_eq_nil {sep : Char} {text : List Char}
    (unsplit : text.dropWhile (· ≠ sep) = []) : text.splitOn sep = [text] := by
  apply List.splitOn_eq_singleton
  intro mem
  simpa using List.dropWhile_eq_nil_iff.mp unsplit sep mem

/-- Splitting with a limit gives the first pieces of splitting without one. -/
theorem take_splitn (limit : ℕ) (sep : Char) (text : List Char) :
    (splitn (limit + 1) sep text).take limit = (text.splitOn sep).take limit := by
  induction limit generalizing text with
  | zero => rfl
  | succ limit ih =>
      rw [splitn]
      split
      · rename_i unsplit
        rw [splitOn_of_dropWhile_eq_nil unsplit]
      · rename_i other rest behind
        rw [splitOn_of_dropWhile behind, List.take_succ_cons, List.take_succ_cons, ih]

theorem notMem_of_mem_splitOn {sep : Char} {text piece : List Char}
    (pieceMem : piece ∈ text.splitOn sep) : sep ∉ piece := by
  induction text generalizing piece with
  | nil =>
      obtain rfl : piece = [] := by simpa using pieceMem
      exact List.not_mem_nil
  | cons char rest ih =>
      rw [List.splitOn_cons_eq_if_modifyHead] at pieceMem
      split at pieceMem
      · rcases List.mem_cons.mp pieceMem with rfl | later
        · exact List.not_mem_nil
        · exact ih later
      · rename_i other
        rcases List.exists_cons_of_ne_nil (List.splitOn_ne_nil sep rest) with
          ⟨first, more, rest_eq⟩
        rw [rest_eq, List.modifyHead_cons, List.mem_cons] at pieceMem
        rcases pieceMem with rfl | later
        · rw [List.mem_cons, not_or]
          exact ⟨fun same => other (beq_iff_eq.mpr same.symm),
            ih (rest_eq ▸ List.mem_cons_self)⟩
        · exact ih (rest_eq ▸ List.mem_cons_of_mem first later)

/-- Pieces that each end with the separator are split again exactly when none contains it. -/
theorem splitOn_flatMap_iff {sep : Char} {pieces : List (List Char)} :
    (pieces.flatMap (· ++ [sep])).splitOn sep = pieces ++ [[]] ↔ ∀ piece ∈ pieces, sep ∉ piece := by
  constructor
  · intro split piece pieceMem
    have isPiece : piece ∈ (pieces.flatMap (· ++ [sep])).splitOn sep := by
      rw [split]
      exact List.mem_append_left _ pieceMem
    exact notMem_of_mem_splitOn isPiece
  · intro absent
    induction pieces with
    | nil => rfl
    | cons first rest ih =>
        rw [List.forall_mem_cons] at absent
        rw [List.flatMap_cons, List.append_assoc, List.singleton_append,
          List.splitOn_append_cons_self_of_not_mem absent.1, ih absent.2, List.cons_append]

/-! ## Lines -/

/-- The lines, each ended by a line break. -/
def unlines (lines : List String) : String :=
  String.ofList (lines.flatMap fun line => line.toList ++ ['\n'])

@[simp]
theorem unlines_nil : unlines [] = "" :=
  rfl

theorem unlines_cons (first : String) (rest : List String) :
    unlines (first :: rest) = first ++ "\n" ++ unlines rest := by
  apply String.toList_inj.mp
  simp [unlines]

theorem unlines_append (first second : List String) :
    unlines (first ++ second) = unlines first ++ unlines second := by
  apply String.toList_inj.mp
  simp [unlines]

/-- How many line breaks stand in a text. -/
def breaks (text : String) : ℕ :=
  text.toList.count '\n'

@[simp]
theorem breaks_append (first second : String) :
    breaks (first ++ second) = breaks first + breaks second := by
  simp [breaks]

theorem breaks_eq_zero_iff {text : String} : breaks text = 0 ↔ '\n' ∉ text.toList :=
  List.count_eq_zero

theorem breaks_unlines (lines : List String) :
    breaks (unlines lines) = lines.length + (lines.map breaks).sum := by
  induction lines with
  | nil => rfl
  | cons first rest ih =>
      have ends : breaks "\n" = 1 := rfl
      rw [unlines_cons, breaks_append, breaks_append, ih, ends, List.map_cons, List.sum_cons,
        List.length_cons]
      omega

theorem length_splitOn (sep : Char) (text : List Char) :
    (text.splitOn sep).length = text.count sep + 1 := by
  induction text with
  | nil => rfl
  | cons char rest ih =>
      rw [List.splitOn_cons_eq_if_modifyHead, List.count_cons]
      split
      · rw [List.length_cons, ih]
      · rw [List.length_modifyHead, ih, Nat.add_zero]

/-- Every line break in a line adds a line when the lines are read back. -/
theorem length_split_unlines (lines : List String) :
    (split '\n' (unlines lines)).length = (lines ++ [""]).length + (lines.map breaks).sum := by
  have pieces : (split '\n' (unlines lines)).length = breaks (unlines lines) + 1 := by
    rw [split, List.length_map, length_splitOn, breaks]
  rw [pieces, breaks_unlines, List.length_append, List.length_singleton]
  omega

/-- The lines are read back exactly when no line break stands in one of them. -/
theorem split_unlines_iff {lines : List String} :
    split '\n' (unlines lines) = lines ++ [""] ↔ (lines.map breaks).sum = 0 := by
  have asPieces : lines ++ [""] = ((lines.map String.toList) ++ [[]]).map String.ofList := by
    simp
  have text : (unlines lines).toList = (lines.map String.toList).flatMap (· ++ ['\n']) := by
    simp [unlines, List.flatMap_map]
  rw [split, text, asPieces, List.map_inj_right fun _ _ => String.ofList_inj.mp,
    splitOn_flatMap_iff, List.forall_mem_map, List.sum_eq_zero_iff_forall_eq_nat,
    List.forall_mem_map]
  simp only [breaks_eq_zero_iff]

end Text
