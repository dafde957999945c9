import Mathlib.Algebra.Group.Nat.Even
import Mathlib.Data.List.Induction

/-!
# String literals in query texts

A lexer for the part of SQL that decides where a string literal ends: a literal runs from
a quote to the next unescaped quote, a backslash escapes the character behind it, and two
adjacent quotes inside a literal stand for one. What the text between two literals
consists of is left to a parameter.

A query that is put together from fixed text and quoted values is read as intended when
no value escapes the quote behind it, that is, when each value is free of quotes and ends
in an even number of backslashes. One value that does not turns the roles of inside and
outside around for all the text behind it, and the query ends inside a literal.
-/

universe u

namespace SqlLexer

def quote : Char := Char.ofNat 0x27

def backslash : Char := Char.ofNat 0x5C

inductive Token (W : Type u) where
  | word (lexeme : W)
  | literal (content : List Char)
deriving DecidableEq

/-- Forget what is inside a literal. -/
def Token.blank {W : Type u} : Token W → Token W
  | .word lexeme => .word lexeme
  | .literal _ => .literal []

def Token.content? {W : Type u} : Token W → Option (List Char)
  | .word _ => none
  | .literal content => some content

/-- Where the lexer stands, with the text or the content read so far. -/
inductive Mode where
  | outside (text : List Char)
  | inside (content : List Char)
  | escaped (content : List Char)
  /-- Behind a quote that ends the literal unless another one follows. -/
  | closing (content : List Char)

structure State (W : Type u) where
  tokens : List (Token W)
  mode : Mode

variable {W : Type u} (words : List Char → List W)

def step (state : State W) (char : Char) : State W :=
  match state.mode with
  | .outside text =>
      if char = quote then
        { tokens := state.tokens ++ (words text).map .word, mode := .inside [] }
      else { state with mode := .outside (text ++ [char]) }
  | .inside content =>
      if char = backslash then { state with mode := .escaped (content ++ [char]) }
      else if char = quote then { state with mode := .closing content }
      else { state with mode := .inside (content ++ [char]) }
  | .escaped content => { state with mode := .inside (content ++ [char]) }
  | .closing content =>
      if char = quote then { state with mode := .inside (content ++ [char, char]) }
      else { tokens := state.tokens ++ [.literal content], mode := .outside [char] }

/-- The tokens at the end of the text; an unterminated literal is an error. -/
def finish (state : State W) : Option (List (Token W)) :=
  match state.mode with
  | .outside text => some (state.tokens ++ (words text).map .word)
  | .inside _ => none
  | .escaped _ => none
  | .closing content => some (state.tokens ++ [.literal content])

def scan (state : State W) (input : List Char) : State W :=
  input.foldl (step words) state

def lex (input : List Char) : Option (List (Token W)) :=
  finish words (scan words { tokens := [], mode := .outside [] } input)

theorem scan_append (state : State W) (input rest : List Char) :
    scan words state (input ++ rest) = scan words (scan words state input) rest :=
  List.foldl_append

theorem scan_cons (state : State W) (char : Char) (rest : List Char) :
    scan words state (char :: rest) = scan words (step words state char) rest :=
  rfl

/-! ## Runs of characters -/

theorem scan_outside (tokens : List (Token W)) (text : List Char) {input : List Char}
    (quoteFree : quote ∉ input) :
    scan words { tokens, mode := .outside text } input =
      { tokens, mode := .outside (text ++ input) } := by
  induction input generalizing text with
  | nil => simp [scan]
  | cons char rest ih =>
      rw [List.mem_cons, not_or] at quoteFree
      have stepped : step words { tokens, mode := .outside text } char =
          { tokens, mode := .outside (text ++ [char]) } := if_neg (Ne.symm quoteFree.1)
      rw [scan_cons, stepped, ih (text ++ [char]) quoteFree.2, List.append_assoc,
        List.singleton_append]

/-- A quote that no other quote follows ends the literal. -/
theorem scan_closing (tokens : List (Token W)) (content : List Char) {char : Char}
    (char_ne : char ≠ quote) (rest : List Char) :
    scan words { tokens, mode := .closing content } (char :: rest) =
      scan words { tokens := tokens ++ [.literal content], mode := .outside [] }
        (char :: rest) := by
  simp [scan_cons, step, char_ne]

def trailingBackslashes (value : List Char) : ℕ :=
  (value.reverse.takeWhile (· = backslash)).length

theorem trailingBackslashes_concat (value : List Char) (char : Char) :
    trailingBackslashes (value ++ [char]) =
      if char = backslash then trailingBackslashes value + 1 else 0 := by
  by_cases escaping : char = backslash
  · simp [trailingBackslashes, escaping]
  · simp [trailingBackslashes, escaping]

theorem trailingBackslashes_of_notMem {value : List Char} (free : backslash ∉ value) :
    trailingBackslashes value = 0 := by
  rw [trailingBackslashes, List.length_eq_zero_iff]
  cases reversed : value.reverse with
  | nil => rfl
  | cons char rest =>
      have char_ne : char ≠ backslash := by
        rintro rfl
        exact free (List.mem_reverse.mp (by simp [reversed]))
      simp [char_ne]

/-- A value without quotes inside a literal: the next character is escaped by an odd end. -/
theorem scan_inside (tokens : List (Token W)) (content : List Char) {value : List Char}
    (quoteFree : quote ∉ value) :
    scan words { tokens, mode := .inside content } value =
      { tokens
        mode := if Even (trailingBackslashes value) then .inside (content ++ value)
          else .escaped (content ++ value) } := by
  induction value using List.reverseRecOn with
  | nil => simp [scan, trailingBackslashes]
  | append_singleton value char ih =>
      rw [List.mem_append, not_or, List.mem_singleton] at quoteFree
      rw [scan_append, ih quoteFree.1, trailingBackslashes_concat, ← List.append_assoc]
      have char_ne : char ≠ quote := Ne.symm quoteFree.2
      by_cases even : Even (trailingBackslashes value)
      · by_cases escaping : char = backslash
        · simp [scan, step, even, escaping, Nat.even_add_one]
        · simp [scan, step, even, escaping, char_ne]
      · by_cases escaping : char = backslash
        · simp [scan, step, even, escaping, Nat.even_add_one]
        · simp [scan, step, even, escaping]

/-! ## Quoted values in fixed text -/

/-- Text that stands outside of literals and does not touch their ends. -/
structure Plain (text : List Char) : Prop where
  nonempty : text ≠ []
  quoteFree : quote ∉ text
  backslashFree : backslash ∉ text

/-- Values in quotes, each behind its own fixed text. -/
def quoted (parts : List (List Char × List Char)) : List Char :=
  parts.flatMap fun part => part.1 ++ quote :: (part.2 ++ [quote])

/-- The tokens when every value stays in its quotes. -/
def intendedTokens : List Char → List (List Char × List Char) → List Char → List (Token W)
  | text, [], tail => (words (text ++ tail)).map .word
  | text, part :: rest, tail =>
      (words (text ++ part.1)).map .word ++ .literal part.2 :: intendedTokens [] rest tail

variable {words} {parts : List (List Char × List Char)} {tail : List Char}

theorem exists_cons_quoted_append (plain : ∀ part ∈ parts, Plain part.1) (plainTail : Plain tail) :
    ∃ char rest, quoted parts ++ tail = char :: rest ∧ char ≠ quote := by
  have starts : ∀ text, Plain text → ∀ behind, ∃ char rest,
      text ++ behind = char :: rest ∧ char ≠ quote := by
    intro text plainText behind
    cases text with
    | nil => exact absurd rfl plainText.nonempty
    | cons char rest =>
        refine ⟨char, rest ++ behind, rfl, ?_⟩
        rintro rfl
        exact plainText.quoteFree List.mem_cons_self
  cases parts with
  | nil => simpa [quoted] using starts tail plainTail []
  | cons part rest =>
      rw [quoted, List.flatMap_cons, List.append_assoc, List.append_assoc]
      exact starts part.1 (plain part List.mem_cons_self) _

/-- The fixed text in front of a value, its opening quote and the value, from outside. -/
theorem scan_part (tokens : List (Token W)) (text : List Char) {part : List Char × List Char}
    (plain : Plain part.1) (quoteFree : quote ∉ part.2) :
    scan words { tokens, mode := .outside text } (part.1 ++ quote :: (part.2 ++ [quote])) =
      { tokens := tokens ++ (words (text ++ part.1)).map .word
        mode := if Even (trailingBackslashes part.2) then .closing part.2
          else .inside (part.2 ++ [quote]) } := by
  have opened : step words { tokens, mode := .outside (text ++ part.1) } quote =
      { tokens := tokens ++ (words (text ++ part.1)).map .word, mode := .inside [] } := by
    simp [step]
  rw [scan_append, scan_outside words _ _ plain.quoteFree, scan_cons, opened, scan_append,
    scan_inside words _ _ quoteFree, List.nil_append]
  by_cases even : Even (trailingBackslashes part.2)
  · simp [scan, step, even, quote, backslash]
  · simp [scan, step, even]

theorem finish_of_even (plain : ∀ part ∈ parts, Plain part.1) (plainTail : Plain tail)
    (quoteFree : ∀ part ∈ parts, quote ∉ part.2)
    (even : ∀ part ∈ parts, Even (trailingBackslashes part.2)) (tokens : List (Token W))
    (text : List Char) :
    finish words (scan words { tokens, mode := .outside text } (quoted parts ++ tail)) =
      some (tokens ++ intendedTokens words text parts tail) := by
  induction parts generalizing tokens text with
  | nil =>
      rw [quoted, List.flatMap_nil, List.nil_append, scan_outside words _ _ plainTail.quoteFree]
      rfl
  | cons part rest ih =>
      rw [List.forall_mem_cons] at plain quoteFree even
      rcases exists_cons_quoted_append plain.2 plainTail with ⟨char, behind, behind_eq, char_ne⟩
      have read := ih plain.2 quoteFree.2 even.2
        (tokens ++ (words (text ++ part.1)).map .word ++ [.literal part.2]) []
      rw [quoted, List.flatMap_cons, List.append_assoc, scan_append,
        scan_part tokens text plain.1 quoteFree.1, if_pos even.1, ← quoted, behind_eq,
        scan_closing words _ _ char_ne, ← behind_eq, read, intendedTokens]
      simp

/-- From inside a literal the roles of inside and outside are exchanged up to the end. -/
theorem finish_inside (plain : ∀ part ∈ parts, Plain part.1) (plainTail : Plain tail)
    (quoteFree : ∀ part ∈ parts, quote ∉ part.2) (tokens : List (Token W))
    (content : List Char) :
    finish words (scan words { tokens, mode := .inside content } (quoted parts ++ tail)) =
      none := by
  induction parts generalizing tokens content with
  | nil =>
      rw [quoted, List.flatMap_nil, List.nil_append, scan_inside words _ _ plainTail.quoteFree,
        trailingBackslashes_of_notMem plainTail.backslashFree]
      rfl
  | cons part rest ih =>
      rw [List.forall_mem_cons] at plain quoteFree
      rw [quoted, List.flatMap_cons, List.append_assoc, List.append_assoc, scan_append,
        scan_inside words _ _ plain.1.quoteFree,
        trailingBackslashes_of_notMem plain.1.backslashFree, if_pos Even.zero, ← quoted,
        List.cons_append, scan_cons]
      have closes : step words { tokens, mode := .inside (content ++ part.1) } quote =
          { tokens, mode := .closing (content ++ part.1) } := by
        simp [step, quote, backslash]
      rw [closes]
      -- The value is outside now, or its two quotes stand for one.
      cases value_eq : part.2 with
      | nil =>
          have doubled : step words { tokens, mode := .closing (content ++ part.1) } quote =
              { tokens, mode := .inside (content ++ part.1 ++ [quote, quote]) } := by
            simp [step]
          rw [List.nil_append, List.singleton_append, scan_cons, doubled]
          exact ih plain.2 quoteFree.2 _ _
      | cons char value =>
          rw [value_eq] at quoteFree
          have char_ne : char ≠ quote := by
            rintro rfl
            exact quoteFree.1 List.mem_cons_self
          rw [List.append_assoc, List.cons_append, scan_closing words _ _ char_ne,
            ← List.cons_append, scan_append, scan_outside words _ _ quoteFree.1,
            List.singleton_append, scan_cons]
          exact ih plain.2 quoteFree.2 _ _

theorem finish_of_not_even (plain : ∀ part ∈ parts, Plain part.1) (plainTail : Plain tail)
    (quoteFree : ∀ part ∈ parts, quote ∉ part.2)
    (escaping : ∃ part ∈ parts, ¬Even (trailingBackslashes part.2)) (tokens : List (Token W))
    (text : List Char) :
    finish words (scan words { tokens, mode := .outside text } (quoted parts ++ tail)) =
      none := by
  induction parts generalizing tokens text with
  | nil => simp at escaping
  | cons part rest ih =>
      rw [List.forall_mem_cons] at plain quoteFree
      rw [quoted, List.flatMap_cons, List.append_assoc, scan_append,
        scan_part tokens text plain.1 quoteFree.1, ← quoted]
      by_cases even : Even (trailingBackslashes part.2)
      · have later : ∃ part ∈ rest, ¬Even (trailingBackslashes part.2) := by
          rcases escaping with ⟨other, otherMem, odd⟩
          rcases List.mem_cons.mp otherMem with rfl | otherLater
          · exact absurd even odd
          · exact ⟨other, otherLater, odd⟩
        rcases exists_cons_quoted_append plain.2 plainTail with
          ⟨char, behind, behind_eq, char_ne⟩
        rw [if_pos even, behind_eq, scan_closing words _ _ char_ne, ← behind_eq]
        exact ih plain.2 quoteFree.2 later _ _
      · rw [if_neg even]
        exact finish_inside plain.2 plainTail quoteFree.2 _ _

/-! ## Any text in front -/

section

variable (words)

/-- Where a lexer stands, without what it has read. -/
def Mode.blank : Mode → Mode
  | .outside _ => .outside []
  | .inside _ => .inside []
  | .escaped _ => .escaped []
  | .closing _ => .closing []

theorem blank_mode_step {state other : State W}
    (samePlace : state.mode.blank = other.mode.blank) (char : Char) :
    (step words state char).mode.blank = (step words other char).mode.blank := by
  rcases state with ⟨tokens, mode⟩
  rcases other with ⟨tokens', mode'⟩
  cases mode <;> cases mode' <;> simp only [Mode.blank, reduceCtorEq] at samePlace
  case escaped.escaped => rfl
  all_goals
    simp only [step]
    split_ifs <;> rfl

theorem isSome_finish_congr {state other : State W}
    (samePlace : state.mode.blank = other.mode.blank) :
    (finish words state).isSome = (finish words other).isSome := by
  rcases state with ⟨tokens, mode⟩
  rcases other with ⟨tokens', mode'⟩
  cases mode <;> cases mode' <;> first | rfl | simp [Mode.blank] at samePlace

theorem isSome_finish_scan_congr {state other : State W}
    (samePlace : state.mode.blank = other.mode.blank) (input : List Char) :
    (finish words (scan words state input)).isSome =
      (finish words (scan words other input)).isSome := by
  induction input generalizing state other with
  | nil => exact isSome_finish_congr words samePlace
  | cons char rest ih => exact ih (blank_mode_step words samePlace char)

/-- Text without quotes and backslashes leaves a literal open or closed as it was. -/
theorem isSome_finish_scan_plain (state : State W) {text : List Char}
    (quoteFree : quote ∉ text) (backslashFree : backslash ∉ text) :
    (finish words (scan words state text)).isSome = (finish words state).isSome := by
  induction text generalizing state with
  | nil => rfl
  | cons char rest ih =>
      rw [List.mem_cons, not_or] at quoteFree backslashFree
      have stepped : (finish words (step words state char)).isSome =
          (finish words state).isSome := by
        rcases state with ⟨tokens, mode⟩
        cases mode <;> simp [step, finish, Ne.symm quoteFree.1, Ne.symm backslashFree.1]
      rw [scan_cons, ih _ quoteFree.2 backslashFree.2, stepped]

theorem mode_scan_plain (state : State W) {text : List Char} (plain : Plain text) :
    (∃ behind, (scan words state text).mode = .outside behind) ∨
      ∃ content, (scan words state text).mode = .inside content := by
  induction text using List.reverseRecOn with
  | nil => exact absurd rfl plain.nonempty
  | append_singleton text char =>
      have char_ne_quote : char ≠ quote := by
        rintro rfl
        exact plain.quoteFree (by simp)
      have char_ne_backslash : char ≠ backslash := by
        rintro rfl
        exact plain.backslashFree (by simp)
      rw [scan_append, scan_cons, scan, List.foldl_nil, step]
      split <;> simp [char_ne_quote, char_ne_backslash]

/--
A query with quoted values behind a source of its own is read as intended exactly when the
source closes its literals and no value escapes. Otherwise it ends inside a literal.
-/
theorem lex_quoted {before behind : List Char} (quoteFreeBefore : quote ∉ before)
    (source : List Char) (plainBehind : Plain behind) (plainTail : Plain tail) :
    ∃ (tokens : List (Token W)) (text : List Char), ∀ parts : List (List Char × List Char),
      (∀ part ∈ parts, Plain part.1) → (∀ part ∈ parts, quote ∉ part.2) →
      lex words (before ++ source ++ behind ++ (quoted parts ++ tail)) =
        if (lex words source).isSome ∧ ∀ part ∈ parts, Even (trailingBackslashes part.2) then
          some (tokens ++ intendedTokens words text parts tail)
        else none := by
  have closes : (finish words
      (scan words { tokens := [], mode := .outside [] } (before ++ source ++ behind))).isSome =
        (lex words source).isSome := by
    rw [scan_append, isSome_finish_scan_plain words _ plainBehind.quoteFree
      plainBehind.backslashFree, scan_append, scan_outside words _ _ quoteFreeBefore, lex]
    exact isSome_finish_scan_congr words (by rfl) source
  have place := mode_scan_plain words
    (scan words { tokens := [], mode := .outside [] } (before ++ source)) plainBehind
  rw [← scan_append] at place
  simp only [lex.eq_1 words (before ++ source ++ behind ++ _),
    scan_append words _ (before ++ source ++ behind)]
  generalize scan words { tokens := [], mode := .outside [] } (before ++ source ++ behind) =
    state at closes place ⊢
  rcases state with ⟨tokens, mode⟩
  rcases place with ⟨text, rfl⟩ | ⟨content, rfl⟩
  · refine ⟨tokens, text, fun parts plain quoteFree => ?_⟩
    split_ifs with even
    · exact finish_of_even plain plainTail quoteFree even.2 tokens text
    · have escaping : ∃ part ∈ parts, ¬Even (trailingBackslashes part.2) := by
        by_contra none_escapes
        push Not at none_escapes
        exact even ⟨closes.symm, none_escapes⟩
      exact finish_of_not_even plain plainTail quoteFree escaping tokens text
  · refine ⟨tokens, [], fun parts plain quoteFree => ?_⟩
    have notClosed : (lex words source).isSome = false := closes.symm
    simp only [notClosed, Bool.false_eq_true, false_and, if_false]
    exact finish_inside plain plainTail quoteFree tokens content

end

theorem filterMap_content_intendedTokens (text : List Char) :
    (intendedTokens words text parts tail).filterMap Token.content? = parts.map Prod.snd := by
  have outside (lexemes : List W) :
      (lexemes.map Token.word).filterMap Token.content? = [] := by
    simp [Token.content?]
  induction parts generalizing text with
  | nil => simp [intendedTokens, outside]
  | cons part rest ih => simp [intendedTokens, Token.content?, outside, ih]

theorem map_blank_intendedTokens {others : List (List Char × List Char)}
    (sameTexts : parts.map Prod.fst = others.map Prod.fst) (text : List Char) :
    (intendedTokens words text parts tail).map Token.blank =
      (intendedTokens words text others tail).map Token.blank := by
  induction parts generalizing others text with
  | nil =>
      have others_eq : others = [] := by simpa using sameTexts.symm
      rw [others_eq]
  | cons part rest ih =>
      cases others with
      | nil => simp at sameTexts
      | cons other rest' =>
          rw [List.map_cons, List.map_cons, List.cons.injEq] at sameTexts
          simp [intendedTokens, Token.blank, sameTexts.1, ih sameTexts.2 []]

end SqlLexer
