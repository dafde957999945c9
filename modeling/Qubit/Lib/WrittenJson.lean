import Qubit.Lib.Json

/-!
# Reading JSON that was put together by hand

What a text reads as that was assembled from pieces: strings whose characters were
escaped one by one, whole numbers, and an object of members between commas. A text is
described by what stands behind it, so that the pieces can be joined: in front of a comma
or a closing brace it reads as its value, and only if every character was escaped that
has to be.
-/

namespace Json

/-! ## White space -/

/-- The text begins with no white space. -/
def Dark (text : List Char) : Prop :=
  ∀ char ∈ text.head?, ¬IsSpace char

theorem dark_cons {char : Char} {text : List Char} (dark : ¬IsSpace char) :
    Dark (char :: text) := by
  simpa [Dark] using dark

theorem eq_sign_or_isSpace {sign char : Char} {text rest : List Char}
    (read : Structural sign (char :: text) rest) : char = sign ∨ IsSpace char := by
  rcases read with ⟨before, after, spaces, -, text_eq⟩
  cases before with
  | nil =>
      left
      simp only [List.nil_append, List.cons.injEq] at text_eq
      exact text_eq.1
  | cons space before =>
      right
      simp only [List.cons_append, List.cons.injEq] at text_eq
      rw [text_eq.1]
      exact spaces space List.mem_cons_self

theorem eq_of_spaces_append {after text rest : List Char} (dark : Dark text)
    (spaces : ∀ space ∈ after, IsSpace space) (text_eq : text = after ++ rest) : rest = text := by
  cases after with
  | nil => exact text_eq.symm
  | cons space after =>
      subst text_eq
      exact absurd (spaces space List.mem_cons_self) (dark space rfl)

theorem structural_iff {sign char : Char} {text rest : List Char} (dark : ¬IsSpace char)
    (textDark : Dark text) : Structural sign (char :: text) rest ↔ char = sign ∧ rest = text := by
  constructor
  · intro read
    have same := (eq_sign_or_isSpace read).resolve_right dark
    rcases read with ⟨before, after, spaces, spacesAfter, text_eq⟩
    cases before with
    | nil =>
        simp only [List.nil_append, List.cons.injEq] at text_eq
        exact ⟨same, eq_of_spaces_append textDark spacesAfter text_eq.2⟩
    | cons space before =>
        simp only [List.cons_append, List.cons.injEq] at text_eq
        exact absurd (spaces space List.mem_cons_self) (text_eq.1 ▸ dark)
  · rintro ⟨rfl, rfl⟩
    exact ⟨[], [], by simp, by simp, rfl⟩

/-! ## Strings -/

/-- A character as a string may show it: itself, or its escape. -/
inductive Shows : List Char → Char → Prop where
  | plain {char : Char} (allowed : IsUnescaped char) : Shows [char] char
  | escaped {sign char : Char} (listed : (sign, char) ∈ escapes) : Shows ['\\', sign] char

theorem escapes_functional :
    ∀ entry ∈ escapes, ∀ other ∈ escapes, entry.1 = other.1 → entry = other := by
  decide

theorem fst_ne_u_of_mem_escapes : ∀ entry ∈ escapes, entry.1 ≠ 'u' := by
  decide

theorem body_append_iff {shown text rest : List Char} {char : Char} {pieces : List Piece}
    (shows : Shows shown char) : Body (shown ++ text) pieces rest ↔
      ∃ later, pieces = .char char :: later ∧ Body text later rest := by
  constructor
  · intro read
    cases shows with
    | plain allowed =>
        cases read with
        | close => exact absurd rfl allowed.2.1
        | unescaped _ more => exact ⟨_, rfl, more⟩
        | escaped => exact absurd rfl allowed.2.2
        | unicode => exact absurd rfl allowed.2.2
    | escaped listed =>
        rename_i sign
        generalize whole : ['\\', sign] ++ text = shown at read
        cases read with
        | close => simp at whole
        | unescaped allowed _ =>
            simp only [List.cons_append, List.cons.injEq] at whole
            exact absurd whole.1.symm allowed.2.2
        | escaped other more =>
            simp only [List.cons_append, List.nil_append, List.cons.injEq, true_and] at whole
            rcases whole with ⟨rfl, rfl⟩
            have same := escapes_functional _ listed _ other rfl
            exact ⟨_, by rw [(Prod.mk.inj same).2], more⟩
        | unicode =>
            simp only [List.cons_append, List.cons.injEq, true_and] at whole
            exact absurd whole.1 (fst_ne_u_of_mem_escapes _ listed)
  · rintro ⟨later, rfl, more⟩
    cases shows with
    | plain allowed => exact .unescaped allowed more
    | escaped listed => exact .escaped listed more

theorem not_body_control {char : Char} {text rest : List Char} {pieces : List Piece}
    (control : char.toNat < 0x20) : ¬Body (char :: text) pieces rest := by
  intro read
  cases read with
  | close => simp at control
  | unescaped allowed _ => exact absurd allowed.1 (by omega)
  | escaped => simp at control
  | unicode => simp at control

/--
Characters written one by one and closed by a quotation mark read as themselves, unless one of them
is a control character that was left as it is.
-/
theorem body_flatMap_iff {write : Char → List Char} {chars tail rest : List Char}
    {pieces : List Piece} (written : ∀ char ∈ chars,
      Shows (write char) char ∨ char.toNat < 0x20 ∧ write char = [char]) :
    Body (chars.flatMap write ++ '"' :: tail) pieces rest ↔
      (∀ char ∈ chars, Shows (write char) char) ∧ pieces = chars.map .char ∧ rest = tail := by
  induction chars generalizing pieces with
  | nil =>
      constructor
      · intro read
        cases read with
        | close => simp
        | unescaped allowed _ => exact absurd rfl allowed.2.1
      · rintro ⟨-, rfl, rfl⟩
        exact .close
  | cons char chars ih =>
      rw [List.forall_mem_cons] at written
      rw [List.flatMap_cons, List.append_assoc]
      rcases written.1 with shows | ⟨control, write_eq⟩
      · rw [body_append_iff shows]
        simp only [ih written.2, List.forall_mem_cons, shows, true_and, List.map_cons]
        constructor
        · rintro ⟨later, rfl, every, rfl, rest_eq⟩
          exact ⟨every, rfl, rest_eq⟩
        · rintro ⟨every, rfl, rest_eq⟩
          exact ⟨_, rfl, every, rfl, rest_eq⟩
      · rw [write_eq]
        apply iff_of_false (not_body_control control)
        rintro ⟨every, -, -⟩
        have shows := every char List.mem_cons_self
        rw [write_eq] at shows
        cases shows with
        | plain allowed => exact absurd allowed.1 (by omega)

theorem decode_map_char (chars : List Char) : decode (chars.map .char) = chars := by
  induction chars with
  | nil => rfl
  | cons char chars ih => rw [List.map_cons, decode, ih]

theorem stringText_quoted_iff {write : Char → List Char} {chars tail rest : List Char}
    {value : String} (written : ∀ char ∈ chars,
      Shows (write char) char ∨ char.toNat < 0x20 ∧ write char = [char]) :
    StringText ('"' :: (chars.flatMap write ++ '"' :: tail)) value rest ↔
      (∀ char ∈ chars, Shows (write char) char) ∧ value = String.ofList chars ∧ rest = tail := by
  simp only [StringText, List.cons.injEq, true_and]
  constructor
  · rintro ⟨body, pieces, rfl, read, rfl⟩
    rcases (body_flatMap_iff written).mp read with ⟨every, rfl, rest_eq⟩
    exact ⟨every, by rw [decode_map_char], rest_eq⟩
  · rintro ⟨every, rfl, rest_eq⟩
    exact ⟨_, _, rfl, (body_flatMap_iff written).mpr ⟨every, rfl, rest_eq⟩,
      by rw [decode_map_char]⟩

/-! ## Numbers -/

def IsNumberChar (char : Char) : Prop :=
  char.isDigit ∨ char ∈ ['-', '+', '.', 'e', 'E']

instance (char : Char) : Decidable (IsNumberChar char) :=
  inferInstanceAs (Decidable (_ ∨ _))

/-- The text does not go on with a character of a number. -/
def Ended (text : List Char) : Prop :=
  ∀ char ∈ text.head?, ¬IsNumberChar char

theorem ended_of_structural {sign : Char} {text rest : List Char} (read : Structural sign text rest)
    (other : ¬IsNumberChar sign) : Ended text := by
  intro char first
  cases text with
  | nil => cases first
  | cons head text =>
      simp only [List.head?_cons, Option.mem_def, Option.some.injEq] at first
      subst first
      rcases eq_sign_or_isSpace read with rfl | space
      · exact other
      · simp only [IsSpace, List.mem_cons, List.not_mem_nil, or_false] at space
        rcases space with rfl | rfl | rfl | rfl <;> decide

theorem eq_of_ended {left right rest other : List Char}
    (leftNumeric : ∀ char ∈ left, IsNumberChar char)
    (rightNumeric : ∀ char ∈ right, IsNumberChar char) (ended : Ended rest)
    (otherEnded : Ended other) (same : left ++ rest = right ++ other) :
    left = right ∧ rest = other := by
  induction left generalizing right with
  | nil =>
      cases right with
      | nil => exact ⟨rfl, same⟩
      | cons char right =>
          rw [List.nil_append] at same
          subst same
          exact absurd (rightNumeric char List.mem_cons_self) (ended char rfl)
  | cons char left ih =>
      rw [List.forall_mem_cons] at leftNumeric
      cases right with
      | nil =>
          rw [List.nil_append] at same
          subst same
          exact absurd leftNumeric.1 (otherEnded char rfl)
      | cons next right =>
          rw [List.forall_mem_cons] at rightNumeric
          simp only [List.cons_append, List.cons.injEq] at same
          rcases ih leftNumeric.2 rightNumeric.2 same.2 with ⟨rfl, rest_eq⟩
          exact ⟨by rw [same.1], rest_eq⟩

namespace NumberText

theorem isNumberChar_of_mem {number : NumberText} {char : Char} (member : char ∈ number.text) :
    IsNumberChar char := by
  simp only [text, List.mem_append] at member
  rcases member with ((sign | digit) | digit) | exponent
  · right
    split at sign
    · rw [List.mem_singleton.mp sign]
      simp
    · cases sign
  · exact Or.inl (number.int_isDigit char digit)
  · split at digit
    · cases digit
    · rcases List.mem_cons.mp digit with rfl | digit
      · exact Or.inr (by simp)
      · exact Or.inl (number.frac_isDigit char digit)
  · cases exp_eq : number.exp with
    | none => simp [exp_eq] at exponent
    | some exp =>
        simp only [exp_eq, Option.elim_some, Exponent.text, List.mem_cons,
          List.mem_append] at exponent
        have marker := exp.marker_mem
        have sign := exp.sign_mem
        simp only [List.mem_cons, List.not_mem_nil, or_false] at marker sign
        rcases exponent with rfl | shown | digit
        · rcases marker with marker_eq | marker_eq <;> simp [IsNumberChar, marker_eq]
        · rcases sign with sign_eq | sign_eq | sign_eq <;>
            simp_all [IsNumberChar]
        · exact Or.inl (exp.digits_isDigit char digit)

theorem eq_zero_of_head_toDigits {n : Nat} (zero : (Nat.toDigits 10 n).head? = some '0') :
    n = 0 := by
  induction n using Nat.strong_induction_on with
  | _ n ih =>
      rcases Nat.lt_or_ge n 10 with small | large
      · simpa [Nat.toDigits_of_lt_base small] using zero
      · rw [Nat.toDigits_of_base_le (by omega) large,
          List.head?_append_of_ne_nil _ Nat.toDigits_ne_nil] at zero
        have tenth := ih (n / 10) (by omega) zero
        omega

/-- A whole number as it is printed. -/
def ofInt (n : ℤ) : NumberText where
  minus := decide (n < 0)
  int := Nat.toDigits 10 n.natAbs
  frac := []
  exp := none
  int_ne := Nat.toDigits_ne_nil
  int_isDigit := fun _ member => Nat.isDigit_of_mem_toDigits (by omega) le_rfl member
  int_zero := fun zero => by rw [eq_zero_of_head_toDigits zero]; rfl
  frac_isDigit := fun _ member => nomatch member

theorem text_ofInt (n : ℤ) : (ofInt n).text = (toString n).toList := by
  rw [Int.toString_eq_repr, Int.repr_eq_if]
  rcases lt_or_ge n 0 with negative | positive
  · have natAbs_eq : n.natAbs = (-n).toNat := by omega
    simp [text, ofInt, negative, not_le.mpr negative, natAbs_eq]
  · have natAbs_eq : n.natAbs = n.toNat := by omega
    simp [text, ofInt, positive, not_lt.mpr positive, natAbs_eq]

/-- Without a point and an exponent only the sign and the digits count. -/
theorem value_eq {number : NumberText} (frac_eq : number.frac = []) (exp_eq : number.exp = none) :
    number.value = (if number.minus then -1 else 1) * Nat.ofDigitChars 10 number.int 0 := by
  simp [value, frac_eq, exp_eq]

theorem value_ofInt (n : ℤ) : (ofInt n).value = n := by
  rw [value_eq rfl rfl]
  simp only [ofInt, Nat.ofDigitChars_ten_toDigits, decide_eq_true_eq]
  rcases lt_or_ge n 0 with negative | positive
  · have natAbs_eq : (n.natAbs : ℤ) = -n := by omega
    rw [if_pos negative, ← Int.cast_natCast, natAbs_eq]
    simp
  · have natAbs_eq : (n.natAbs : ℤ) = n := by omega
    rw [if_neg (not_lt.mpr positive), ← Int.cast_natCast, natAbs_eq, one_mul]

theorem signed_inj {minus other : Bool} {digits others : List Char}
    (isDigit : ∀ digit ∈ digits, digit.isDigit) (othersDigit : ∀ digit ∈ others, digit.isDigit)
    (same : (if minus then ['-'] else []) ++ digits = (if other then ['-'] else []) ++ others) :
    minus = other ∧ digits = others := by
  have unsigned : ∀ digits : List Char, (∀ digit ∈ digits, digit.isDigit) →
      ∀ rest, digits ≠ '-' :: rest := by
    rintro _ isDigit rest rfl
    simpa using isDigit '-' List.mem_cons_self
  cases minus with
  | true =>
      cases other with
      | true => simpa using same
      | false =>
          simp only [Bool.false_eq_true, if_true, if_false, List.nil_append] at same
          exact absurd same.symm (unsigned others othersDigit digits)
  | false =>
      cases other with
      | true =>
          simp only [Bool.false_eq_true, if_true, if_false, List.nil_append] at same
          exact absurd same (unsigned digits isDigit others)
      | false => simpa using same

/-- What is written like a whole number has its value. -/
theorem value_eq_of_text_eq {number : NumberText} {n : ℤ}
    (same : number.text = (ofInt n).text) : number.value = n := by
  have plain : (ofInt n).text = (if (ofInt n).minus then ['-'] else []) ++ (ofInt n).int := by
    simp [text, ofInt]
  have whole : ∀ char ∈ number.text, char.isDigit ∨ char = '-' := by
    intro char member
    rw [same, plain, List.mem_append] at member
    rcases member with sign | digit
    · split at sign
      · exact Or.inr (List.mem_singleton.mp sign)
      · cases sign
    · exact Or.inl ((ofInt n).int_isDigit char digit)
  have frac_eq : number.frac = [] := by
    by_contra nonempty
    have point := whole '.' (by simp [text, nonempty])
    simp at point
  have exp_eq : number.exp = none := by
    cases exp_eq : number.exp with
    | none => rfl
    | some exp =>
        have marker := whole exp.marker (by simp [text, exp_eq, Exponent.text])
        have marker_mem := exp.marker_mem
        simp only [List.mem_cons, List.not_mem_nil, or_false] at marker_mem
        rcases marker_mem with marker_eq | marker_eq <;> simp [marker_eq] at marker
  have signed : (if number.minus then ['-'] else []) ++ number.int =
      (if (ofInt n).minus then ['-'] else []) ++ (ofInt n).int := by
    rw [← plain, ← same]
    simp [text, frac_eq, exp_eq]
  have parts := signed_inj number.int_isDigit (ofInt n).int_isDigit signed
  rw [← value_ofInt n, value_eq frac_eq exp_eq, value_eq rfl rfl, parts.1, parts.2]

end NumberText

/-! ## Values in front of a structural character -/

theorem NumberText.isNumberChar_head {number : NumberText} {char : Char} {text rest : List Char}
    (written : char :: text = number.text ++ rest) : IsNumberChar char := by
  cases shown : number.text with
  | nil =>
      simp only [NumberText.text, List.append_eq_nil_iff] at shown
      exact absurd shown.1.1.2 number.int_ne
  | cons head tail =>
      simp only [shown, List.cons_append, List.cons.injEq] at written
      have member : head ∈ number.text := by simp [shown]
      rw [written.1]
      exact isNumberChar_of_mem member

/-- A value begins like a word or an array, or it is a number, a string or an object. -/
theorem value_cases {char : Char} {text rest : List Char} {found : Json}
    (read : Value (char :: text) found rest) :
    char ∈ ['n', 't', 'f', '['] ∨ IsSpace char ∨
      (∃ number : NumberText, char :: text = number.text ++ rest ∧
        found = .number number.value) ∨
      (∃ value, StringText (char :: text) value rest ∧ found = .string value) ∨
      char = '{' ∧ ∃ inner, Structural '{' (char :: text) inner ∧
        (found = .object [] ∧ Structural '}' inner rest ∨
          ∃ members after, found = .object members ∧ Members inner members after ∧
            Structural '}' after rest) := by
  have opening {sign : Char} {inner : List Char} (opened : Structural sign (char :: text) inner) :
      char = sign ∨ IsSpace char := eq_sign_or_isSpace opened
  cases read with
  | null written | true written | false written =>
      simp only [String.reduceToList, List.cons_append, List.cons.injEq] at written
      simp [written.1]
  | number number written => exact Or.inr (Or.inr (Or.inl ⟨number, written, rfl⟩))
  | string written => exact Or.inr (Or.inr (Or.inr (Or.inl ⟨_, written, rfl⟩)))
  | emptyArray opened | array opened =>
      rcases opening opened with rfl | space
      · simp
      · exact Or.inr (Or.inl space)
  | emptyObject opened closed =>
      rcases opening opened with brace | space
      · exact Or.inr (Or.inr (Or.inr (Or.inr ⟨brace, _, opened, Or.inl ⟨rfl, closed⟩⟩)))
      · exact Or.inr (Or.inl space)
  | object opened listed closed =>
      rcases opening opened with brace | space
      · exact Or.inr (Or.inr (Or.inr (Or.inr
          ⟨brace, _, opened, Or.inr ⟨_, _, rfl, listed, closed⟩⟩)))
      · exact Or.inr (Or.inl space)

theorem value_quote_iff {text rest : List Char} {found : Json} :
    Value ('"' :: text) found rest ↔
      ∃ value, StringText ('"' :: text) value rest ∧ found = .string value := by
  constructor
  · intro read
    rcases value_cases read with word | space | ⟨number, written, -⟩ | string | ⟨brace, -⟩
    · simp at word
    · simp [IsSpace] at space
    · have numeric := NumberText.isNumberChar_head written
      simp [IsNumberChar] at numeric
    · exact string
    · simp at brace
  · rintro ⟨value, written, rfl⟩
    exact .string written

theorem not_isSpace_of_isNumberChar {char : Char} (numeric : IsNumberChar char) :
    ¬IsSpace char := by
  simp only [IsSpace, List.mem_cons, List.not_mem_nil, or_false]
  rintro (rfl | rfl | rfl | rfl) <;> simp [IsNumberChar] at numeric

theorem value_number_iff {char : Char} {text rest : List Char} {found : Json}
    (numeric : IsNumberChar char) : Value (char :: text) found rest ↔
      ∃ number : NumberText, char :: text = number.text ++ rest ∧
        found = .number number.value := by
  constructor
  · intro read
    rcases value_cases read with word | space | number | ⟨value, ⟨body, pieces, written, -⟩, -⟩ |
      ⟨brace, -⟩
    · simp only [List.mem_cons, List.not_mem_nil, or_false] at word
      rcases word with rfl | rfl | rfl | rfl <;> simp [IsNumberChar] at numeric
    · exact absurd space (not_isSpace_of_isNumberChar numeric)
    · exact number
    · rw [List.cons.injEq] at written
      simp [written.1, IsNumberChar] at numeric
    · simp [brace, IsNumberChar] at numeric
  · rintro ⟨number, written, rfl⟩
    exact .number number written

theorem value_brace_iff {text rest : List Char} {found : Json} (dark : Dark text) :
    Value ('{' :: text) found rest ↔
      (found = .object [] ∧ Structural '}' text rest) ∨
        ∃ members after, found = .object members ∧ Members text members after ∧
          Structural '}' after rest := by
  have opening : ∀ inner, Structural '{' ('{' :: text) inner ↔ inner = text := by
    intro inner
    have brace : ¬IsSpace '{' := by decide
    simp [structural_iff brace dark]
  constructor
  · intro read
    rcases value_cases read with word | space | ⟨number, written, -⟩ |
      ⟨value, ⟨body, pieces, written, -⟩, -⟩ | ⟨-, inner, opened, object⟩
    · simp at word
    · simp [IsSpace] at space
    · have numeric := NumberText.isNumberChar_head written
      simp [IsNumberChar] at numeric
    · simp at written
    · rw [opening] at opened
      subst opened
      exact object
  · rintro (⟨rfl, closed⟩ | ⟨members, after, rfl, listed, closed⟩)
    · exact .emptyObject ((opening text).mpr rfl) closed
    · exact .object ((opening text).mpr rfl) listed closed

/--
In front of a comma or a closing brace the text reads as this value, provided that `good`, and as
nothing else.
-/
structure ReadsIf (good : Prop) (text : List Char) (value : Json) : Prop where
  dark : ∃ char more, text = char :: more ∧ ¬IsSpace char
  value_iff : ∀ {stop : Char} {tail rest : List Char} {found : Json}, stop ∈ [',', '}'] →
    Ended rest → (Value (text ++ stop :: tail) found rest ↔
      good ∧ found = value ∧ rest = stop :: tail)

theorem readsIf_quoted {write : Char → List Char} {chars : List Char}
    (written : ∀ char ∈ chars,
      Shows (write char) char ∨ char.toNat < 0x20 ∧ write char = [char]) :
    ReadsIf (∀ char ∈ chars, Shows (write char) char) ('"' :: (chars.flatMap write ++ ['"']))
      (.string (String.ofList chars)) where
  dark := ⟨_, _, rfl, by decide⟩
  value_iff := by
    intro stop tail rest found _ _
    rw [List.cons_append, List.append_assoc, List.cons_append, List.nil_append, value_quote_iff]
    simp only [stringText_quoted_iff written]
    constructor
    · rintro ⟨value, ⟨every, rfl, rest_eq⟩, rfl⟩
      exact ⟨every, rfl, rest_eq⟩
    · rintro ⟨every, rfl, rest_eq⟩
      exact ⟨_, ⟨every, rfl, rest_eq⟩, rfl⟩

theorem readsIf_int (n : ℤ) : ReadsIf True (toString n).toList (.number n) := by
  rw [← NumberText.text_ofInt]
  cases shown : (NumberText.ofInt n).text with
  | nil =>
      simp only [NumberText.text, List.append_eq_nil_iff] at shown
      exact absurd shown.1.1.2 (NumberText.ofInt n).int_ne
  | cons char more =>
      have member : char ∈ (NumberText.ofInt n).text := by simp [shown]
      have numeric := NumberText.isNumberChar_of_mem member
      refine ⟨⟨char, more, rfl, not_isSpace_of_isNumberChar numeric⟩, ?_⟩
      intro stop tail rest found stopMem ended
      have stopEnded : Ended (stop :: tail) := by
        simp only [List.mem_cons, List.not_mem_nil, or_false] at stopMem
        rcases stopMem with rfl | rfl <;> simp [Ended, IsNumberChar]
      rw [List.cons_append, value_number_iff numeric, ← List.cons_append, ← shown]
      constructor
      · rintro ⟨number, written, rfl⟩
        have parts := eq_of_ended (fun _ => NumberText.isNumberChar_of_mem)
          (fun _ => NumberText.isNumberChar_of_mem) stopEnded ended written
        exact ⟨trivial, by rw [NumberText.value_eq_of_text_eq parts.1.symm], parts.2.symm⟩
      · rintro ⟨-, rfl, rfl⟩
        exact ⟨NumberText.ofInt n, rfl, by rw [NumberText.value_ofInt]⟩

/-! ## Objects -/

/-- A member as it is put together: its name, the text of its value, and the value it is to have. -/
structure Entry where
  name : String
  text : List Char
  value : Json

namespace Entry

def written (entry : Entry) : List Char :=
  '"' :: (entry.name.toList ++ '"' :: ':' :: entry.text)

def member (entry : Entry) : String × Json :=
  (entry.name, entry.value)

/-- The members after the first one, each behind a comma. -/
def others (entries : List Entry) : List Char :=
  entries.flatMap fun entry => ',' :: entry.written

/-- The name needs no escapes, and the text reads as the value if `good`. -/
structure Reads (good : Entry → Prop) (entry : Entry) : Prop where
  plain : ∀ char ∈ entry.name.toList, IsUnescaped char
  reads : ReadsIf (good entry) entry.text entry.value

theorem named_iff {good : Entry → Prop} {entry : Entry} (reads : entry.Reads good)
    {more inner : List Char} {name : String} :
    (∃ after, StringText (entry.written ++ more) name after ∧ Structural ':' after inner) ↔
      name = entry.name ∧ inner = entry.text ++ more := by
  rcases reads.reads.dark with ⟨char, text, text_eq, dark⟩
  have name_eq : entry.name.toList.flatMap (fun char => [char]) = entry.name.toList := by simp
  have shows : ∀ char ∈ entry.name.toList, Shows [char] char :=
    fun char member => .plain (reads.plain char member)
  have written_eq : entry.written ++ more = '"' :: (entry.name.toList.flatMap
      (fun char => [char]) ++ '"' :: ':' :: (entry.text ++ more)) := by
    simp [written]
  have colon : ¬IsSpace ':' := by decide
  have textDark : Dark (entry.text ++ more) := by
    rw [text_eq]
    exact dark_cons dark
  rw [written_eq]
  simp only [stringText_quoted_iff fun char member => Or.inl (shows char member)]
  constructor
  · rintro ⟨after, ⟨-, rfl, rfl⟩, separated⟩
    rw [structural_iff colon textDark] at separated
    exact ⟨String.ofList_toList, separated.2⟩
  · rintro ⟨rfl, rfl⟩
    refine ⟨_, ⟨shows, String.ofList_toList.symm, rfl⟩, ?_⟩
    exact (structural_iff colon textDark).mpr ⟨rfl, rfl⟩

/-- The last member is read up to the closing brace, one in front of others up to its comma. -/
theorem members_written_iff {good : Entry → Prop} {entry : Entry} (reads : entry.Reads good)
    {stop : Char} (stopMem : stop ∈ [',', '}']) {behind rest : List Char} (dark : Dark behind)
    {members : List (String × Json)} :
    (∃ after, Members (entry.written ++ stop :: behind) members after ∧
        Structural '}' after rest) ↔
      good entry ∧ (stop = '}' ∧ members = [entry.member] ∧ rest = behind ∨
        stop = ',' ∧ ∃ others, members = entry.member :: others ∧
          ∃ after, Members behind others after ∧ Structural '}' after rest) := by
  have stopDark : ¬IsSpace stop := by
    simp only [List.mem_cons, List.not_mem_nil, or_false] at stopMem
    rcases stopMem with rfl | rfl <;> decide
  have comma : ¬IsNumberChar ',' := by decide
  have brace : ¬IsNumberChar '}' := by decide
  constructor
  · rintro ⟨after, listed, closed⟩
    cases listed with
    | last named separated read =>
        rcases (named_iff reads).mp ⟨_, named, separated⟩ with ⟨rfl, rfl⟩
        have ended := ended_of_structural closed brace
        rcases (reads.reads.value_iff stopMem ended).mp read with ⟨fine, rfl, rfl⟩
        rw [structural_iff stopDark dark] at closed
        exact ⟨fine, Or.inl ⟨closed.1, rfl, closed.2⟩⟩
    | more named colon read separated later =>
        rcases (named_iff reads).mp ⟨_, named, colon⟩ with ⟨rfl, rfl⟩
        have ended := ended_of_structural separated comma
        rcases (reads.reads.value_iff stopMem ended).mp read with ⟨fine, rfl, rfl⟩
        rw [structural_iff stopDark dark] at separated
        rcases separated with ⟨rfl, rfl⟩
        exact ⟨fine, Or.inr ⟨rfl, _, rfl, after, later, closed⟩⟩
  · rintro ⟨fine, alternatives⟩
    have head : ∃ after, StringText (entry.written ++ stop :: behind) entry.name after ∧
        Structural ':' after (entry.text ++ stop :: behind) :=
      (named_iff reads).mpr ⟨rfl, rfl⟩
    rcases head with ⟨colonAt, named, colon⟩
    rcases alternatives with ⟨rfl, rfl, rfl⟩ | ⟨rfl, others, rfl, after, listed, closed⟩
    · have closed : Structural '}' ('}' :: rest) rest :=
        (structural_iff stopDark dark).mpr ⟨rfl, rfl⟩
      have read := (reads.reads.value_iff stopMem (ended_of_structural closed brace)).mpr
        ⟨fine, rfl, rfl⟩
      exact ⟨_, .last named colon read, closed⟩
    · have separated : Structural ',' (',' :: behind) behind :=
        (structural_iff stopDark dark).mpr ⟨rfl, rfl⟩
      have read := (reads.reads.value_iff stopMem (ended_of_structural separated comma)).mpr
        ⟨fine, rfl, rfl⟩
      exact ⟨after, .more named colon read separated listed, closed⟩

theorem dark_written (entry : Entry) (more : List Char) : Dark (entry.written ++ more) := by
  have quote : ¬IsSpace '"' := by decide
  exact dark_cons quote

/-- The members of an object are read one after the other, up to the closing brace. -/
theorem members_iff {good : Entry → Prop} {first : Entry} {entries : List Entry}
    (reads : ∀ entry ∈ first :: entries, entry.Reads good) {tail rest : List Char}
    (tailDark : Dark tail) {members : List (String × Json)} :
    (∃ after, Members (first.written ++ (others entries ++ '}' :: tail)) members after ∧
        Structural '}' after rest) ↔
      (∀ entry ∈ first :: entries, good entry) ∧ members = (first :: entries).map member ∧
        rest = tail := by
  induction entries generalizing first members with
  | nil =>
      rw [others, List.flatMap_nil, List.nil_append,
        members_written_iff (reads first List.mem_cons_self) (by simp) tailDark]
      simp
  | cons second entries ih =>
      rw [List.forall_mem_cons] at reads
      rw [others, List.flatMap_cons, List.append_assoc, List.cons_append, ← others,
        members_written_iff reads.1 (by simp) (dark_written second _)]
      simp only [ih reads.2, List.forall_mem_cons, List.map_cons]
      constructor
      · rintro ⟨fine, ⟨comma, -⟩ | ⟨-, later, rfl, every, rfl, rest_eq⟩⟩
        · simp at comma
        · exact ⟨⟨fine, every⟩, rfl, rest_eq⟩
      · rintro ⟨⟨fine, every⟩, rfl, rest_eq⟩
        exact ⟨fine, Or.inr ⟨trivial, _, rfl, every, rfl, rest_eq⟩⟩

/-- The text of an object with these members. -/
def objectText (first : Entry) (entries : List Entry) : String :=
  String.ofList ('{' :: (first.written ++ (others entries ++ ['}'])))

/-- The object is JSON only if all its members are good, and then it stands for their values. -/
theorem isText_objectText_iff {good : Entry → Prop} {first : Entry} {entries : List Entry}
    (reads : ∀ entry ∈ first :: entries, entry.Reads good) {value : Json} :
    IsText (objectText first entries) value ↔
      (∀ entry ∈ first :: entries, good entry) ∧
        value = .object ((first :: entries).map member) := by
  have noTail : Dark [] := by simp [Dark]
  have quoteFirst : ∀ rest, ¬Structural '}' (first.written ++ (others entries ++ ['}'])) rest := by
    intro rest closed
    have quote := eq_sign_or_isSpace closed
    simp [IsSpace] at quote
  constructor
  · rintro ⟨before, body, after, spaces, -, text_eq, read⟩
    have brace : ¬IsSpace '{' := by decide
    rw [objectText, String.toList_ofList] at text_eq
    rw [eq_of_spaces_append (dark_cons brace) spaces text_eq,
      value_brace_iff (dark_written first _)] at read
    rcases read with ⟨-, closed⟩ | ⟨members, behind, rfl, listed, closed⟩
    · exact absurd closed (quoteFirst after)
    · rcases (members_iff reads noTail).mp ⟨behind, listed, closed⟩ with ⟨every, rfl, -⟩
      exact ⟨every, rfl⟩
  · rintro ⟨every, rfl⟩
    rcases (members_iff reads noTail).mpr ⟨every, rfl, rfl⟩ with ⟨after, listed, closed⟩
    refine ⟨[], _, [], by simp, by simp, String.toList_ofList, ?_⟩
    exact (value_brace_iff (dark_written first _)).mpr (Or.inr ⟨_, _, rfl, listed, closed⟩)

end Entry

end Json
