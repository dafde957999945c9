import Mathlib.Algebra.Order.Field.Rat
import Mathlib.Data.List.Basic

/-!
# The JSON grammar

The grammar of the JSON standard, one definition for each production, with the value that
a text stands for. A production relates a text to its value and to what is left behind it.
White space may stand around the structural characters and around the whole text; it may
not stand inside a string unless it is a blank, since every character below the blank has
to be escaped there.
-/

inductive Json where
  | null
  | bool (value : Bool)
  | number (value : ℚ)
  | string (value : String)
  | array (values : List Json)
  | object (members : List (String × Json))

namespace Json

/-- `ws` -/
def IsSpace (char : Char) : Prop :=
  char ∈ [' ', '\t', '\n', '\r']

instance (char : Char) : Decidable (IsSpace char) :=
  inferInstanceAs (Decidable (char ∈ [' ', '\t', '\n', '\r']))

/-- A structural character, with white space on both sides. -/
def Structural (char : Char) (text rest : List Char) : Prop :=
  ∃ before after : List Char, (∀ space ∈ before, IsSpace space) ∧
    (∀ space ∈ after, IsSpace space) ∧ text = before ++ char :: (after ++ rest)

/-! ## Strings -/

/-- One `char` of a string: a character, or a code unit given by its number. -/
inductive Piece where
  | char (char : Char)
  | unit (unit : Nat)

/-- What may follow a backslash, and the character it stands for. -/
def escapes : List (Char × Char) :=
  [('"', '"'), ('\\', '\\'), ('/', '/'), ('b', '\x08'), ('f', '\x0c'), ('n', '\n'), ('r', '\r'),
    ('t', '\t')]

/-- `unescaped` -/
def IsUnescaped (char : Char) : Prop :=
  0x20 ≤ char.toNat ∧ char ≠ '"' ∧ char ≠ '\\'

instance (char : Char) : Decidable (IsUnescaped char) :=
  inferInstanceAs (Decidable (_ ∧ _))

/-- `HEXDIG` -/
def hexValue? (digit : Char) : Option Nat :=
  "0123456789abcdef".toList.idxOf? digit.toLower

/-- `4HEXDIG` -/
def readHex : List Char → Option Nat
  | [first, second, third, fourth] => do
      let first ← hexValue? first
      let second ← hexValue? second
      let third ← hexValue? third
      let fourth ← hexValue? fourth
      return ((first * 16 + second) * 16 + third) * 16 + fourth
  | _ => none

/-- `*char quotation-mark` -/
inductive Body : List Char → List Piece → List Char → Prop where
  | close {rest : List Char} : Body ('"' :: rest) [] rest
  | unescaped {char : Char} {text rest : List Char} {pieces : List Piece}
      (allowed : IsUnescaped char) (more : Body text pieces rest) :
      Body (char :: text) (.char char :: pieces) rest
  | escaped {sign char : Char} {text rest : List Char} {pieces : List Piece}
      (listed : (sign, char) ∈ escapes) (more : Body text pieces rest) :
      Body ('\\' :: sign :: text) (.char char :: pieces) rest
  | unicode {digits text rest : List Char} {unit : Nat} {pieces : List Piece}
      (read : readHex digits = some unit) (more : Body text pieces rest) :
      Body ('\\' :: 'u' :: (digits ++ text)) (.unit unit :: pieces) rest

def IsHighSurrogate (unit : Nat) : Prop :=
  0xD800 ≤ unit ∧ unit < 0xDC00

def IsLowSurrogate (unit : Nat) : Prop :=
  0xDC00 ≤ unit ∧ unit < 0xE000

instance (unit : Nat) : Decidable (IsHighSurrogate unit) :=
  inferInstanceAs (Decidable (_ ∧ _))

instance (unit : Nat) : Decidable (IsLowSurrogate unit) :=
  inferInstanceAs (Decidable (_ ∧ _))

/-- The character of a code unit; a lone surrogate has none and is replaced. -/
def charOfUnit (unit : Nat) : Char :=
  if unit.isValidChar then Char.ofNat unit else '\uFFFD'

/-- The characters of a string; two code units can make up one. -/
def decode : List Piece → List Char
  | [] => []
  | .char char :: rest => char :: decode rest
  | .unit high :: .unit low :: rest =>
      if IsHighSurrogate high ∧ IsLowSurrogate low then
        Char.ofNat (0x10000 + (high - 0xD800) * 0x400 + (low - 0xDC00)) :: decode rest
      else charOfUnit high :: decode (.unit low :: rest)
  | .unit unit :: rest => charOfUnit unit :: decode rest

/-- `string` -/
def StringText (text : List Char) (value : String) (rest : List Char) : Prop :=
  ∃ body pieces, text = '"' :: body ∧ Body body pieces rest ∧ value = String.ofList (decode pieces)

/-! ## Numbers -/

/-- `exp` -/
structure Exponent where
  marker : Char
  sign : List Char
  digits : List Char
  marker_mem : marker ∈ ['e', 'E']
  sign_mem : sign ∈ [[], ['+'], ['-']]
  digits_ne : digits ≠ []
  digits_isDigit : ∀ digit ∈ digits, digit.isDigit

def Exponent.text (exp : Exponent) : List Char :=
  exp.marker :: (exp.sign ++ exp.digits)

def Exponent.value (exp : Exponent) : ℤ :=
  if exp.sign = ['-'] then -Nat.ofDigitChars 10 exp.digits 0 else Nat.ofDigitChars 10 exp.digits 0

/-- `number`; without a `frac` the digits of the fraction are empty. -/
structure NumberText where
  minus : Bool
  int : List Char
  frac : List Char
  exp : Option Exponent
  int_ne : int ≠ []
  int_isDigit : ∀ digit ∈ int, digit.isDigit
  int_zero : int.head? = some '0' → int = ['0']
  frac_isDigit : ∀ digit ∈ frac, digit.isDigit

namespace NumberText

def text (number : NumberText) : List Char :=
  (if number.minus then ['-'] else []) ++ number.int ++
    (if number.frac = [] then [] else '.' :: number.frac) ++
      number.exp.elim [] Exponent.text

def value (number : NumberText) : ℚ :=
  (if number.minus then -1 else 1) * Nat.ofDigitChars 10 (number.int ++ number.frac) 0 *
    10 ^ (number.exp.elim 0 Exponent.value - number.frac.length)

end NumberText

/-! ## Values -/

mutual

/-- `value` -/
inductive Value : List Char → Json → List Char → Prop where
  | null {text rest : List Char} (written : text = "null".toList ++ rest) : Value text .null rest
  | true {text rest : List Char} (written : text = "true".toList ++ rest) :
      Value text (.bool true) rest
  | false {text rest : List Char} (written : text = "false".toList ++ rest) :
      Value text (.bool false) rest
  | number {text rest : List Char} (number : NumberText) (written : text = number.text ++ rest) :
      Value text (.number number.value) rest
  | string {text rest : List Char} {value : String} (written : StringText text value rest) :
      Value text (.string value) rest
  | emptyArray {text inner rest : List Char} (opened : Structural '[' text inner)
      (closed : Structural ']' inner rest) : Value text (.array []) rest
  | array {text inner after rest : List Char} {values : List Json}
      (opened : Structural '[' text inner) (elements : Elements inner values after)
      (closed : Structural ']' after rest) : Value text (.array values) rest
  | emptyObject {text inner rest : List Char} (opened : Structural '{' text inner)
      (closed : Structural '}' inner rest) : Value text (.object []) rest
  | object {text inner after rest : List Char} {members : List (String × Json)}
      (opened : Structural '{' text inner) (listed : Members inner members after)
      (closed : Structural '}' after rest) : Value text (.object members) rest

/-- `value *( value-separator value )` -/
inductive Elements : List Char → List Json → List Char → Prop where
  | last {text rest : List Char} {value : Json} (read : Value text value rest) :
      Elements text [value] rest
  | more {text after next rest : List Char} {value : Json} {values : List Json}
      (read : Value text value after) (separated : Structural ',' after next)
      (others : Elements next values rest) : Elements text (value :: values) rest

/-- `member *( value-separator member )` -/
inductive Members : List Char → List (String × Json) → List Char → Prop where
  | last {text after inner rest : List Char} {name : String} {value : Json}
      (named : StringText text name after) (separated : Structural ':' after inner)
      (read : Value inner value rest) : Members text [(name, value)] rest
  | more {text after inner behind next rest : List Char} {name : String} {value : Json}
      {members : List (String × Json)} (named : StringText text name after)
      (colon : Structural ':' after inner) (read : Value inner value behind)
      (separated : Structural ',' behind next) (others : Members next members rest) :
      Members text ((name, value) :: members) rest

end

/-- `JSON-text` -/
def IsText (text : String) (value : Json) : Prop :=
  ∃ before body after, (∀ space ∈ before, IsSpace space) ∧ (∀ space ∈ after, IsSpace space) ∧
    text.toList = before ++ body ∧ Value body value after

/-- The text is JSON, and there is one value it stands for. -/
structure Parses (text : String) (value : Json) : Prop where
  isText : IsText text value
  unique : ∀ other, IsText text other → other = value

end Json
