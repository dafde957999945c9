import Mathlib.Data.Fintype.Basic
import Mathlib.Tactic.DeriveFintype

/-!
# IPv4 addresses as text

The dotted decimal notation: four decimal octets without leading zeros, joined by
dots. Printing an address and reading it back gives the address, so two addresses
with the same text are equal.
-/

namespace Ipv4

/-- An address by its four octets, most significant first. -/
structure Addr where
  first : UInt8
  second : UInt8
  third : UInt8
  fourth : UInt8
deriving DecidableEq

def Addr.ofUInt32 (bits : UInt32) : Addr where
  first := UInt8.ofNat (bits.toNat / 256 / 256 / 256)
  second := UInt8.ofNat (bits.toNat / 256 / 256)
  third := UInt8.ofNat (bits.toNat / 256)
  fourth := UInt8.ofNat bits.toNat

def swapBytes (bits : UInt32) : UInt32 :=
  UInt32.ofNat
    (((bits.toNat % 256 * 256 + bits.toNat / 256 % 256) * 256 +
      bits.toNat / 256 / 256 % 256) * 256 + bits.toNat / 256 / 256 / 256)

def octetDigits (octet : UInt8) : List Char :=
  Nat.toDigits 10 octet.toNat

/-- Read one octet: one to three digits, no leading zero, at most 255. -/
def readOctet (digits : List Char) : Option UInt8 :=
  if digits = [] ∨ 3 < digits.length ∨ (digits.head? = some '0' ∧ 1 < digits.length) ∨
      ¬digits.all Char.isDigit then
    none
  else
    let value := digits.foldl (fun value digit => 10 * value + (digit.toNat - '0'.toNat)) 0
    if value ≤ 255 then some (UInt8.ofNat value) else none

def Addr.chars (addr : Addr) : List Char :=
  ['.'].intercalate
    [octetDigits addr.first, octetDigits addr.second, octetDigits addr.third,
      octetDigits addr.fourth]

def Addr.toText (addr : Addr) : String :=
  String.ofList addr.chars

/-- Read a dotted decimal address; `none` when the text is not one. -/
def parse (text : String) : Option Addr :=
  match text.toList.splitOn '.' with
  | [first, second, third, fourth] => do
      let first ← readOctet first
      let second ← readOctet second
      let third ← readOctet third
      let fourth ← readOctet fourth
      return ⟨first, second, third, fourth⟩
  | _ => none

theorem forall_octet {property : UInt8 → Prop}
    (byNumber : ∀ number : Fin 256, property (UInt8.ofNat number.val)) (octet : UInt8) :
    property octet := by
  have bounded : octet.toNat < 256 := octet.toNat_lt
  have atNumber := byNumber ⟨octet.toNat, bounded⟩
  rwa [UInt8.ofNat_toNat] at atNumber

theorem readOctet_octetDigits (octet : UInt8) : readOctet (octetDigits octet) = some octet := by
  induction octet using forall_octet with
  | byNumber number => decide +revert +kernel

theorem notMem_octetDigits (octet : UInt8) :
    '.' ∉ octetDigits octet ∧ ':' ∉ octetDigits octet := by
  induction octet using forall_octet with
  | byNumber number => decide +revert +kernel

theorem parse_toText (addr : Addr) : parse addr.toText = some addr := by
  have pieces : addr.toText.toList.splitOn '.' =
      [octetDigits addr.first, octetDigits addr.second, octetDigits addr.third,
        octetDigits addr.fourth] := by
    rw [Addr.toText, String.toList_ofList, Addr.chars]
    apply List.splitOn_intercalate
    · intro piece mem
      simp only [List.mem_cons, List.not_mem_nil, or_false] at mem
      rcases mem with rfl | rfl | rfl | rfl <;> exact (notMem_octetDigits _).1
    · simp
  simp [parse, pieces, readOctet_octetDigits]

theorem isDigit_of_readOctet {digits : List Char} {octet : UInt8}
    (read : readOctet digits = some octet) : ∀ char ∈ digits, char.isDigit = true := by
  rw [readOctet, Option.ite_none_left_eq_some] at read
  simpa using (not_or.mp (not_or.mp (not_or.mp read.1).2).2).2

/-- The pieces of an address are numbers. -/
theorem isDigit_of_parse {text : String} {addr : Addr} (parsed : parse text = some addr) :
    ∀ piece ∈ text.toList.splitOn '.', ∀ char ∈ piece, char.isDigit = true := by
  unfold parse at parsed
  split at parsed
  · rename_i first second third fourth pieces
    simp only [Option.bind_eq_bind, Option.bind_eq_some_iff] at parsed
    rcases parsed with ⟨_, readFirst, _, readSecond, _, readThird, _, readFourth, -⟩
    intro piece pieceMem
    simp only [pieces, List.mem_cons, List.not_mem_nil, or_false] at pieceMem
    rcases pieceMem with rfl | rfl | rfl | rfl
    · exact isDigit_of_readOctet readFirst
    · exact isDigit_of_readOctet readSecond
    · exact isDigit_of_readOctet readThird
    · exact isDigit_of_readOctet readFourth
  · cases parsed

theorem toText_injective : Function.Injective Addr.toText := by
  intro left right same
  have parsed := parse_toText left
  rw [same, parse_toText right, Option.some.injEq] at parsed
  exact parsed.symm

theorem colon_notMem_toText (addr : Addr) : ':' ∉ addr.toText.toList := by
  have first := (notMem_octetDigits addr.first).2
  have second := (notMem_octetDigits addr.second).2
  have third := (notMem_octetDigits addr.third).2
  have fourth := (notMem_octetDigits addr.fourth).2
  simp [Addr.toText, Addr.chars, first, second, third, fourth]

theorem ofUInt32_injective : Function.Injective Addr.ofUInt32 := by
  intro left right same
  simp only [Addr.ofUInt32, Addr.mk.injEq, ← UInt8.toNat_inj, UInt8.toNat_ofNat'] at same
  rw [← UInt32.toNat_inj]
  have leftBound := left.toNat_lt
  have rightBound := right.toNat_lt
  omega

/-- Four base-256 digits are determined by the number they write. -/
theorem digits_injective {a b c d a' b' c' d' : Nat} (b_lt : b < 256) (c_lt : c < 256)
    (d_lt : d < 256) (b'_lt : b' < 256) (c'_lt : c' < 256) (d'_lt : d' < 256)
    (same : ((a * 256 + b) * 256 + c) * 256 + d = ((a' * 256 + b') * 256 + c') * 256 + d') :
    a = a' ∧ b = b' ∧ c = c' ∧ d = d' := by
  omega

theorem toNat_swapBytes (bits : UInt32) :
    (swapBytes bits).toNat =
      ((bits.toNat % 256 * 256 + bits.toNat / 256 % 256) * 256 +
        bits.toNat / 256 / 256 % 256) * 256 + bits.toNat / 256 / 256 / 256 := by
  rw [swapBytes, UInt32.toNat_ofNat']
  apply Nat.mod_eq_of_lt
  have bound := bits.toNat_lt
  omega

/-- The octets of an address whose first byte in memory is the least significant one. -/
theorem ofUInt32_swapBytes {bits : UInt32} {first second third fourth : UInt8}
    (bits_eq : bits.toNat =
      first.toNat + 256 * (second.toNat + 256 * (third.toNat + 256 * fourth.toNat))) :
    Addr.ofUInt32 (swapBytes bits) = ⟨first, second, third, fourth⟩ := by
  have first_lt : first.toNat < 256 := first.toNat_lt
  have second_lt : second.toNat < 256 := second.toNat_lt
  have third_lt : third.toNat < 256 := third.toNat_lt
  have fourth_lt : fourth.toNat < 256 := fourth.toNat_lt
  have swapped := toNat_swapBytes bits
  rw [show bits.toNat % 256 = first.toNat by omega,
    show bits.toNat / 256 % 256 = second.toNat by omega,
    show bits.toNat / 256 / 256 % 256 = third.toNat by omega,
    show bits.toNat / 256 / 256 / 256 = fourth.toNat by omega] at swapped
  simp only [Addr.ofUInt32, Addr.mk.injEq, ← UInt8.toNat_inj, UInt8.toNat_ofNat', swapped]
  exact ⟨by omega, by omega, by omega, by omega⟩

theorem swapBytes_injective : Function.Injective swapBytes := by
  intro left right same
  rw [← UInt32.toNat_inj, toNat_swapBytes, toNat_swapBytes] at same
  have leftBound := left.toNat_lt
  have rightBound := right.toNat_lt
  rcases digits_injective (Nat.mod_lt _ (by decide))
    (Nat.mod_lt _ (by decide)) (by omega) (Nat.mod_lt _ (by decide))
    (Nat.mod_lt _ (by decide)) (by omega) same with
    ⟨first, second, third, fourth⟩
  rw [← UInt32.toNat_inj]
  calc left.toNat
      = 256 * (256 * (256 * (left.toNat / 256 / 256 / 256) + left.toNat / 256 / 256 % 256) +
          left.toNat / 256 % 256) + left.toNat % 256 := by
        rw [Nat.div_add_mod, Nat.div_add_mod, Nat.div_add_mod]
    _ = 256 * (256 * (256 * (right.toNat / 256 / 256 / 256) + right.toNat / 256 / 256 % 256) +
          right.toNat / 256 % 256) + right.toNat % 256 := by
        rw [first, second, third, fourth]
    _ = right.toNat := by
        rw [Nat.div_add_mod, Nat.div_add_mod, Nat.div_add_mod]

end Ipv4
