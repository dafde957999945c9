import Qubit.Ebpf.HostHeader

/-!
# Text in captured bytes

A capture can end anywhere, inside a character as well. UTF-8 bytes that are cut between
two characters are the bytes of two texts, and a cut anywhere else leaves bytes that are
no text. The separators that the parser looks for are ASCII, so they are found in the
bytes of a text exactly where they stand in the text.
-/

namespace Qubit.Ebpf

theorem toByteArray_utf8Bytes (text : String) :
    (utf8Bytes text).toByteArray = text.toByteArray :=
  String.utf8Encode_toList

theorem utf8Bytes_append (left right : String) :
    utf8Bytes (left ++ right) = utf8Bytes left ++ utf8Bytes right := by
  simp [utf8Bytes]

theorem fromUtf8_eq_some_iff {bytes : List UInt8} {text : String} :
    fromUtf8 bytes = some text ↔ utf8Bytes text = bytes := by
  constructor
  · intro read
    simp only [fromUtf8, String.fromUTF8?, Option.dite_none_right_eq_some,
      Option.some.injEq] at read
    rcases read with ⟨valid, rfl⟩
    apply List.toByteArray_inj.mp
    rw [toByteArray_utf8Bytes]
    rfl
  · rintro rfl
    exact fromUtf8_utf8Bytes text

/-- A text whose bytes begin another text begins it as a text. -/
theorem exists_append_of_utf8Bytes_prefix {text whole : String}
    (front : utf8Bytes text <+: utf8Bytes whole) : ∃ rest, whole = text ++ rest := by
  rcases front with ⟨back, whole_eq⟩
  have encoded : text.toList.utf8Encode ++ back.toByteArray = whole.toList.utf8Encode := by
    have bytes := congrArg List.toByteArray whole_eq
    rw [List.toByteArray_append, toByteArray_utf8Bytes, toByteArray_utf8Bytes] at bytes
    simpa using bytes
  rcases List.isPrefix_of_utf8Encode_append_eq_utf8Encode _ encoded with ⟨rest, chars⟩
  refine ⟨String.ofList rest, ?_⟩
  apply String.toList_inj.mp
  simp [chars]

/-- What follows a text is text exactly when the two together are. -/
theorem fromUtf8_append {front back : List UInt8} {text : String}
    (read : fromUtf8 front = some text) :
    fromUtf8 (front ++ back) = (fromUtf8 back).map (text ++ ·) := by
  obtain rfl := fromUtf8_eq_some_iff.mp read
  apply Option.ext
  intro whole
  rw [fromUtf8_eq_some_iff, Option.map_eq_some_iff]
  constructor
  · intro whole_eq
    rcases exists_append_of_utf8Bytes_prefix ⟨back, whole_eq.symm⟩ with ⟨rest, rfl⟩
    rw [utf8Bytes_append, List.append_cancel_left_eq] at whole_eq
    exact ⟨rest, fromUtf8_eq_some_iff.mpr whole_eq, rfl⟩
  · rintro ⟨rest, rest_eq, rfl⟩
    rw [utf8Bytes_append, fromUtf8_eq_some_iff.mp rest_eq]

/-! ## ASCII characters -/

theorem toNat_of_mem_utf8EncodeChar {char : Char} {byte : UInt8}
    (byteMem : byte ∈ String.utf8EncodeChar char) (ascii : byte.toNat < 0x80) :
    char.toNat = byte.toNat := by
  have toNat_eq : char.toNat = char.val.toNat := rfl
  unfold String.utf8EncodeChar at byteMem
  dsimp only at byteMem
  split at byteMem
  · obtain rfl := List.mem_singleton.mp byteMem
    rw [UInt8.toNat_ofNat']
    omega
  · split at byteMem
    · simp only [List.mem_cons, List.not_mem_nil, or_false] at byteMem
      rcases byteMem with rfl | rfl <;> rw [UInt8.toNat_ofNat'] at ascii <;> omega
    · split at byteMem
      · simp only [List.mem_cons, List.not_mem_nil, or_false] at byteMem
        rcases byteMem with rfl | rfl | rfl <;> rw [UInt8.toNat_ofNat'] at ascii <;> omega
      · simp only [List.mem_cons, List.not_mem_nil, or_false] at byteMem
        rcases byteMem with rfl | rfl | rfl | rfl <;> rw [UInt8.toNat_ofNat'] at ascii <;> omega

/-- An ASCII character stands in a text exactly where its byte stands in the bytes. -/
theorem mem_utf8Bytes_iff {byte : UInt8} (ascii : byte.toNat < 0x80) {char : Char}
    (char_eq : char.toNat = byte.toNat) {text : String} :
    byte ∈ utf8Bytes text ↔ char ∈ text.toList := by
  rw [utf8Bytes, List.mem_flatMap]
  constructor
  · rintro ⟨other, otherMem, byteMem⟩
    have same : other = char := by
      apply Char.toNat_inj.mp
      rw [toNat_of_mem_utf8EncodeChar byteMem ascii, char_eq]
    exact same ▸ otherMem
  · intro charMem
    refine ⟨char, charMem, ?_⟩
    have small : char.val.toNat ≤ 0x7F := by
      rw [← Char.toNat]
      omega
    simp only [String.utf8EncodeChar, small, if_true]
    rw [← Char.toNat, char_eq]
    simp

end Qubit.Ebpf
