import Mathlib.Data.List.Basic
import Mathlib.Tactic.Ring

/-!
# Records as bytes

C lays the fields of a record out in their order, each at the next multiple of its
alignment. The bytes of every field are found at its offset, in the bytes of the record
and in any buffer that begins with them; a reader that expects fewer bytes there gets the
first of them.
-/

namespace ReprC

inductive ByteOrder where
  | little
  | big

namespace ByteOrder

def encodeLittle : (width : ℕ) → ℕ → List UInt8
  | 0, _ => []
  | width + 1, n => UInt8.ofNat n :: encodeLittle width (n / 256)

def decodeLittle : List UInt8 → ℕ
  | [] => 0
  | byte :: rest => byte.toNat + 256 * decodeLittle rest

def encode : ByteOrder → (width : ℕ) → ℕ → List UInt8
  | .little, width, n => encodeLittle width n
  | .big, width, n => (encodeLittle width n).reverse

def decode : ByteOrder → List UInt8 → ℕ
  | .little, bytes => decodeLittle bytes
  | .big, bytes => decodeLittle bytes.reverse

theorem length_encodeLittle (width n : ℕ) : (encodeLittle width n).length = width := by
  induction width generalizing n with
  | zero => rfl
  | succ width ih => simp [encodeLittle, ih]

theorem decodeLittle_encodeLittle {width n : ℕ} (fits : n < 256 ^ width) :
    decodeLittle (encodeLittle width n) = n := by
  induction width generalizing n with
  | zero =>
      obtain rfl : n = 0 := by simpa using fits
      rfl
  | succ width ih =>
      have quotient : n / 256 < 256 ^ width := by
        rw [Nat.div_lt_iff_lt_mul (by omega), ← Nat.pow_succ]
        exact fits
      rw [encodeLittle, decodeLittle, ih quotient, UInt8.toNat_ofNat']
      omega

@[simp]
theorem length_encode (order : ByteOrder) (width n : ℕ) :
    (order.encode width n).length = width := by
  cases order <;> simp [encode, length_encodeLittle]

theorem decode_encode (order : ByteOrder) {width n : ℕ} (fits : n < 256 ^ width) :
    order.decode (order.encode width n) = n := by
  cases order <;> simp [decode, encode, decodeLittle_encodeLittle fits]

theorem decodeLittle_lt (bytes : List UInt8) : decodeLittle bytes < 256 ^ bytes.length := by
  induction bytes with
  | nil => simp [decodeLittle]
  | cons byte rest ih =>
      have byte_lt : byte.toNat < 256 := byte.toNat_lt
      rw [decodeLittle, List.length_cons, Nat.pow_succ]
      omega

theorem decode_lt (order : ByteOrder) (bytes : List UInt8) :
    order.decode bytes < 256 ^ bytes.length := by
  cases order with
  | little => exact decodeLittle_lt bytes
  | big => simpa [decode] using decodeLittle_lt bytes.reverse

theorem encodeLittle_decodeLittle (bytes : List UInt8) :
    encodeLittle bytes.length (decodeLittle bytes) = bytes := by
  induction bytes with
  | nil => rfl
  | cons byte rest ih =>
      have byte_lt : byte.toNat < 256 := byte.toNat_lt
      have quotient : (byte.toNat + 256 * decodeLittle rest) / 256 = decodeLittle rest := by
        omega
      have remainder : UInt8.ofNat (byte.toNat + 256 * decodeLittle rest) = byte := by
        apply UInt8.toNat_inj.mp
        rw [UInt8.toNat_ofNat']
        omega
      rw [List.length_cons, decodeLittle, encodeLittle, quotient, remainder, ih]

theorem encode_decode (order : ByteOrder) (bytes : List UInt8) :
    order.encode bytes.length (order.decode bytes) = bytes := by
  cases order with
  | little => exact encodeLittle_decodeLittle bytes
  | big =>
      have reversed := encodeLittle_decodeLittle bytes.reverse
      rw [List.length_reverse] at reversed
      rw [decode, encode, reversed, List.reverse_reverse]

theorem decode_singleton (order : ByteOrder) (byte : UInt8) :
    order.decode [byte] = byte.toNat := by
  cases order <;> simp [decode, decodeLittle]

end ByteOrder

/-! ## Layout -/

structure FieldType where
  size : ℕ
  align : ℕ

def padding (offset align : ℕ) : ℕ :=
  (align - offset % align) % align

/-- Where the fields start when the first may start at an offset. -/
def offsetsFrom : ℕ → List FieldType → List ℕ
  | _, [] => []
  | offset, type :: rest =>
      let start := offset + padding offset type.align
      start :: offsetsFrom (start + type.size) rest

def endFrom : ℕ → List FieldType → ℕ
  | offset, [] => offset
  | offset, type :: rest => endFrom (offset + padding offset type.align + type.size) rest

def offset (types : List FieldType) (index : ℕ) : ℕ :=
  (offsetsFrom 0 types).getD index 0

/-- A record is as large as its fields, up to a multiple of the largest alignment. -/
def sizeOf (types : List FieldType) : ℕ :=
  endFrom 0 types + padding (endFrom 0 types) ((types.map FieldType.align).foldr max 1)

structure Field where
  align : ℕ
  bytes : List UInt8

def Field.type (field : Field) : FieldType where
  size := field.bytes.length
  align := field.align

/-- The bytes of the fields, with zeros between them. -/
def bytesFrom : ℕ → List Field → List UInt8
  | _, [] => []
  | offset, field :: rest =>
      List.replicate (padding offset field.align) 0 ++ (field.bytes ++
        bytesFrom (offset + padding offset field.align + field.bytes.length) rest)

def bytes (fields : List Field) : List UInt8 :=
  let packed := bytesFrom 0 fields
  packed ++ List.replicate (sizeOf (fields.map Field.type) - packed.length) 0

/-- The bytes at the offset of a field. -/
def fieldAt (types : List FieldType) (index size : ℕ) (buffer : List UInt8) : List UInt8 :=
  (buffer.drop (offset types index)).take size

theorem length_bytesFrom (offset : ℕ) (fields : List Field) :
    offset + (bytesFrom offset fields).length = endFrom offset (fields.map Field.type) := by
  induction fields generalizing offset with
  | nil => rfl
  | cons field rest ih =>
      rw [List.map_cons, endFrom, Field.type, ← ih]
      simp only [bytesFrom, List.length_append, List.length_replicate]
      omega

@[simp]
theorem length_bytes (fields : List Field) :
    (bytes fields).length = sizeOf (fields.map Field.type) := by
  have packed := length_bytesFrom 0 fields
  rw [Nat.zero_add] at packed
  rw [bytes, List.length_append, List.length_replicate, packed, sizeOf]
  omega

theorem prefix_drop_bytesFrom {fields : List Field} {index : ℕ} {field : Field}
    (there : fields[index]? = some field) (front trailing : List UInt8) :
    field.bytes <+: (front ++ (bytesFrom front.length fields ++ trailing)).drop
      ((offsetsFrom front.length (fields.map Field.type)).getD index 0) := by
  induction fields generalizing index front with
  | nil => simp at there
  | cons first rest ih =>
      have padded : (front ++ List.replicate (padding front.length first.align) 0).length =
          front.length + padding front.length first.align := by
        simp
      cases index with
      | zero =>
          obtain rfl : first = field := by simpa using there
          rw [List.map_cons, offsetsFrom, List.getD_cons_zero, bytesFrom, List.append_assoc,
            ← List.append_assoc front, Field.type, ← padded, List.drop_left, List.append_assoc]
          exact List.prefix_append _ _
      | succ index =>
          have behind := ih (by simpa using there)
            (front ++ List.replicate (padding front.length first.align) 0 ++ first.bytes)
          rw [List.length_append, padded] at behind
          simpa [offsetsFrom, bytesFrom, Field.type, List.append_assoc] using behind

/-- A field is read back from its record, up to the size that the reader expects. -/
theorem fieldAt_bytes {fields : List Field} {index size : ℕ} {field : Field}
    (there : fields[index]? = some field) {types : List FieldType}
    (sameOffset : offset types index = offset (fields.map Field.type) index)
    (size_le : size ≤ field.bytes.length) (trailing : List UInt8) :
    fieldAt types index size (bytes fields ++ trailing) = field.bytes.take size := by
  rcases prefix_drop_bytesFrom there []
    (List.replicate (sizeOf (fields.map Field.type) - (bytesFrom 0 fields).length) 0 ++
      trailing) with ⟨behind, behind_eq⟩
  rw [List.nil_append, List.length_nil, ← List.append_assoc] at behind_eq
  rw [fieldAt, sameOffset, bytes, offset, ← behind_eq, List.take_append_of_le_length size_le]

end ReprC
