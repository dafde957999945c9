import Qubit.Lib.ReprC

/-!
# The event between the kernel and the loader

The eBPF program and the loader each declare `TcpPayloadEvent` on their own. The
declarations differ in the capacity of the payload only, so the loader reads every field
before the payload as the kernel wrote it, and of the payload the part it has room for.
-/

namespace Qubit.Ebpf

open ReprC (ByteOrder Field FieldType)

/-- The fields of both declarations, over the capacity of the payload. -/
structure TcpPayloadEvent (maxPayload : ℕ) where
  timestampNs : UInt64
  srcIp : UInt32
  dstIp : UInt32
  srcPort : UInt16
  dstPort : UInt16
  payloadLen : UInt16
  padding : UInt16
  payload : Vector UInt8 maxPayload

/-- The capacity in the eBPF program. -/
def kernelMaxPayload : ℕ := 1024

/-- The capacity in the types shared with the loader. -/
def commonMaxPayload : ℕ := 128

/-- Bytes written to the front of a buffer. -/
def writeFront {size : ℕ} (buffer : Vector UInt8 size) (bytes : List UInt8) :
    Vector UInt8 size :=
  Vector.ofFn fun index => bytes.getD index buffer[index]

theorem toList_writeFront {size : ℕ} (buffer : Vector UInt8 size) {bytes : List UInt8}
    (fits : bytes.length ≤ size) :
    (writeFront buffer bytes).toList = bytes ++ buffer.toList.drop bytes.length := by
  apply List.ext_getElem
  · simp
    omega
  · intro index within _
    by_cases written : index < bytes.length
    · simp [writeFront, List.getElem_append_left, written]
    · have index_eq : bytes.length + (index - bytes.length) = index := by omega
      rw [List.getElem_append_right (by omega)]
      simp [writeFront, written, index_eq]

namespace TcpPayloadEvent

variable {maxPayload : ℕ}

def fieldTypes (maxPayload : ℕ) : List FieldType :=
  [⟨8, 8⟩, ⟨4, 4⟩, ⟨4, 4⟩, ⟨2, 2⟩, ⟨2, 2⟩, ⟨2, 2⟩, ⟨2, 2⟩, ⟨maxPayload, 1⟩]

def fields (order : ByteOrder) (event : TcpPayloadEvent maxPayload) : List Field :=
  [⟨8, order.encode 8 event.timestampNs.toNat⟩, ⟨4, order.encode 4 event.srcIp.toNat⟩,
    ⟨4, order.encode 4 event.dstIp.toNat⟩, ⟨2, order.encode 2 event.srcPort.toNat⟩,
    ⟨2, order.encode 2 event.dstPort.toNat⟩, ⟨2, order.encode 2 event.payloadLen.toNat⟩,
    ⟨2, order.encode 2 event.padding.toNat⟩, ⟨1, event.payload.toList⟩]

/-- The `repr(C)` bytes of an event. -/
def toBytes (order : ByteOrder) (event : TcpPayloadEvent maxPayload) : List UInt8 :=
  ReprC.bytes (event.fields order)

def size (maxPayload : ℕ) : ℕ :=
  ReprC.sizeOf (fieldTypes maxPayload)

/-- The capacity of the payload moves no field. -/
theorem offsetsFrom_fieldTypes (maxPayload : ℕ) :
    ReprC.offsetsFrom 0 (fieldTypes maxPayload) = [0, 8, 12, 16, 18, 20, 22, 24] := by
  simp [ReprC.offsetsFrom, ReprC.padding, fieldTypes]

theorem offset_payload (maxPayload : ℕ) : ReprC.offset (fieldTypes maxPayload) 7 = 24 := by
  rw [ReprC.offset, offsetsFrom_fieldTypes]
  rfl

theorem le_size (maxPayload : ℕ) : 24 + maxPayload ≤ size maxPayload := by
  simp [size, ReprC.sizeOf, ReprC.endFrom, ReprC.padding, fieldTypes]

theorem length_fieldAt_payload {buffer : List UInt8} (fits : size maxPayload ≤ buffer.length) :
    (ReprC.fieldAt (fieldTypes maxPayload) 7 maxPayload buffer).length = maxPayload := by
  have enough := le_size maxPayload
  simp only [ReprC.fieldAt, offset_payload, List.length_take, List.length_drop]
  omega

/-- `read_unaligned`, from a buffer that holds a whole event. -/
def readUnaligned (order : ByteOrder) (buffer : List UInt8)
    (fits : size maxPayload ≤ buffer.length) : TcpPayloadEvent maxPayload where
  timestampNs := UInt64.ofNat (order.decode (ReprC.fieldAt (fieldTypes maxPayload) 0 8 buffer))
  srcIp := UInt32.ofNat (order.decode (ReprC.fieldAt (fieldTypes maxPayload) 1 4 buffer))
  dstIp := UInt32.ofNat (order.decode (ReprC.fieldAt (fieldTypes maxPayload) 2 4 buffer))
  srcPort := UInt16.ofNat (order.decode (ReprC.fieldAt (fieldTypes maxPayload) 3 2 buffer))
  dstPort := UInt16.ofNat (order.decode (ReprC.fieldAt (fieldTypes maxPayload) 4 2 buffer))
  payloadLen := UInt16.ofNat (order.decode (ReprC.fieldAt (fieldTypes maxPayload) 5 2 buffer))
  padding := UInt16.ofNat (order.decode (ReprC.fieldAt (fieldTypes maxPayload) 6 2 buffer))
  payload := ⟨(ReprC.fieldAt (fieldTypes maxPayload) 7 maxPayload buffer).toArray,
    length_fieldAt_payload fits⟩

/-- The captured part of the payload. -/
def payloadBytes (event : TcpPayloadEvent maxPayload) : List UInt8 :=
  event.payload.toList.take (min event.payloadLen.toNat maxPayload)

theorem map_type_fields (order : ByteOrder) (event : TcpPayloadEvent maxPayload) :
    (event.fields order).map Field.type = fieldTypes maxPayload := by
  simp [fields, fieldTypes, Field.type]

theorem length_toBytes (order : ByteOrder) (event : TcpPayloadEvent maxPayload) :
    (event.toBytes order).length = size maxPayload := by
  rw [toBytes, ReprC.length_bytes, map_type_fields, size]

/-- An event with a payload, cut to the capacity. -/
def makeEvent (payload : List UInt8) : TcpPayloadEvent commonMaxPayload where
  timestampNs := 0
  srcIp := 0
  dstIp := 0
  srcPort := 0
  dstPort := 0
  payloadLen := UInt16.ofNat (min payload.length commonMaxPayload)
  padding := 0
  payload := writeFront (Vector.replicate commonMaxPayload 0) (payload.take commonMaxPayload)

theorem payloadBytes_makeEvent {payload : List UInt8}
    (fits : payload.length ≤ commonMaxPayload) :
    (makeEvent payload).payloadBytes = payload := by
  have small : payload.length ≤ 128 := fits
  have written : (UInt16.ofNat payload.length).toNat = payload.length := by
    rw [UInt16.toNat_ofNat', Nat.mod_eq_of_lt (by omega)]
  simp [payloadBytes, makeEvent, Nat.min_eq_left fits, List.take_of_length_le fits, written,
    toList_writeFront _ fits]

/-! ## Reading with another capacity -/

section

variable {otherPayload : ℕ} (order : ByteOrder) (event : TcpPayloadEvent maxPayload)
  (trailing : List UInt8)

theorem fieldAt_toBytes (index size : ℕ) {field : Field}
    (there : (event.fields order)[index]? = some field)
    (size_le : size ≤ field.bytes.length) :
    ReprC.fieldAt (fieldTypes otherPayload) index size (event.toBytes order ++ trailing) =
      field.bytes.take size := by
  apply ReprC.fieldAt_bytes there _ size_le trailing
  rw [map_type_fields, ReprC.offset, ReprC.offset, offsetsFrom_fieldTypes, offsetsFrom_fieldTypes]

/-- A number is read back by every reader. -/
theorem decode_fieldAt_toBytes (index size : ℕ) {align n : ℕ}
    (there : (event.fields order)[index]? = some ⟨align, order.encode size n⟩)
    (number_lt : n < 256 ^ size) :
    order.decode (ReprC.fieldAt (fieldTypes otherPayload) index size
      (event.toBytes order ++ trailing)) = n := by
  have whole : (order.encode size n).take size = order.encode size n :=
    List.take_of_length_le (by simp)
  rw [event.fieldAt_toBytes order trailing index size there (by simp), whole,
    order.decode_encode number_lt]

/-- The event as a reader with room for less payload sees it. -/
def shrink (smaller : otherPayload ≤ maxPayload) : TcpPayloadEvent otherPayload :=
  { event with payload := (event.payload.take otherPayload).cast (by omega) }

theorem readUnaligned_toBytes (smaller : otherPayload ≤ maxPayload)
    (fits : size otherPayload ≤ (event.toBytes order ++ trailing).length) :
    readUnaligned order (event.toBytes order ++ trailing) fits = event.shrink smaller := by
  have payload : ReprC.fieldAt (fieldTypes otherPayload) 7 otherPayload
      (event.toBytes order ++ trailing) = event.payload.toList.take otherPayload :=
    event.fieldAt_toBytes order trailing 7 otherPayload rfl (by simpa using smaller)
  rw [readUnaligned, shrink]
  congr 1
  · rw [event.decode_fieldAt_toBytes order trailing 0 8 rfl event.timestampNs.toNat_lt]
    simp
  · rw [event.decode_fieldAt_toBytes order trailing 1 4 rfl event.srcIp.toNat_lt]
    simp
  · rw [event.decode_fieldAt_toBytes order trailing 2 4 rfl event.dstIp.toNat_lt]
    simp
  · rw [event.decode_fieldAt_toBytes order trailing 3 2 rfl event.srcPort.toNat_lt]
    simp
  · rw [event.decode_fieldAt_toBytes order trailing 4 2 rfl event.dstPort.toNat_lt]
    simp
  · rw [event.decode_fieldAt_toBytes order trailing 5 2 rfl event.payloadLen.toNat_lt]
    simp
  · rw [event.decode_fieldAt_toBytes order trailing 6 2 rfl event.padding.toNat_lt]
    simp
  · apply Vector.toList_inj.mp
    simp [Vector.toList, payload]

end

end TcpPayloadEvent

end Qubit.Ebpf
