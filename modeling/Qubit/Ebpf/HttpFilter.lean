import Qubit.Ebpf.TcpPayloadEvent

/-!
# The socket filter in the kernel

`tryHttpFilter` decides by the headers of a frame whether it carries a request, and
captures the bytes behind the headers up to the capacity of the event.
-/

namespace Qubit.Ebpf

open ReprC (ByteOrder)

/-- A frame as the program sees it; the kernel keeps its length in 32 bits. -/
structure SkBuffContext where
  frame : List UInt8
  length_lt : frame.length < 2 ^ 32

namespace SkBuffContext

def len (ctx : SkBuffContext) : UInt32 :=
  UInt32.ofNat ctx.frame.length

/-- `bpf_skb_load_bytes`; all its errors are treated alike. -/
def loadBytes (ctx : SkBuffContext) (offset count : ℕ) : Except Int64 (List UInt8) :=
  if offset + count ≤ ctx.frame.length then .ok ((ctx.frame.drop offset).take count)
  else .error 0

def loadU8 (ctx : SkBuffContext) (order : ByteOrder) (offset : ℕ) : Except Int64 UInt8 := do
  let bytes ← ctx.loadBytes offset 1
  return UInt8.ofNat (order.decode bytes)

def loadU16 (ctx : SkBuffContext) (order : ByteOrder) (offset : ℕ) : Except Int64 UInt16 := do
  let bytes ← ctx.loadBytes offset 2
  return UInt16.ofNat (order.decode bytes)

def loadU32 (ctx : SkBuffContext) (order : ByteOrder) (offset : ℕ) : Except Int64 UInt32 := do
  let bytes ← ctx.loadBytes offset 4
  return UInt32.ofNat (order.decode bytes)

end SkBuffContext

/-- `u16::from_be`. -/
def fromBe (order : ByteOrder) (number : UInt16) : UInt16 :=
  UInt16.ofNat (ByteOrder.big.decode (order.encode 2 number.toNat))

def ethPIp : UInt16 := 0x0800

def ipprotoTcp : UInt8 := 6

def ethHdrLen : ℕ := 14

def isAsciiUppercase (byte : UInt8) : Bool :=
  0x41 ≤ byte && byte ≤ 0x5A

/-- The event that is output, if any. -/
def tryHttpFilter (order : ByteOrder) (ctx : SkBuffContext) (now : UInt64) :
    Except Int64 (Option (TcpPayloadEvent kernelMaxPayload)) := do
  let ethProto := fromBe order (← ctx.loadU16 order 12)
  if ethProto ≠ ethPIp then return none
  let ipProto ← ctx.loadU8 order 23
  if ipProto ≠ ipprotoTcp then return none
  let ipIhl ← ctx.loadU8 order ethHdrLen
  let ipHdrLen := (ipIhl &&& 0x0F).toNat * 4
  let tcpStart := ethHdrLen + ipHdrLen
  let dstPort := fromBe order (← ctx.loadU16 order (tcpStart + 2))
  if dstPort ≠ 80 ∧ dstPort ≠ 8080 then return none
  let srcPort := fromBe order (← ctx.loadU16 order tcpStart)
  let tcpDataOff ← ctx.loadU8 order (tcpStart + 12)
  let tcpHdrLen := (tcpDataOff >>> 4).toNat * 4
  let payloadOffset := tcpStart + tcpHdrLen
  let pktLen := ctx.len.toNat
  if payloadOffset ≥ pktLen then return none
  let avail := pktLen - payloadOffset
  let copyLen := if avail < kernelMaxPayload then avail else kernelMaxPayload
  if copyLen = 0 ∨ copyLen > kernelMaxPayload then return none
  let firstByte ← ctx.loadU8 order payloadOffset
  if !isAsciiUppercase firstByte then return none
  let srcIp ← ctx.loadU32 order 26
  let dstIp ← ctx.loadU32 order 30
  match ctx.loadBytes payloadOffset copyLen with
  | .error _ => return none
  | .ok bytes =>
      return some
        { timestampNs := now
          srcIp
          dstIp
          srcPort
          dstPort
          payloadLen := UInt16.ofNat copyLen
          padding := 0
          payload := writeFront (Vector.replicate kernelMaxPayload 0) bytes }

/-! ## Results -/

theorem bind_eq_ok {E A B : Type} {first : Except E A} {next : A → Except E B} {result : B} :
    (first >>= next) = .ok result ↔ ∃ value, first = .ok value ∧ next value = .ok result := by
  cases first <;> simp [bind, Except.bind]

/-- A filter that returns early does not output. -/
theorem unless_eq_ok_some {E A : Type} {p : Prop} [Decidable p] {rest : Except E (Option A)}
    {event : A} : (if p then pure none else rest) = .ok (some event) ↔
      ¬p ∧ rest = .ok (some event) := by
  split <;> simp_all [pure, Except.pure]

/-! ## Where the headers end -/

namespace SkBuffContext

variable (ctx : SkBuffContext)

def byte (offset : ℕ) : UInt8 :=
  ctx.frame.getD offset 0

def bytesAt (offset count : ℕ) : List UInt8 :=
  (ctx.frame.drop offset).take count

/-- Where the TCP header starts by the length field of the IP header. -/
def tcpStart : ℕ :=
  ethHdrLen + (ctx.byte ethHdrLen &&& 0x0F).toNat * 4

/-- Where the payload starts by the length fields of the two headers. -/
def payloadOffset : ℕ :=
  ctx.tcpStart + (ctx.byte (ctx.tcpStart + 12) >>> 4).toNat * 4

variable {ctx} {order : ByteOrder} {offset count : ℕ}

theorem loadBytes_eq_ok {bytes : List UInt8} :
    ctx.loadBytes offset count = .ok bytes ↔
      offset + count ≤ ctx.frame.length ∧ ctx.bytesAt offset count = bytes := by
  rw [loadBytes, bytesAt]
  split <;> simp_all

theorem length_bytesAt (within : offset + count ≤ ctx.frame.length) :
    (ctx.bytesAt offset count).length = count := by
  rw [bytesAt, List.length_take, List.length_drop]
  omega

theorem bytesAt_one (within : offset + 1 ≤ ctx.frame.length) :
    ctx.bytesAt offset 1 = [ctx.byte offset] := by
  have there : offset < ctx.frame.length := within
  rw [bytesAt, byte, List.drop_eq_getElem_cons there, List.take_succ_cons, List.take_zero,
    List.getD_eq_getElem?_getD, List.getElem?_eq_getElem there, Option.getD_some]

theorem loadU8_eq_ok {value : UInt8} :
    ctx.loadU8 order offset = .ok value ↔
      offset + 1 ≤ ctx.frame.length ∧ ctx.byte offset = value := by
  simp only [loadU8, bind_eq_ok, loadBytes_eq_ok, pure, Except.pure, Except.ok.injEq]
  constructor
  · rintro ⟨bytes, ⟨within, rfl⟩, rfl⟩
    refine ⟨within, ?_⟩
    rw [bytesAt_one within, order.decode_singleton, UInt8.ofNat_toNat]
  · rintro ⟨within, rfl⟩
    refine ⟨_, ⟨within, rfl⟩, ?_⟩
    rw [bytesAt_one within, order.decode_singleton, UInt8.ofNat_toNat]

theorem loadU16_eq_ok {value : UInt16} :
    ctx.loadU16 order offset = .ok value ↔ offset + 2 ≤ ctx.frame.length ∧
      UInt16.ofNat (order.decode (ctx.bytesAt offset 2)) = value := by
  simp [loadU16, bind_eq_ok, loadBytes_eq_ok, pure, Except.pure, and_assoc]

theorem loadU32_eq_ok {value : UInt32} :
    ctx.loadU32 order offset = .ok value ↔ offset + 4 ≤ ctx.frame.length ∧
      UInt32.ofNat (order.decode (ctx.bytesAt offset 4)) = value := by
  simp [loadU32, bind_eq_ok, loadBytes_eq_ok, pure, Except.pure, and_assoc]

variable (order) in
theorem toNat_fromBe (within : offset + 2 ≤ ctx.frame.length) :
    (fromBe order (UInt16.ofNat (order.decode (ctx.bytesAt offset 2)))).toNat =
      ByteOrder.big.decode (ctx.bytesAt offset 2) := by
  have two := length_bytesAt within
  have number_lt (order : ByteOrder) : order.decode (ctx.bytesAt offset 2) < 2 ^ 16 := by
    simpa [two] using order.decode_lt (ctx.bytesAt offset 2)
  have bytes := order.encode_decode (ctx.bytesAt offset 2)
  rw [two] at bytes
  rw [fromBe, UInt16.toNat_ofNat', UInt16.toNat_ofNat', Nat.mod_eq_of_lt (number_lt order),
    bytes, Nat.mod_eq_of_lt (number_lt .big)]

theorem encode_toNat_loaded (within : offset + 4 ≤ ctx.frame.length) :
    order.encode 4 (UInt32.ofNat (order.decode (ctx.bytesAt offset 4))).toNat =
      ctx.bytesAt offset 4 := by
  have four := length_bytesAt within
  have number_lt : order.decode (ctx.bytesAt offset 4) < 2 ^ 32 := by
    simpa [four] using order.decode_lt (ctx.bytesAt offset 4)
  have bytes := order.encode_decode (ctx.bytesAt offset 4)
  rw [four] at bytes
  rw [UInt32.toNat_ofNat', Nat.mod_eq_of_lt number_lt, bytes]

theorem toNat_len : ctx.len.toNat = ctx.frame.length :=
  Nat.mod_eq_of_lt ctx.length_lt

theorem copyLen_eq :
    (if ctx.len.toNat - offset < kernelMaxPayload then ctx.len.toNat - offset
      else kernelMaxPayload) = min (ctx.frame.length - offset) kernelMaxPayload := by
  rw [toNat_len]
  split <;> omega

end SkBuffContext

/-- The capacity of the payload fits into the field that announces it. -/
theorem toNat_ofNat_min (avail : ℕ) :
    (UInt16.ofNat (min avail kernelMaxPayload)).toNat = min avail kernelMaxPayload := by
  have clamped : min avail kernelMaxPayload ≤ 1024 := Nat.min_le_right _ _
  rw [UInt16.toNat_ofNat', Nat.mod_eq_of_lt (by omega)]

/-! ## What is captured -/

/-- An event that is output, field by field. -/
structure Captures (order : ByteOrder) (ctx : SkBuffContext) (now : UInt64)
    (event : TcpPayloadEvent kernelMaxPayload) : Prop where
  ethProto : ByteOrder.big.decode (ctx.bytesAt 12 2) = 0x0800
  ipProto : ctx.byte 23 = ipprotoTcp
  port : event.dstPort = 80 ∨ event.dstPort = 8080
  starts : ctx.payloadOffset < ctx.frame.length
  uppercase : isAsciiUppercase (ctx.byte ctx.payloadOffset) = true
  timestampNs : event.timestampNs = now
  srcIp : order.encode 4 event.srcIp.toNat = ctx.bytesAt 26 4
  dstIp : order.encode 4 event.dstIp.toNat = ctx.bytesAt 30 4
  srcPort : event.srcPort.toNat = ByteOrder.big.decode (ctx.bytesAt ctx.tcpStart 2)
  dstPort : event.dstPort.toNat = ByteOrder.big.decode (ctx.bytesAt (ctx.tcpStart + 2) 2)
  payloadLen : event.payloadLen.toNat = min (ctx.frame.length - ctx.payloadOffset) kernelMaxPayload
  payload : event.payload.toList =
    ctx.bytesAt ctx.payloadOffset event.payloadLen.toNat ++
      List.replicate (kernelMaxPayload - event.payloadLen.toNat) 0

theorem captures_of_tryHttpFilter {order : ByteOrder} {ctx : SkBuffContext} {now : UInt64}
    {event : TcpPayloadEvent kernelMaxPayload}
    (output : tryHttpFilter order ctx now = .ok (some event)) :
    Captures order ctx now event := by
  simp only [tryHttpFilter, bind_eq_ok, unless_eq_ok_some] at output
  rcases output with ⟨ethProto, ethLoaded, ethIs, ipProto, ipLoaded, ipIs, ipIhl, ihlLoaded,
    dstPort, dstPortLoaded, portIs, srcPort, srcPortLoaded, tcpDataOff, tcpDataOffLoaded, starts,
    _, firstByte, firstByteLoaded, uppercase, srcIp, srcIpLoaded, dstIp, dstIpLoaded, output⟩
  rw [SkBuffContext.loadU16_eq_ok] at ethLoaded dstPortLoaded srcPortLoaded
  rw [SkBuffContext.loadU8_eq_ok] at ipLoaded ihlLoaded tcpDataOffLoaded firstByteLoaded
  rw [SkBuffContext.loadU32_eq_ok] at srcIpLoaded dstIpLoaded
  rcases ethLoaded with ⟨ethWithin, rfl⟩
  rcases ipLoaded with ⟨ipWithin, rfl⟩
  rcases ihlLoaded with ⟨ihlWithin, rfl⟩
  rcases dstPortLoaded with ⟨dstPortWithin, rfl⟩
  rcases srcPortLoaded with ⟨srcPortWithin, rfl⟩
  rcases tcpDataOffLoaded with ⟨tcpDataOffWithin, rfl⟩
  rcases firstByteLoaded with ⟨firstByteWithin, rfl⟩
  rcases srcIpLoaded with ⟨srcIpWithin, rfl⟩
  rcases dstIpLoaded with ⟨dstIpWithin, rfl⟩
  rw [← SkBuffContext.tcpStart, ← SkBuffContext.payloadOffset] at *
  rw [SkBuffContext.copyLen_eq] at output
  have within : ctx.payloadOffset +
      min (ctx.frame.length - ctx.payloadOffset) kernelMaxPayload ≤ ctx.frame.length := by
    omega
  have copied_length := SkBuffContext.length_bytesAt within
  have payloadLen := toNat_ofNat_min (ctx.frame.length - ctx.payloadOffset)
  rw [SkBuffContext.loadBytes_eq_ok.mpr ⟨within, rfl⟩] at output
  obtain rfl := Option.some.inj (Except.ok.inj output)
  exact
    { ethProto := by
        rw [← SkBuffContext.toNat_fromBe order ethWithin, not_not.mp ethIs]
        rfl
      ipProto := not_not.mp ipIs
      port := by
        by_contra neither
        exact portIs (not_or.mp neither)
      starts := firstByteWithin
      uppercase := by simpa using uppercase
      timestampNs := rfl
      srcIp := SkBuffContext.encode_toNat_loaded srcIpWithin
      dstIp := SkBuffContext.encode_toNat_loaded dstIpWithin
      srcPort := SkBuffContext.toNat_fromBe order srcPortWithin
      dstPort := SkBuffContext.toNat_fromBe order dstPortWithin
      payloadLen
      payload := by
        rw [payloadLen, toList_writeFront _ (by omega), copied_length]
        simp }

end Qubit.Ebpf
