import Mathlib.Tactic.MkIffOfInductiveProp
import Qubit.Ebpf.RequestLine
import Qubit.Ebpf.PacketPayload

/-!
# From a frame to an event of the loader

The filter decides by six places of a frame, and captures exactly the frames that have
what it asks for there: the type of an IP packet, the protocol and the port of a request,
and an uppercase letter behind the headers. Neither the version nor the lengths that the
headers announce are compared with the frame. Of the payload the first 128 bytes reach
the loader, which sends on what it reads out of them if there is a method.
-/

namespace Qubit.Ebpf

open ReprC (ByteOrder)

namespace SkBuffContext

/-- What the filter asks of a frame. -/
@[mk_iff]
structure IsCaptured (ctx : SkBuffContext) : Prop where
  ethProto : ByteOrder.big.decode (ctx.bytesAt 12 2) = 0x0800
  ipProto : ctx.byte 23 = ipprotoTcp
  addresses : 34 ≤ ctx.frame.length
  port : ByteOrder.big.decode (ctx.bytesAt (ctx.tcpStart + 2) 2) = 80 ∨
    ByteOrder.big.decode (ctx.bytesAt (ctx.tcpStart + 2) 2) = 8080
  dataOffset : ctx.tcpStart + 13 ≤ ctx.frame.length
  starts : ctx.payloadOffset < ctx.frame.length
  uppercase : isAsciiUppercase (ctx.byte ctx.payloadOffset) = true

instance (ctx : SkBuffContext) : Decidable ctx.IsCaptured :=
  decidable_of_iff' _ (isCaptured_iff ctx)

/-- What stands behind the headers. -/
def payload (ctx : SkBuffContext) : List UInt8 :=
  ctx.frame.drop ctx.payloadOffset

/-- The event of a frame that is captured. -/
def capturedEvent (order : ByteOrder) (ctx : SkBuffContext) (now : UInt64) :
    TcpPayloadEvent kernelMaxPayload where
  timestampNs := now
  srcIp := UInt32.ofNat (order.decode (ctx.bytesAt 26 4))
  dstIp := UInt32.ofNat (order.decode (ctx.bytesAt 30 4))
  srcPort := UInt16.ofNat (ByteOrder.big.decode (ctx.bytesAt ctx.tcpStart 2))
  dstPort := UInt16.ofNat (ByteOrder.big.decode (ctx.bytesAt (ctx.tcpStart + 2) 2))
  payloadLen := UInt16.ofNat (min ctx.payload.length kernelMaxPayload)
  padding := 0
  payload := writeFront (Vector.replicate kernelMaxPayload 0) (ctx.payload.take kernelMaxPayload)

variable {ctx : SkBuffContext}

theorem fromBe_loaded (order : ByteOrder) {offset : ℕ}
    (within : offset + 2 ≤ ctx.frame.length) :
    fromBe order (UInt16.ofNat (order.decode (ctx.bytesAt offset 2))) =
      UInt16.ofNat (ByteOrder.big.decode (ctx.bytesAt offset 2)) := by
  rw [← toNat_fromBe order within, UInt16.ofNat_toNat]

theorem toNat_ofNat_loaded {offset : ℕ} (within : offset + 2 ≤ ctx.frame.length) :
    (UInt16.ofNat (ByteOrder.big.decode (ctx.bytesAt offset 2))).toNat =
      ByteOrder.big.decode (ctx.bytesAt offset 2) := by
  rw [← fromBe_loaded .big within, toNat_fromBe .big within]

theorem ofNat_loaded_eq_iff {offset : ℕ} (within : offset + 2 ≤ ctx.frame.length)
    (number : UInt16) :
    UInt16.ofNat (ByteOrder.big.decode (ctx.bytesAt offset 2)) = number ↔
      ByteOrder.big.decode (ctx.bytesAt offset 2) = number.toNat := by
  rw [← UInt16.toNat_inj, toNat_ofNat_loaded within]

/-- The bytes that the last load of the filter copies. -/
theorem bytesAt_payloadOffset (count : ℕ) :
    ctx.bytesAt ctx.payloadOffset (min (ctx.frame.length - ctx.payloadOffset) count) =
      ctx.payload.take count := by
  rw [bytesAt, ← payload, ← List.length_drop, ← payload, List.take_eq_take_iff]
  omega

end SkBuffContext

section

open SkBuffContext

/-- The filter outputs an event for the frames that meet its conditions, and for no others. -/
theorem tryHttpFilter_eq_some_iff {order : ByteOrder} {ctx : SkBuffContext} {now : UInt64}
    {event : TcpPayloadEvent kernelMaxPayload} :
    tryHttpFilter order ctx now = .ok (some event) ↔
      ctx.IsCaptured ∧ event = ctx.capturedEvent order now := by
  simp only [tryHttpFilter, bind_eq_ok, unless_eq_ok_some, loadU16_eq_ok, loadU8_eq_ok,
    loadU32_eq_ok, and_assoc, exists_and_left, exists_eq_left']
  rw [← tcpStart, ← payloadOffset, copyLen_eq]
  constructor
  · rintro ⟨ethWithin, ethIs, -, ipIs, -, portWithin, portIs, srcPortWithin, dataOffset, -, -,
      starts, uppercase, -, addresses, output⟩
    rw [fromBe_loaded order ethWithin, not_not, ofNat_loaded_eq_iff ethWithin] at ethIs
    rw [fromBe_loaded order portWithin, ← not_or, not_not, ofNat_loaded_eq_iff portWithin,
      ofNat_loaded_eq_iff portWithin] at portIs
    rw [loadBytes_eq_ok.mpr ⟨by omega, bytesAt_payloadOffset _⟩, fromBe_loaded order portWithin,
      fromBe_loaded order srcPortWithin] at output
    refine ⟨⟨ethIs, not_not.mp ipIs, addresses, portIs, dataOffset, starts, ?_⟩, ?_⟩
    · simpa using uppercase
    · rw [capturedEvent, payload, List.length_drop]
      exact (Option.some.inj (Except.ok.inj output)).symm
  · rintro ⟨captured, rfl⟩
    have dataOffset := captured.dataOffset
    have addresses := captured.addresses
    have starts := captured.starts
    have ethHdrLen_eq : ethHdrLen = 14 := rfl
    have capacity : kernelMaxPayload = 1024 := rfl
    rw [fromBe_loaded order (by omega), fromBe_loaded order (by omega),
      fromBe_loaded order (by omega), ← not_or, not_not, not_not,
      ofNat_loaded_eq_iff (by omega), ofNat_loaded_eq_iff (by omega),
      ofNat_loaded_eq_iff (by omega), toNat_len,
      loadBytes_eq_ok.mpr ⟨by omega, bytesAt_payloadOffset _⟩]
    refine ⟨by omega, captured.ethProto, by omega, captured.ipProto, by omega, by omega,
      not_not.mpr captured.port, by omega, by omega, by omega, by omega, by omega,
      by simpa using captured.uppercase, by omega, by omega, ?_⟩
    rw [capturedEvent, payload, List.length_drop]
    rfl

end

/-! ## What the loader sends on -/

/-- `http_filter`: an error of the filter is no event. -/
def httpFilter (order : ByteOrder) (ctx : SkBuffContext) (now : UInt64) :
    Option (TcpPayloadEvent kernelMaxPayload) :=
  match tryHttpFilter order ctx now with
  | .ok event => event
  | .error _ => none

/-- What is sent on for a frame, if anything; the buffer can hold more than the event. -/
def capture (order : ByteOrder) (ctx : SkBuffContext) (now : UInt64) (trailing : List UInt8) :
    Option EbpfNetworkEvent := do
  let event ← httpFilter order ctx now
  handleTcpEvent order (event.toBytes order ++ trailing)

/-- Captured bytes begin with the method of an event, and have its path and its host. -/
structure ReadsAs (captured : List UInt8) (sent : EbpfNetworkEvent) : Prop where
  named : sent.method ≠ ""
  spaceless : ' ' ∉ sent.method.toList
  requestLine : ∃ behind, captured = utf8Bytes sent.method ++ space :: behind ∧
    sent.path = (fromUtf8 (behind.takeWhile fun byte => !(byte == space))).getD ""
  host : sent.host = (hostOf captured).getD ""

theorem httpFilter_eq_some_iff {order : ByteOrder} {ctx : SkBuffContext} {now : UInt64}
    {event : TcpPayloadEvent kernelMaxPayload} :
    httpFilter order ctx now = some event ↔
      ctx.IsCaptured ∧ event = ctx.capturedEvent order now := by
  rw [← tryHttpFilter_eq_some_iff, httpFilter]
  cases tryHttpFilter order ctx now <;> simp

theorem payloadBytes_shrink_capturedEvent (order : ByteOrder) (ctx : SkBuffContext)
    (now : UInt64) :
    ((ctx.capturedEvent order now).shrink commonMaxPayload_le).payloadBytes =
      ctx.payload.take commonMaxPayload := by
  have capacity : kernelMaxPayload = 1024 := rfl
  have room : commonMaxPayload = 128 := rfl
  have payloadLen := toNat_ofNat_min ctx.payload.length
  have written := toList_writeFront (Vector.replicate kernelMaxPayload 0)
    (List.length_take_le kernelMaxPayload ctx.payload)
  rw [payloadBytes_shrink, SkBuffContext.capturedEvent, payloadLen, written,
    List.take_append_of_le_length (by rw [List.length_take]; omega), List.take_take,
    List.take_eq_take_iff]
  omega

namespace TcpPayloadEvent

variable {event : TcpPayloadEvent commonMaxPayload}

theorem parseMethod_eq_some_iff {method : String} :
    event.parseMethod = some method ↔ ' ' ∉ method.toList ∧
      ∃ behind, event.payloadBytes = utf8Bytes method ++ space :: behind := by
  constructor
  · intro read
    rcases Option.bind_eq_some_iff.mp read with ⟨spacePos, found, read⟩
    have front := Windows.take_findIdx? event.payloadBytes (· == space)
    rw [found, Option.getD_some, ← fromUtf8_eq_some_iff.mp read] at front
    rcases List.findIdx?_eq_some_iff_getElem.mp found with ⟨within, isSpace, -⟩
    constructor
    · rw [← mem_utf8Bytes_iff (by decide : space.toNat < 0x80) (by decide), front]
      intro spaceMem
      simpa using List.mem_takeWhile_imp spaceMem
    · refine ⟨event.payloadBytes.drop (spacePos + 1), ?_⟩
      rw [fromUtf8_eq_some_iff.mp read, ← eq_of_beq isSpace, ← List.drop_eq_getElem_cons within,
        List.take_append_drop]
  · rintro ⟨spaceless, behind, payload⟩
    rw [parseMethod, payload, findIdx?_space (space_notMem_utf8Bytes spaceless)]
    simp [fromUtf8_utf8Bytes]

theorem parsePath_of_payloadBytes {method : String} {behind : List UInt8}
    (spaceless : ' ' ∉ method.toList)
    (payload : event.payloadBytes = utf8Bytes method ++ space :: behind) :
    event.parsePath = fromUtf8 (behind.takeWhile fun byte => !(byte == space)) := by
  have found := findIdx?_space (space_notMem_utf8Bytes spaceless) behind
  have dropped : (utf8Bytes method ++ space :: behind).drop ((utf8Bytes method).length + 1) =
      behind := by
    rw [List.drop_append, List.drop_of_length_le (by omega), Nat.add_sub_cancel_left]
    rfl
  rw [parsePath, payload, found]
  simp only [Option.bind_eq_bind, Option.bind_some, dropped, Windows.take_findIdx?]

end TcpPayloadEvent

theorem handleTcpEvent_toBytes_iff {order : ByteOrder} {event : TcpPayloadEvent kernelMaxPayload}
    {trailing : List UInt8} {sent : EbpfNetworkEvent} :
    handleTcpEvent order (event.toBytes order ++ trailing) = some sent ↔
      ReadsAs (event.shrink commonMaxPayload_le).payloadBytes sent ∧
        sent.timestampNs = event.timestampNs ∧ sent.srcIp = event.srcIp ∧
        sent.dstIp = event.dstIp ∧ sent.srcPort = event.srcPort ∧ sent.dstPort = event.dstPort := by
  constructor
  · intro handled
    rcases handleTcpEvent_eq_some handled with ⟨received, read, method, sent_eq⟩
    rw [readEvent_toBytes, Option.some.injEq] at read
    subst read
    have named : sent.method ≠ "" := by
      intro unnamed
      simp [handleTcpEvent, readEvent_toBytes, method, unnamed] at handled
    rcases TcpPayloadEvent.parseMethod_eq_some_iff.mp method with ⟨spaceless, behind, payload⟩
    have path := TcpPayloadEvent.parsePath_of_payloadBytes spaceless payload
    rw [parseHost_eq_hostOf, path] at sent_eq
    exact ⟨⟨named, spaceless, ⟨behind, payload, by rw [sent_eq]⟩, by rw [sent_eq]⟩,
      by rw [sent_eq]; rfl, by rw [sent_eq]; rfl, by rw [sent_eq]; rfl, by rw [sent_eq]; rfl,
      by rw [sent_eq]; rfl⟩
  · rintro ⟨⟨named, spaceless, ⟨behind, payload, path⟩, host⟩, timestampNs, srcIp, dstIp, srcPort,
      dstPort⟩
    have method := TcpPayloadEvent.parseMethod_eq_some_iff.mpr ⟨spaceless, behind, payload⟩
    rw [← TcpPayloadEvent.parsePath_of_payloadBytes spaceless payload] at path
    rw [← parseHost_eq_hostOf] at host
    rw [handleTcpEvent, readEvent_toBytes]
    simp only [Option.bind_eq_bind, Option.bind_some, method, Option.getD_some, named, if_false,
      ← path, ← host]
    cases sent
    subst timestampNs srcIp dstIp srcPort dstPort
    rfl

theorem encode_toNat_eq_iff (order : ByteOrder) {bits other : UInt32} :
    order.encode 4 bits.toNat = order.encode 4 other.toNat ↔ bits = other := by
  constructor
  · intro same
    have decoded := congrArg order.decode same
    rw [order.decode_encode bits.toNat_lt, order.decode_encode other.toNat_lt] at decoded
    exact UInt32.toNat_inj.mp decoded
  · rintro rfl
    rfl

/-- The addresses and ports of a frame, as the machine that captures it keeps them. -/
structure Addressed (order : ByteOrder) (ctx : SkBuffContext) (sent : EbpfNetworkEvent) : Prop where
  srcIp : order.encode 4 sent.srcIp.toNat = ctx.bytesAt 26 4
  dstIp : order.encode 4 sent.dstIp.toNat = ctx.bytesAt 30 4
  srcPort : sent.srcPort.toNat = ByteOrder.big.decode (ctx.bytesAt ctx.tcpStart 2)
  dstPort : sent.dstPort.toNat = ByteOrder.big.decode (ctx.bytesAt (ctx.tcpStart + 2) 2)

theorem SkBuffContext.IsCaptured.addressed_iff {order : ByteOrder} {ctx : SkBuffContext}
    (captured : ctx.IsCaptured) (now : UInt64) {sent : EbpfNetworkEvent} :
    Addressed order ctx sent ↔
      sent.srcIp = (ctx.capturedEvent order now).srcIp ∧
        sent.dstIp = (ctx.capturedEvent order now).dstIp ∧
        sent.srcPort = (ctx.capturedEvent order now).srcPort ∧
        sent.dstPort = (ctx.capturedEvent order now).dstPort := by
  have output : tryHttpFilter order ctx now = .ok (some (ctx.capturedEvent order now)) :=
    tryHttpFilter_eq_some_iff.mpr ⟨captured, rfl⟩
  have captures := captures_of_tryHttpFilter output
  rw [← encode_toNat_eq_iff order, ← encode_toNat_eq_iff order, captures.srcIp, captures.dstIp,
    ← UInt16.toNat_inj, ← UInt16.toNat_inj, captures.srcPort, captures.dstPort]
  exact ⟨fun addressed => ⟨addressed.srcIp, addressed.dstIp, addressed.srcPort, addressed.dstPort⟩,
    fun ⟨srcIp, dstIp, srcPort, dstPort⟩ => ⟨srcIp, dstIp, srcPort, dstPort⟩⟩

theorem capture_eq_some_iff {order : ByteOrder} {ctx : SkBuffContext} {now : UInt64}
    {trailing : List UInt8} {sent : EbpfNetworkEvent} :
    capture order ctx now trailing = some sent ↔
      ctx.IsCaptured ∧ ReadsAs (ctx.payload.take commonMaxPayload) sent ∧
        Addressed order ctx sent ∧ sent.timestampNs = now := by
  simp only [capture, Option.bind_eq_bind, Option.bind_eq_some_iff, httpFilter_eq_some_iff,
    handleTcpEvent_toBytes_iff, and_assoc, exists_and_left, exists_eq_left,
    payloadBytes_shrink_capturedEvent]
  apply and_congr_right
  intro captured
  rw [captured.addressed_iff now, and_comm (b := sent.timestampNs = now)]
  rfl

/-! ## Which frames are sent on -/

theorem SkBuffContext.IsCaptured.head?_payload {ctx : SkBuffContext} (captured : ctx.IsCaptured) :
    ctx.payload.head? = some (ctx.byte ctx.payloadOffset) := by
  have starts := captured.starts
  rw [SkBuffContext.payload, SkBuffContext.byte, List.head?_drop, List.getD_eq_getElem?_getD,
    List.getElem?_eq_getElem starts, Option.getD_some]

/-- The text before the first space of a captured payload is no empty one. -/
theorem SkBuffContext.IsCaptured.named {ctx : SkBuffContext} (captured : ctx.IsCaptured)
    {method : String} {behind : List UInt8}
    (requestLine : ctx.payload.take commonMaxPayload = utf8Bytes method ++ space :: behind) :
    method ≠ "" := by
  rintro rfl
  have head := congrArg List.head? requestLine
  have uppercase := captured.uppercase
  rw [List.head?_take, if_neg (by decide), captured.head?_payload] at head
  obtain isSpace : ctx.byte ctx.payloadOffset = space := Option.some.inj head
  rw [isSpace] at uppercase
  revert uppercase
  decide

theorem takeWhile_space_append {front : List UInt8} (spaceless : space ∉ front)
    (behind : List UInt8) :
    (front ++ space :: behind).takeWhile (fun byte => !(byte == space)) = front := by
  have kept := List.takeWhile_eq_self_iff.mp (TcpPayloadEvent.takeWhile_space spaceless)
  rw [List.takeWhile_append_of_pos kept]
  simp

/--
A frame is sent on exactly when it is captured and the first 128 bytes behind its headers have a
space, behind text.
-/
theorem isSome_capture_iff (order : ByteOrder) (ctx : SkBuffContext) (now : UInt64)
    (trailing : List UInt8) :
    (capture order ctx now trailing).isSome ↔
      ctx.IsCaptured ∧ space ∈ ctx.payload.take commonMaxPayload ∧
        (fromUtf8 ((ctx.payload.take commonMaxPayload).takeWhile
          fun byte => !(byte == space))).isSome := by
  rw [Option.isSome_iff_exists]
  constructor
  · rintro ⟨sent, sent_eq⟩
    rcases capture_eq_some_iff.mp sent_eq with ⟨captured, reads, -, -⟩
    rcases reads.requestLine with ⟨behind, requestLine, -⟩
    have spaceless := TcpPayloadEvent.space_notMem_utf8Bytes reads.spaceless
    rw [requestLine, takeWhile_space_append spaceless, fromUtf8_utf8Bytes]
    exact ⟨captured, List.mem_append_right _ List.mem_cons_self, rfl⟩
  · rintro ⟨captured, spaceMem, isText⟩
    rcases Option.isSome_iff_exists.mp isText with ⟨method, method_eq⟩
    rcases List.eq_append_cons_of_mem spaceMem with ⟨front, behind, requestLine, spaceless⟩
    rw [requestLine, takeWhile_space_append spaceless] at method_eq
    obtain rfl := fromUtf8_eq_some_iff.mp method_eq
    refine ⟨⟨now, (ctx.capturedEvent order now).srcIp, (ctx.capturedEvent order now).dstIp,
      (ctx.capturedEvent order now).srcPort, (ctx.capturedEvent order now).dstPort, method,
      (fromUtf8 (behind.takeWhile fun byte => !(byte == space))).getD "",
      (hostOf (ctx.payload.take commonMaxPayload)).getD ""⟩, ?_⟩
    rw [capture_eq_some_iff, captured.addressed_iff now]
    refine ⟨captured, ⟨captured.named requestLine, ?_, ⟨behind, requestLine, rfl⟩, rfl⟩, ?_, rfl⟩
    · rwa [mem_utf8Bytes_iff (by decide) (by decide : ' '.toNat = _)] at spaceless
    · exact ⟨rfl, rfl, rfl, rfl⟩

end Qubit.Ebpf
