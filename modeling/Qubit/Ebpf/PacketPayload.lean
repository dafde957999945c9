import Qubit.Ebpf.EventFormat

/-!
# The payload of a packet

The IPv4 header says how long the packet is, and the frame can be longer or shorter. The
filter takes what is behind the headers up to the end of the frame. This is the payload
of the packet exactly when the headers are well formed, the packet is not a later
fragment, and the frame ends with the packet or both reach beyond the capacity.
-/

namespace Qubit.Ebpf

open ReprC (ByteOrder)

namespace SkBuffContext

variable (ctx : SkBuffContext)

/-! ## What the headers say -/

def ipVersion : ℕ :=
  (ctx.byte ethHdrLen >>> 4).toNat

def ipHdrLen : ℕ :=
  (ctx.byte ethHdrLen &&& 0x0F).toNat * 4

def tcpHdrLen : ℕ :=
  (ctx.byte (ctx.tcpStart + 12) >>> 4).toNat * 4

/-- The length of the IP packet, its headers included. -/
def totalLength : ℕ :=
  ByteOrder.big.decode (ctx.bytesAt (ethHdrLen + 2) 2)

/-- Where the packet stands in the one that it is a fragment of, behind the three flags. -/
def fragmentOffset : ℕ :=
  ByteOrder.big.decode (ctx.bytesAt (ethHdrLen + 6) 2) % 2 ^ 13

def tcpPayloadLen : ℕ :=
  ctx.totalLength - ctx.ipHdrLen - ctx.tcpHdrLen

/-- The bytes of the TCP payload that are in the frame. -/
def tcpPayload : List UInt8 :=
  ctx.bytesAt ctx.payloadOffset ctx.tcpPayloadLen

/-- The frame carries the beginning of a TCP packet to one of the two ports. -/
structure CarriesRequest : Prop where
  ethProto : ByteOrder.big.decode (ctx.bytesAt 12 2) = 0x0800
  version : ctx.ipVersion = 4
  ipHeader : 20 ≤ ctx.ipHdrLen
  unfragmented : ctx.fragmentOffset = 0
  protocol : ctx.byte 23 = ipprotoTcp
  port : ByteOrder.big.decode (ctx.bytesAt (ctx.tcpStart + 2) 2) = 80 ∨
    ByteOrder.big.decode (ctx.bytesAt (ctx.tcpStart + 2) 2) = 8080
  tcpHeader : 20 ≤ ctx.tcpHdrLen

/-- The parts of the frame that are read for an event with a payload of some length. -/
def reads (payloadLen : ℕ) : List (ℕ × ℕ) :=
  [(12, 2), (23, 1), (ethHdrLen, 1), (ctx.tcpStart + 2, 2), (ctx.tcpStart, 2),
    (ctx.tcpStart + 12, 1), (ctx.payloadOffset, 1), (26, 4), (30, 4),
    (ctx.payloadOffset, payloadLen)]

/-- What the filter does not check: the headers are well formed and the frame fits the packet. -/
structure FitsPacket : Prop where
  version : ctx.ipVersion = 4
  ipHeader : 20 ≤ ctx.ipHdrLen
  unfragmented : ctx.fragmentOffset = 0
  tcpHeader : 20 ≤ ctx.tcpHdrLen
  length : ctx.frame.length = ethHdrLen + ctx.totalLength ∨
    ctx.payloadOffset + kernelMaxPayload ≤ ctx.frame.length ∧
      ctx.payloadOffset + kernelMaxPayload ≤ ethHdrLen + ctx.totalLength

theorem payloadOffset_eq : ctx.payloadOffset = ethHdrLen + ctx.ipHdrLen + ctx.tcpHdrLen :=
  rfl

end SkBuffContext

/-- An event that has the TCP payload of its packet. -/
structure CapturesPayload (ctx : SkBuffContext) (event : TcpPayloadEvent kernelMaxPayload) :
    Prop where
  packet : ctx.CarriesRequest
  payloadLen : event.payloadLen.toNat = min ctx.tcpPayloadLen kernelMaxPayload
  payload : event.payload.toList.take event.payloadLen.toNat =
    ctx.tcpPayload.take (min ctx.tcpPayloadLen kernelMaxPayload)
  zeros : ∀ byte ∈ event.payload.toList.drop event.payloadLen.toNat, byte = 0
  reads : ∀ read ∈ ctx.reads event.payloadLen.toNat, read.1 + read.2 ≤ ctx.frame.length
  bounds : 1 ≤ event.payloadLen.toNat ∧ event.payloadLen.toNat ≤ kernelMaxPayload

theorem reads_of_tryHttpFilter {order : ByteOrder} {ctx : SkBuffContext} {now : UInt64}
    {event : TcpPayloadEvent kernelMaxPayload}
    (output : tryHttpFilter order ctx now = .ok (some event)) :
    ∀ read ∈ ctx.reads event.payloadLen.toNat, read.1 + read.2 ≤ ctx.frame.length := by
  have payloadLen := (captures_of_tryHttpFilter output).payloadLen
  have starts := (captures_of_tryHttpFilter output).starts
  simp only [tryHttpFilter, bind_eq_ok, unless_eq_ok_some] at output
  rcases output with ⟨_, ethLoaded, -, _, ipLoaded, -, _, ihlLoaded, _, dstPortLoaded, -, _,
    srcPortLoaded, _, tcpDataOffLoaded, -, -, _, firstByteLoaded, -, _, srcIpLoaded, _,
    dstIpLoaded, -⟩
  rw [SkBuffContext.loadU16_eq_ok] at ethLoaded dstPortLoaded srcPortLoaded
  rw [SkBuffContext.loadU8_eq_ok] at ipLoaded ihlLoaded tcpDataOffLoaded firstByteLoaded
  rw [SkBuffContext.loadU32_eq_ok] at srcIpLoaded dstIpLoaded
  rcases ihlLoaded with ⟨ihlWithin, rfl⟩
  rcases tcpDataOffLoaded with ⟨tcpDataOffWithin, rfl⟩
  rw [← SkBuffContext.tcpStart] at *
  simp only [SkBuffContext.reads, List.mem_cons, List.not_mem_nil, or_false, forall_eq_or_imp,
    forall_eq]
  exact ⟨ethLoaded.1, ipLoaded.1, ihlWithin, dstPortLoaded.1, srcPortLoaded.1, tcpDataOffWithin,
    starts, srcIpLoaded.1, dstIpLoaded.1, by omega⟩

/-- The filter captures the payload of the packet exactly from frames that fit the packet. -/
theorem capturesPayload_tryHttpFilter_iff {order : ByteOrder} {ctx : SkBuffContext} {now : UInt64}
    {event : TcpPayloadEvent kernelMaxPayload}
    (output : tryHttpFilter order ctx now = .ok (some event)) :
    CapturesPayload ctx event ↔ ctx.FitsPacket := by
  have captures := captures_of_tryHttpFilter output
  have starts := captures.starts
  have payloadLen := captures.payloadLen
  have offset_eq := ctx.payloadOffset_eq
  have k_eq : ctx.tcpPayloadLen = ctx.totalLength - ctx.ipHdrLen - ctx.tcpHdrLen := rfl
  have capacity : kernelMaxPayload = 1024 := rfl
  have copied : (ctx.bytesAt ctx.payloadOffset event.payloadLen.toNat).length =
      event.payloadLen.toNat := SkBuffContext.length_bytesAt (by omega)
  constructor
  · intro captured
    have sameLen := captured.payloadLen
    exact
      { version := captured.packet.version
        ipHeader := captured.packet.ipHeader
        unfragmented := captured.packet.unfragmented
        tcpHeader := captured.packet.tcpHeader
        length := by omega }
  · intro fits
    have sameLen : event.payloadLen.toNat = min ctx.tcpPayloadLen kernelMaxPayload := by
      have lengths := fits.length
      omega
    exact
      { packet :=
          { ethProto := captures.ethProto
            version := fits.version
            ipHeader := fits.ipHeader
            unfragmented := fits.unfragmented
            protocol := captures.ipProto
            port := by
              rw [← captures.dstPort]
              rcases captures.port with port | port <;> simp [port]
            tcpHeader := fits.tcpHeader }
        payloadLen := sameLen
        payload := by
          rw [captures.payload, List.take_left' copied, ← sameLen, SkBuffContext.tcpPayload,
            SkBuffContext.bytesAt, SkBuffContext.bytesAt, List.take_take]
          congr 1
          omega
        zeros := by
          rw [captures.payload, List.drop_left' copied]
          intro byte byteMem
          exact List.eq_of_mem_replicate byteMem
        reads := reads_of_tryHttpFilter output
        bounds := by omega }

/-! ## A request and an acknowledgement -/

/-- An acknowledgement without payload, padded to the least length of an Ethernet frame. -/
def paddedAck : SkBuffContext :=
  ⟨requestFrame [] ++ [0x47, 0x45, 0x54, 0x20, 0x2F, 0x61], by decide⟩

theorem capturesPayload_shortRequest_iff :
    ∃ event, tryHttpFilter .little shortRequest 7 = .ok (some event) ∧
      (CapturesPayload shortRequest event ↔ shortRequest.FitsPacket) := by
  have outputs : ∃ event, tryHttpFilter .little shortRequest 7 = .ok (some event) := ⟨_, rfl⟩
  rcases outputs with ⟨event, output⟩
  exact ⟨event, output, capturesPayload_tryHttpFilter_iff output⟩

/-- The padding is captured as a request. -/
theorem exists_not_capturesPayload_paddedAck :
    ∃ event, tryHttpFilter .little paddedAck 7 = .ok (some event) ∧
      paddedAck.tcpPayloadLen = 0 ∧ ¬CapturesPayload paddedAck event := by
  have outputs : ∃ event, tryHttpFilter .little paddedAck 7 = .ok (some event) := ⟨_, rfl⟩
  rcases outputs with ⟨event, output⟩
  have noPayload : paddedAck.tcpPayloadLen = 0 := by decide
  refine ⟨event, output, noPayload, ?_⟩
  intro captured
  have bounds := captured.bounds
  rw [captured.payloadLen, noPayload] at bounds
  simp at bounds

end Qubit.Ebpf
