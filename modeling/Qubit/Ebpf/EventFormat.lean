import Qubit.Ebpf.EbpfLoader
import Qubit.Ebpf.HttpFilter

/-!
# The event format across the kernel boundary

The kernel captures up to 1024 bytes of a payload and announces as many, the loader has
room for 128 of them. The two agree on an event exactly when the frame has at most 128
bytes behind its headers.
-/

namespace Qubit.Ebpf

open ReprC (ByteOrder)

/-- What the loader has of an event is what the kernel captured. -/
structure Agrees (emitted : TcpPayloadEvent kernelMaxPayload)
    (received : TcpPayloadEvent commonMaxPayload) : Prop where
  timestampNs : received.timestampNs = emitted.timestampNs
  srcIp : received.srcIp = emitted.srcIp
  dstIp : received.dstIp = emitted.dstIp
  srcPort : received.srcPort = emitted.srcPort
  dstPort : received.dstPort = emitted.dstPort
  payloadLen : received.payloadLen = emitted.payloadLen
  payload : received.payloadBytes = emitted.payload.toList.take emitted.payloadLen.toNat

theorem commonMaxPayload_le : commonMaxPayload ≤ kernelMaxPayload := by
  decide

/-- The loader takes every event of the kernel, whatever the buffer holds behind it. -/
theorem readEvent_toBytes (order : ByteOrder) (event : TcpPayloadEvent kernelMaxPayload)
    (trailing : List UInt8) :
    readEvent order (event.toBytes order ++ trailing) =
      some (event.shrink commonMaxPayload_le) := by
  have fits : ¬(event.toBytes order ++ trailing).length <
      TcpPayloadEvent.size commonMaxPayload := by
    have smaller : TcpPayloadEvent.size commonMaxPayload ≤
        TcpPayloadEvent.size kernelMaxPayload := by decide
    rw [List.length_append, TcpPayloadEvent.length_toBytes]
    omega
  rw [readEvent, dif_neg fits, TcpPayloadEvent.readUnaligned_toBytes]

theorem payloadBytes_shrink (event : TcpPayloadEvent kernelMaxPayload) :
    (event.shrink commonMaxPayload_le).payloadBytes =
      event.payload.toList.take (min event.payloadLen.toNat commonMaxPayload) := by
  simp [TcpPayloadEvent.payloadBytes, TcpPayloadEvent.shrink, Vector.toList, List.take_take]

theorem exists_agrees_iff (order : ByteOrder) {event : TcpPayloadEvent kernelMaxPayload}
    (captured : event.payloadLen.toNat ≤ kernelMaxPayload) (trailing : List UInt8) :
    (∃ received, readEvent order (event.toBytes order ++ trailing) = some received ∧
      Agrees event received) ↔ event.payloadLen.toNat ≤ commonMaxPayload := by
  rw [readEvent_toBytes]
  constructor
  · rintro ⟨received, received_eq, agrees⟩
    obtain rfl := Option.some.inj received_eq
    have lengths := congrArg List.length agrees.payload
    rw [payloadBytes_shrink, List.length_take, List.length_take, Vector.length_toList] at lengths
    omega
  · intro fits
    refine ⟨_, rfl, rfl, rfl, rfl, rfl, rfl, rfl, ?_⟩
    rw [payloadBytes_shrink, Nat.min_eq_left fits]

/-- The loader and the kernel agree exactly on captures that fit into the loader's event. -/
theorem exists_agrees_tryHttpFilter_iff {order : ByteOrder} {ctx : SkBuffContext} {now : UInt64}
    {event : TcpPayloadEvent kernelMaxPayload}
    (output : tryHttpFilter order ctx now = .ok (some event)) (trailing : List UInt8) :
    (∃ received, readEvent order (event.toBytes order ++ trailing) = some received ∧
      Agrees event received) ↔ ctx.frame.length - ctx.payloadOffset ≤ 128 := by
  have captures := captures_of_tryHttpFilter output
  have payloadLen := captures.payloadLen
  rw [exists_agrees_iff order (by omega), payloadLen]
  simp only [kernelMaxPayload, commonMaxPayload]
  omega

/-! ## Two requests -/

/-- A TCP segment from `10.0.0.1:40000` to `10.0.0.2:80` in an Ethernet frame. -/
def requestFrame (payload : List UInt8) : List UInt8 :=
  List.replicate 12 0 ++ [0x08, 0x00] ++
    ([0x45, 0] ++ ByteOrder.big.encode 2 (40 + payload.length) ++
      [0, 0, 0, 0, 64, 6, 0, 0, 10, 0, 0, 1, 10, 0, 0, 2]) ++
    [0x9C, 0x40, 0, 80, 0, 0, 0, 0, 0, 0, 0, 0, 0x50, 0x18, 0, 0, 0, 0, 0, 0] ++ payload

/-- `GET /` with a path of some length behind it. -/
def getRequest (pathLength : ℕ) : List UInt8 :=
  [0x47, 0x45, 0x54, 0x20, 0x2F] ++ List.replicate pathLength 0x61 ++
    [0x20, 0x48, 0x54, 0x54, 0x50, 0x2F, 0x31, 0x2E, 0x31, 0x0D, 0x0A, 0x0D, 0x0A]

def shortRequest : SkBuffContext :=
  ⟨requestFrame (getRequest 8), by decide⟩

def longRequest : SkBuffContext :=
  ⟨requestFrame (getRequest 120), by simp [requestFrame, getRequest]⟩

theorem exists_agrees_shortRequest_iff :
    ∃ event, tryHttpFilter .little shortRequest 7 = .ok (some event) ∧
      ((∃ received, readEvent .little (event.toBytes .little ++ []) = some received ∧
        Agrees event received) ↔
        shortRequest.frame.length - shortRequest.payloadOffset ≤ 128) := by
  have outputs : ∃ event, tryHttpFilter .little shortRequest 7 = .ok (some event) := ⟨_, rfl⟩
  rcases outputs with ⟨event, output⟩
  exact ⟨event, output, exists_agrees_tryHttpFilter_iff output []⟩

set_option maxRecDepth 4000 in
/-- Of the 138 bytes that a request of this length has, the loader gets 128. -/
theorem exists_not_agrees_longRequest :
    ∃ event, tryHttpFilter .little longRequest 7 = .ok (some event) ∧
      ¬∃ received, readEvent .little (event.toBytes .little ++ []) = some received ∧
        Agrees event received := by
  have outputs : ∃ event, tryHttpFilter .little longRequest 7 = .ok (some event) := ⟨_, rfl⟩
  rcases outputs with ⟨event, output⟩
  have payloadLen := (captures_of_tryHttpFilter output).payloadLen
  have captured : min (longRequest.frame.length - longRequest.payloadOffset) kernelMaxPayload =
      138 := by decide
  refine ⟨event, output, ?_⟩
  rw [exists_agrees_iff .little (by omega), payloadLen, captured]
  decide

end Qubit.Ebpf
