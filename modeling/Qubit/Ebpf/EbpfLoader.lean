import Qubit.Lib.Text
import Qubit.Lib.Windows
import Qubit.Ebpf.TcpPayloadEvent

/-!
# Events in the loader

The loader takes an event out of a buffer and reads method, path and host out of the
captured bytes.
-/

namespace Qubit.Ebpf

open ReprC (ByteOrder)

def space : UInt8 := 0x20

def tab : UInt8 := 0x09

def carriageReturn : UInt8 := 0x0D

def lineFeed : UInt8 := 0x0A

def colon : UInt8 := 0x3A

def isBlank (byte : UInt8) : Bool :=
  byte == space || byte == tab

def isLineEnd (byte : UInt8) : Bool :=
  byte == carriageReturn || byte == lineFeed

/-- `core::str::from_utf8`. -/
def fromUtf8 (bytes : List UInt8) : Option String :=
  String.fromUTF8? bytes.toByteArray

def toAsciiLowercase (byte : UInt8) : UInt8 :=
  if 0x41 ≤ byte ∧ byte ≤ 0x5A then byte + 0x20 else byte

def eqIgnoreAsciiCase (left right : List UInt8) : Bool :=
  left.map toAsciiLowercase == right.map toAsciiLowercase

/-- The bytes of `Host:`. -/
def hostColon : List UInt8 := [0x48, 0x6F, 0x73, 0x74, 0x3A]

namespace TcpPayloadEvent

variable (event : TcpPayloadEvent commonMaxPayload)

def parseMethod : Option String := do
  let payload := event.payloadBytes
  let spacePos ← payload.findIdx? (· == space)
  fromUtf8 (payload.take spacePos)

def parsePath : Option String := do
  let payload := event.payloadBytes
  let firstSpace ← payload.findIdx? (· == space)
  let rest := payload.drop (firstSpace + 1)
  let secondSpace := (rest.findIdx? (· == space)).getD rest.length
  fromUtf8 (rest.take secondSpace)

def parseHost : Option String := do
  let payload := event.payloadBytes
  let hostPos ← (Windows.windows 5 payload).findIdx? (eqIgnoreAsciiCase · hostColon)
  let afterHost := payload.drop (hostPos + 5)
  let start ← afterHost.findIdx? (!isBlank ·)
  let value := afterHost.drop start
  let stop := (value.findIdx? isLineEnd).getD value.length
  let host ← fromUtf8 (value.take stop)
  return Text.upTo ':' host

end TcpPayloadEvent

structure EbpfNetworkEvent where
  timestampNs : UInt64
  srcIp : UInt32
  dstIp : UInt32
  srcPort : UInt16
  dstPort : UInt16
  method : String
  path : String
  host : String

/-- The event at the start of a buffer that is long enough. -/
def readEvent (order : ByteOrder) (buffer : List UInt8) :
    Option (TcpPayloadEvent commonMaxPayload) :=
  if short : buffer.length < TcpPayloadEvent.size commonMaxPayload then none
  else some (TcpPayloadEvent.readUnaligned order buffer (Nat.not_lt.mp short))

/-- What is sent to the aggregator for a buffer, if anything. -/
def handleTcpEvent (order : ByteOrder) (buffer : List UInt8) : Option EbpfNetworkEvent := do
  let event ← readEvent order buffer
  let method := event.parseMethod.getD ""
  let path := event.parsePath.getD ""
  let host := event.parseHost.getD ""
  if method = "" then none
  return {
    timestampNs := event.timestampNs
    srcIp := event.srcIp
    dstIp := event.dstIp
    srcPort := event.srcPort
    dstPort := event.dstPort
    method
    path
    host }

/-- Only events with a method are sent on, with what was read from their payload. -/
theorem handleTcpEvent_eq_some {order : ByteOrder} {buffer : List UInt8} {sent : EbpfNetworkEvent}
    (handled : handleTcpEvent order buffer = some sent) :
    ∃ event, readEvent order buffer = some event ∧ event.parseMethod = some sent.method ∧
      sent = {
        timestampNs := event.timestampNs
        srcIp := event.srcIp
        dstIp := event.dstIp
        srcPort := event.srcPort
        dstPort := event.dstPort
        method := sent.method
        path := event.parsePath.getD ""
        host := event.parseHost.getD "" } := by
  rcases Option.bind_eq_some_iff.mp handled with ⟨event, read, handled⟩
  refine ⟨event, read, ?_⟩
  cases method : event.parseMethod with
  | none => simp [method] at handled
  | some name =>
      by_cases unnamed : name = ""
      · simp [method, unnamed] at handled
      · simp [method, unnamed] at handled
        simp [← handled]

end Qubit.Ebpf
