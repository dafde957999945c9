import Qubit.Ebpf.CapturedText

/-!
# The request line of a capture

Method and path are read back from every capture of a request line that reaches far
enough. A capture that ends inside the path shows a part of it, and no capture makes the
parser slice outside of its bytes.
-/

namespace Qubit.Ebpf

/-- A slice expression that panics. -/
inductive OutOfBounds where
  | outOfBounds
deriving DecidableEq, Repr

/-- `&bytes[..stop]`. -/
def sliceTo (bytes : List UInt8) (stop : ℕ) : Except OutOfBounds (List UInt8) :=
  if stop ≤ bytes.length then .ok (bytes.take stop) else .error .outOfBounds

/-- `&bytes[start..]`. -/
def sliceFrom (bytes : List UInt8) (start : ℕ) : Except OutOfBounds (List UInt8) :=
  if start ≤ bytes.length then .ok (bytes.drop start) else .error .outOfBounds

theorem sliceTo_eq_ok {bytes : List UInt8} {stop : ℕ} (within : stop ≤ bytes.length) :
    sliceTo bytes stop = .ok (bytes.take stop) :=
  if_pos within

theorem sliceFrom_eq_ok {bytes : List UInt8} {start : ℕ} (within : start ≤ bytes.length) :
    sliceFrom bytes start = .ok (bytes.drop start) :=
  if_pos within

theorem length_lt_of_findIdx? {bytes : List UInt8} {p : UInt8 → Bool} {index : ℕ}
    (found : bytes.findIdx? p = some index) : index < bytes.length :=
  (List.findIdx?_eq_some_iff_findIdx_eq.mp found).1

namespace TcpPayloadEvent

section

variable (event : TcpPayloadEvent commonMaxPayload)

/-! ## The parser with its slices checked -/

def payloadBytesChecked : Except OutOfBounds (List UInt8) :=
  sliceTo event.payload.toList (min event.payloadLen.toNat commonMaxPayload)

def parseMethodChecked : Except OutOfBounds (Option String) := do
  let payload ← event.payloadBytesChecked
  match payload.findIdx? (· == space) with
  | none => return none
  | some spacePos => return fromUtf8 (← sliceTo payload spacePos)

def parsePathChecked : Except OutOfBounds (Option String) := do
  let payload ← event.payloadBytesChecked
  match payload.findIdx? (· == space) with
  | none => return none
  | some firstSpace =>
      let rest ← sliceFrom payload (firstSpace + 1)
      let secondSpace := (rest.findIdx? (· == space)).getD rest.length
      return fromUtf8 (← sliceTo rest secondSpace)

theorem payloadBytesChecked_eq : event.payloadBytesChecked = .ok event.payloadBytes :=
  sliceTo_eq_ok (by simp)

theorem parseMethodChecked_eq : event.parseMethodChecked = .ok event.parseMethod := by
  rw [parseMethodChecked, payloadBytesChecked_eq, parseMethod]
  cases found : event.payloadBytes.findIdx? (· == space) with
  | none => simp [bind, Except.bind, found, pure, Except.pure]
  | some spacePos =>
      have within : spacePos ≤ event.payloadBytes.length :=
        Nat.le_of_lt (length_lt_of_findIdx? found)
      simp [bind, Except.bind, found, sliceTo_eq_ok within, pure, Except.pure]

theorem parsePathChecked_eq : event.parsePathChecked = .ok event.parsePath := by
  rw [parsePathChecked, payloadBytesChecked_eq, parsePath]
  cases found : event.payloadBytes.findIdx? (· == space) with
  | none => simp [bind, Except.bind, found, pure, Except.pure]
  | some firstSpace =>
      have within : firstSpace + 1 ≤ event.payloadBytes.length := length_lt_of_findIdx? found
      have secondWithin : (((event.payloadBytes.drop (firstSpace + 1)).findIdx?
          (· == space)).getD (event.payloadBytes.drop (firstSpace + 1)).length) ≤
          (event.payloadBytes.drop (firstSpace + 1)).length := by
        rw [← List.findIdx_eq_getD_findIdx?]
        exact List.findIdx_le_length
      simp only [bind, Except.bind, found, sliceFrom_eq_ok within, sliceTo_eq_ok secondWithin,
        pure, Except.pure, Option.bind_some]

end

/-! ## Reading a request line back -/

/-- `method path rest`. -/
def requestText (method path : String) (rest : List UInt8) : List UInt8 :=
  utf8Bytes method ++ space :: (utf8Bytes path ++ space :: rest)

/-- The payload holds the text from its first byte on, with zeros behind a short text. -/
structure Holds (event : TcpPayloadEvent commonMaxPayload) (text : List UInt8) : Prop where
  payload : event.payload.toList =
    text.take commonMaxPayload ++ List.replicate (commonMaxPayload - text.length) 0
  payloadLen : text.length < commonMaxPayload → event.payloadLen.toNat ≤ text.length

/-- The number of bytes that the parser takes out of the event. -/
def capturedLength (event : TcpPayloadEvent commonMaxPayload) : ℕ :=
  min event.payloadLen.toNat commonMaxPayload

variable {event : TcpPayloadEvent commonMaxPayload}

theorem payloadBytes_of_holds {text : List UInt8} (holds : event.Holds text) :
    event.payloadBytes = text.take event.capturedLength := by
  have payloadLen := holds.payloadLen
  have within : event.capturedLength ≤ (text.take commonMaxPayload).length := by
    rw [List.length_take, capturedLength]
    omega
  have narrow : event.capturedLength ≤ commonMaxPayload := Nat.min_le_right _ _
  rw [payloadBytes, ← capturedLength, holds.payload, List.take_append_of_le_length within,
    List.take_take, Nat.min_eq_left narrow]

theorem space_notMem_utf8Bytes {text : String} (spaceless : ' ' ∉ text.toList) :
    space ∉ utf8Bytes text := by
  rwa [mem_utf8Bytes_iff (by decide) (by decide : ' '.toNat = _)]

theorem findIdx?_space {front : List UInt8} (spaceless : space ∉ front) (back : List UInt8) :
    (front ++ space :: back).findIdx? (· == space) = some front.length := by
  rw [List.findIdx?_append, List.findIdx?_eq_none_iff.mpr]
  · simp [List.findIdx?_cons]
  · intro byte byteMem
    rw [beq_eq_false_iff_ne]
    exact ne_of_mem_of_not_mem byteMem spaceless

theorem takeWhile_space {front : List UInt8} (spaceless : space ∉ front) :
    front.takeWhile (fun byte => !(byte == space)) = front := by
  rw [List.takeWhile_eq_self_iff]
  intro byte byteMem
  simpa using ne_of_mem_of_not_mem byteMem spaceless

section

variable {method path : String} {rest : List UInt8}
  (holds : event.Holds (requestText method path rest)) (methodSpaceless : ' ' ∉ method.toList)

include holds

theorem payloadBytes_of_short (short : event.capturedLength ≤ (utf8Bytes method).length) :
    event.payloadBytes = (utf8Bytes method).take event.capturedLength := by
  rw [payloadBytes_of_holds holds, requestText, List.take_append_of_le_length short]

/-- A capture that goes on behind the method. -/
theorem payloadBytes_of_long (long : (utf8Bytes method).length < event.capturedLength) :
    event.payloadBytes = utf8Bytes method ++ space ::
      (utf8Bytes path ++ space :: rest).take
        (event.capturedLength - ((utf8Bytes method).length + 1)) := by
  have covered : event.capturedLength = (utf8Bytes method).length +
      (event.capturedLength - ((utf8Bytes method).length + 1) + 1) := by omega
  rw [payloadBytes_of_holds holds, requestText]
  conv_lhs => rw [covered]
  rw [List.take_length_add_append, List.take_succ_cons]

include methodSpaceless

theorem parseMethod_requestText :
    event.parseMethod = if (utf8Bytes method).length < event.capturedLength then some method
      else none := by
  have spaceless := space_notMem_utf8Bytes methodSpaceless
  split
  · rename_i long
    rw [parseMethod, payloadBytes_of_long holds long, findIdx?_space spaceless]
    simp [fromUtf8_utf8Bytes]
  · rename_i short
    have unfound : event.payloadBytes.findIdx? (· == space) = none := by
      rw [payloadBytes_of_short holds (Nat.le_of_not_lt short), List.findIdx?_eq_none_iff]
      intro byte byteMem
      rw [beq_eq_false_iff_ne]
      exact ne_of_mem_of_not_mem (List.mem_of_mem_take byteMem) spaceless
    rw [parseMethod, unfound]
    rfl

/-- Behind the method the parser reads up to the next space that was captured. -/
theorem parsePath_of_long (long : (utf8Bytes method).length < event.capturedLength) :
    event.parsePath = fromUtf8 (((utf8Bytes path ++ space :: rest).take
      (event.capturedLength - ((utf8Bytes method).length + 1))).takeWhile
        fun byte => !(byte == space)) := by
  have spaceless := space_notMem_utf8Bytes methodSpaceless
  rw [parsePath, payloadBytes_of_long holds long, findIdx?_space spaceless, ← List.singleton_append,
    ← List.append_assoc]
  have behind : (utf8Bytes method).length + 1 = (utf8Bytes method ++ [space]).length := by simp
  simp only [Option.bind_eq_bind, Option.bind_some, Windows.take_findIdx?, behind,
    List.drop_left]

variable (pathSpaceless : ' ' ∉ path.toList)

include pathSpaceless

theorem parsePath_requestText (whole : (utf8Bytes method).length + 1 + (utf8Bytes path).length ≤
    event.capturedLength) : event.parsePath = some path := by
  have spaceless := space_notMem_utf8Bytes pathSpaceless
  have kept : ∀ byte ∈ utf8Bytes path, (!(byte == space)) = true := by
    simpa using List.takeWhile_eq_self_iff.mp (takeWhile_space spaceless)
  have covered : event.capturedLength - ((utf8Bytes method).length + 1) =
      (utf8Bytes path).length +
        (event.capturedLength - ((utf8Bytes method).length + 1 + (utf8Bytes path).length)) := by
    omega
  rw [parsePath_of_long holds methodSpaceless (by omega), covered, List.take_length_add_append,
    List.takeWhile_append_of_pos kept]
  cases event.capturedLength - ((utf8Bytes method).length + 1 + (utf8Bytes path).length) with
  | zero => simp [fromUtf8_utf8Bytes]
  | succ count => simp [fromUtf8_utf8Bytes]

theorem parsePath_prefix (long : (utf8Bytes method).length < event.capturedLength)
    (cut : event.capturedLength < (utf8Bytes method).length + 1 + (utf8Bytes path).length)
    {shown : String} (read : event.parsePath = some shown) : ∃ hidden, path = shown ++ hidden := by
  have spaceless := space_notMem_utf8Bytes pathSpaceless
  have within : event.capturedLength - ((utf8Bytes method).length + 1) ≤
      (utf8Bytes path).length := by omega
  rw [parsePath_of_long holds methodSpaceless long, List.take_append_of_le_length within,
    takeWhile_space (fun spaceMem => spaceless (List.mem_of_mem_take spaceMem)),
    fromUtf8_eq_some_iff] at read
  exact exists_append_of_utf8Bytes_prefix (read ▸ List.take_prefix _ _)

/--
The parser undoes the formatting of a request line in every capture of it: it slices within its
bytes, finds the method as soon as the byte behind it is captured and the path as soon as its last
byte is, and before that nothing but the beginning of the path.
-/
theorem parse_requestText :
    (event.parseMethod = if (utf8Bytes method).length < event.capturedLength then some method
        else none) ∧
      ((utf8Bytes method).length + 1 + (utf8Bytes path).length ≤ event.capturedLength →
        event.parsePath = some path) ∧
      ((utf8Bytes method).length < event.capturedLength →
        event.capturedLength < (utf8Bytes method).length + 1 + (utf8Bytes path).length →
          ∀ shown, event.parsePath = some shown → ∃ hidden, path = shown ++ hidden) ∧
      event.parseMethodChecked = .ok event.parseMethod ∧
      event.parsePathChecked = .ok event.parsePath :=
  ⟨parseMethod_requestText holds methodSpaceless,
    parsePath_requestText holds methodSpaceless pathSpaceless,
    fun long cut _ => parsePath_prefix holds methodSpaceless pathSpaceless long cut,
    event.parseMethodChecked_eq, event.parsePathChecked_eq⟩

end

theorem holds_makeEvent (payload : List UInt8) : (makeEvent payload).Holds payload where
  payload := by
    have fits : (payload.take commonMaxPayload).length ≤ commonMaxPayload := by simp
    rw [makeEvent, toList_writeFront _ fits]
    simp
    omega
  payloadLen := by
    intro _
    have small : min payload.length commonMaxPayload ≤ 128 := Nat.min_le_right _ _
    rw [makeEvent, UInt16.toNat_ofNat', Nat.mod_eq_of_lt (by omega)]
    exact Nat.min_le_left _ _

/-- `GET /a H`. -/
theorem parse_requestText_get :
    let event := makeEvent (requestText "GET" "/a" [0x48])
    (event.parseMethod = if (utf8Bytes "GET").length < event.capturedLength then some "GET"
        else none) ∧
      ((utf8Bytes "GET").length + 1 + (utf8Bytes "/a").length ≤ event.capturedLength →
        event.parsePath = some "/a") ∧
      ((utf8Bytes "GET").length < event.capturedLength →
        event.capturedLength < (utf8Bytes "GET").length + 1 + (utf8Bytes "/a").length →
          ∀ shown, event.parsePath = some shown → ∃ hidden, "/a" = shown ++ hidden) ∧
      event.parseMethodChecked = .ok event.parseMethod ∧
      event.parsePathChecked = .ok event.parsePath :=
  parse_requestText (holds_makeEvent (requestText "GET" "/a" [0x48])) (by decide) (by decide)

end TcpPayloadEvent

end Qubit.Ebpf
