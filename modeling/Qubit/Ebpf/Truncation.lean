import Qubit.Ebpf.CapturedText

/-!
# Longer and shorter captures

A method is read only behind its space, so a longer capture has the same method. A host
is read up to the end of the capture when its line does not end before, so a longer
capture has the same host exactly when the bytes that it adds to the line are text and do
not go on with the name.
-/

namespace Qubit.Ebpf

/-- The shorter capture shows the whole host, or no host at all. -/
def ShowsHost (shorter added : List UInt8) : Prop :=
  hostValue shorter = [] ∨ fromUtf8 (firstLine (hostValue shorter)) = none ∨
    (∃ byte ∈ hostValue shorter, isLineEnd byte = true) ∨
      (fromUtf8 (firstLine added)).isSome ∧
        (colon ∈ hostValue shorter ∨ ∀ byte ∈ (firstLine added).head?, byte = colon)

theorem hostValue_append {shorter : List UInt8} (valued : hostValue shorter ≠ [])
    (added : List UInt8) : hostValue (shorter ++ added) = hostValue shorter ++ added := by
  rw [hostValue] at valued
  cases found : behindHost shorter with
  | none => simp [found] at valued
  | some text =>
      have longer : behindHost (shorter ++ added) = some (text ++ added) :=
        Windows.behindFirst_append_of_some found added
      rw [found, Option.getD_some] at valued
      rw [hostValue, hostValue, found, longer, Option.getD_some, Option.getD_some,
        List.dropWhile_append, if_neg (by simpa using valued)]

theorem firstLine_append_of_mem {front : List UInt8}
    (ended : ∃ byte ∈ front, isLineEnd byte = true) (back : List UInt8) :
    firstLine (front ++ back) = firstLine front := by
  rcases ended with ⟨byte, byteMem, lineEnd⟩
  have shorter : (firstLine front).length ≠ front.length := by
    intro whole
    have kept := List.takeWhile_eq_self_iff.mp ((List.takeWhile_prefix _).eq_of_length whole)
    simpa [lineEnd] using kept byte byteMem
  rw [firstLine, List.takeWhile_append]
  exact if_neg shorter

theorem firstLine_append_of_open {front : List UInt8}
    (opened : ∀ byte ∈ front, isLineEnd byte = false) (back : List UInt8) :
    firstLine (front ++ back) = front ++ firstLine back := by
  rw [firstLine, List.takeWhile_append_of_pos (by simpa using opened)]
  rfl

theorem firstLine_of_open {front : List UInt8}
    (opened : ∀ byte ∈ front, isLineEnd byte = false) : firstLine front = front := by
  simpa [firstLine] using firstLine_append_of_open opened []

theorem head?_utf8Bytes_eq_colon_iff (text : String) :
    (∀ byte ∈ (utf8Bytes text).head?, byte = colon) ↔ ∀ char ∈ text.toList.head?, char = ':' := by
  rw [utf8Bytes]
  cases text.toList with
  | nil => simp
  | cons char rest =>
      cases encoded : String.utf8EncodeChar char with
      | nil => exact absurd encoded String.utf8EncodeChar_ne_nil
      | cons byte bytes =>
          simp only [List.flatMap_cons, encoded, List.cons_append, List.head?_cons,
            Option.mem_some_iff, forall_eq']
          constructor
          · rintro rfl
            apply Char.toNat_inj.mp
            rw [toNat_of_mem_utf8EncodeChar (encoded ▸ List.mem_cons_self) (by decide)]
            decide
          · rintro rfl
            have colonBytes : String.utf8EncodeChar ':' = [colon] := by decide
            exact (List.cons.inj (encoded.symm.trans colonBytes)).1

/-- What a longer line adds keeps the host when it is text and does not go on with the name. -/
theorem hostText_append_iff {line more : List UInt8} {host : String}
    (read : hostText line = some host) :
    hostText (line ++ more) = some host ↔ (fromUtf8 more).isSome ∧
      (colon ∈ line ∨ ∀ byte ∈ more.head?, byte = colon) := by
  rcases Option.map_eq_some_iff.mp read with ⟨text, text_eq, rfl⟩
  rw [hostText, fromUtf8_append text_eq]
  cases more_eq : fromUtf8 more with
  | none => simp
  | some rest =>
      rw [← fromUtf8_eq_some_iff.mp text_eq, ← fromUtf8_eq_some_iff.mp more_eq,
        mem_utf8Bytes_iff (by decide) (by decide : ':'.toNat = _), head?_utf8Bytes_eq_colon_iff]
      simp [Text.upTo_append_eq_iff]

theorem exists_append_of_hostText {line more : List UInt8} {host longerHost : String}
    (read : hostText line = some host) (longerRead : hostText (line ++ more) = some longerHost) :
    ∃ rest, longerHost = host ++ rest := by
  rcases Option.map_eq_some_iff.mp read with ⟨text, text_eq, rfl⟩
  rw [hostText, fromUtf8_append text_eq] at longerRead
  simp only [Option.map_map, Option.map_eq_some_iff, Function.comp_apply] at longerRead
  rcases longerRead with ⟨rest, -, rfl⟩
  rw [Text.upTo_append]
  split
  · exact ⟨"", by simp⟩
  · rename_i absent
    rw [Text.upTo_eq_self absent]
    exact ⟨_, rfl⟩

/-- The two lines that the captures read are the same, or the longer one adds to the shorter. -/
theorem firstLine_hostValue_append (shorter added : List UInt8)
    (valued : hostValue shorter ≠ []) :
    (∃ byte ∈ hostValue shorter, isLineEnd byte = true) ∧
        firstLine (hostValue (shorter ++ added)) = firstLine (hostValue shorter) ∨
      (¬∃ byte ∈ hostValue shorter, isLineEnd byte = true) ∧
        firstLine (hostValue shorter) = hostValue shorter ∧
        firstLine (hostValue (shorter ++ added)) = hostValue shorter ++ firstLine added := by
  rw [hostValue_append valued]
  by_cases ended : ∃ byte ∈ hostValue shorter, isLineEnd byte = true
  · exact Or.inl ⟨ended, firstLine_append_of_mem ended added⟩
  · have opened : ∀ byte ∈ hostValue shorter, isLineEnd byte = false := by
      simpa using ended
    exact Or.inr ⟨ended, firstLine_of_open opened, firstLine_append_of_open opened added⟩

theorem hostOf_append_iff (shorter added : List UInt8) :
    (∀ host, hostOf shorter = some host → hostOf (shorter ++ added) = some host) ↔
      ShowsHost shorter added := by
  by_cases valued : hostValue shorter = []
  · simp [ShowsHost, hostOf, valued]
  · have longerValued : hostValue (shorter ++ added) ≠ [] := by
      simp [hostValue_append valued, valued]
    rw [hostOf, hostOf, if_neg valued, if_neg longerValued]
    cases read : hostText (firstLine (hostValue shorter)) with
    | none =>
        have unread : fromUtf8 (firstLine (hostValue shorter)) = none := by
          simpa [hostText] using read
        simp [ShowsHost, unread]
    | some host =>
        have text : fromUtf8 (firstLine (hostValue shorter)) ≠ none := by
          intro unread
          simp [hostText, unread] at read
        rcases firstLine_hostValue_append shorter added valued with
          ⟨ended, same⟩ | ⟨opened, line_eq, longer_eq⟩
        · simp [ShowsHost, same, read, ended]
        · rw [line_eq] at read
          rw [longer_eq]
          simp only [Option.some.injEq, forall_eq', hostText_append_iff read, ShowsHost, valued,
            text, opened, false_or]

theorem exists_append_of_hostOf {shorter added : List UInt8} {host longerHost : String}
    (read : hostOf shorter = some host) (longerRead : hostOf (shorter ++ added) = some longerHost) :
    ∃ rest, longerHost = host ++ rest := by
  rw [hostOf, Option.ite_none_left_eq_some] at read longerRead
  rcases firstLine_hostValue_append shorter added read.1 with
    ⟨-, same⟩ | ⟨-, line_eq, longer_eq⟩
  · rw [same, read.2] at longerRead
    exact ⟨"", by simpa using (Option.some.inj longerRead.2).symm⟩
  · rw [line_eq] at read
    rw [longer_eq] at longerRead
    exact exists_append_of_hostText read.2 longerRead.2

namespace TcpPayloadEvent

variable (event : TcpPayloadEvent commonMaxPayload)

/-- The event with a capture of another length. -/
def captured (payloadLen : UInt16) : TcpPayloadEvent commonMaxPayload :=
  { event with payloadLen }

/-- What the longer of two captures adds. -/
def added (shorter longer : UInt16) : List UInt8 :=
  (event.payload.toList.take longer.toNat).drop shorter.toNat

theorem payloadBytes_captured {shorter longer : UInt16} (shorter_le : shorter ≤ longer)
    (longer_le : longer ≤ 128) :
    (event.captured longer).payloadBytes =
      (event.captured shorter).payloadBytes ++ event.added shorter longer := by
  have shorter_le' : shorter.toNat ≤ longer.toNat := shorter_le
  have longer_le' : longer.toNat ≤ 128 := longer_le
  have longer_eq : min longer.toNat commonMaxPayload = longer.toNat := Nat.min_eq_left longer_le'
  have shorter_eq : min shorter.toNat commonMaxPayload = shorter.toNat :=
    Nat.min_eq_left (by simp only [commonMaxPayload]; omega)
  have cut : event.payload.toList.take shorter.toNat =
      (event.payload.toList.take longer.toNat).take shorter.toNat := by
    rw [List.take_take, Nat.min_eq_left shorter_le']
  simp only [payloadBytes, captured, added, longer_eq, shorter_eq]
  rw [cut, List.take_append_drop]

theorem parseMethod_append {other : TcpPayloadEvent commonMaxPayload} {added : List UInt8}
    (longer : other.payloadBytes = event.payloadBytes ++ added) {method : String}
    (read : event.parseMethod = some method) : other.parseMethod = some method := by
  rcases Option.bind_eq_some_iff.mp read with ⟨spacePos, found, method_eq⟩
  have within : spacePos ≤ event.payloadBytes.length :=
    Nat.le_of_lt (List.findIdx?_eq_some_iff_findIdx_eq.mp found).1
  have stillFound : other.payloadBytes.findIdx? (· == space) = some spacePos := by
    rw [longer, List.findIdx?_append, found, Option.some_or]
  rw [parseMethod, stillFound]
  simpa [longer, List.take_append_of_le_length within] using method_eq

/--
A longer capture has the same method, and the same host exactly when the shorter one shows the
whole host; a host that is cut begins the one that the longer capture has.
-/
theorem parse_captured {shorter longer : UInt16} (shorter_le : shorter ≤ longer)
    (longer_le : longer ≤ 128) :
    (∀ method, (event.captured shorter).parseMethod = some method →
        (event.captured longer).parseMethod = some method) ∧
      ((∀ host, (event.captured shorter).parseHost = some host →
          (event.captured longer).parseHost = some host) ↔
        ShowsHost (event.captured shorter).payloadBytes (event.added shorter longer)) ∧
      ∀ host longerHost, (event.captured shorter).parseHost = some host →
        (event.captured longer).parseHost = some longerHost →
          ∃ rest, longerHost = host ++ rest := by
  have longer_eq := event.payloadBytes_captured shorter_le longer_le
  refine ⟨?_, ?_, ?_⟩
  · intro method read
    exact (event.captured shorter).parseMethod_append longer_eq read
  · simp only [parseHost_eq_hostOf, longer_eq]
    exact hostOf_append_iff _ _
  · intro host longerHost read longerRead
    rw [parseHost_eq_hostOf] at read longerRead
    rw [longer_eq] at longerRead
    exact exists_append_of_hostOf read longerRead

/-! ## A request cut at two places -/

theorem payloadBytes_captured_makeEvent {payload : List UInt8} {payloadLen : UInt16}
    (fits : payload.length ≤ commonMaxPayload) (within : payloadLen.toNat ≤ payload.length) :
    ((makeEvent payload).captured payloadLen).payloadBytes = payload.take payloadLen.toNat := by
  have whole : payload.take commonMaxPayload = payload := List.take_of_length_le fits
  have len_eq : min payloadLen.toNat commonMaxPayload = payloadLen.toNat :=
    Nat.min_eq_left (by omega)
  simp only [payloadBytes, captured, makeEvent, whole, len_eq]
  rw [toList_writeFront _ fits, List.take_append_of_le_length within]

/-- `GET / HTTP/1.1` with the line `Host: svc`. -/
def rootRequest : TcpPayloadEvent commonMaxPayload :=
  makeEvent (RequestHead.getRoot [] (by simp)).bytes

theorem parse_captured_rootRequest :
    (∀ method, (rootRequest.captured 23).parseMethod = some method →
        (rootRequest.captured 27).parseMethod = some method) ∧
      ((∀ host, (rootRequest.captured 23).parseHost = some host →
          (rootRequest.captured 27).parseHost = some host) ↔
        ShowsHost (rootRequest.captured 23).payloadBytes (rootRequest.added 23 27)) ∧
      ∀ host longerHost, (rootRequest.captured 23).parseHost = some host →
        (rootRequest.captured 27).parseHost = some longerHost →
          ∃ rest, longerHost = host ++ rest :=
  parse_captured rootRequest (by decide) (by decide)

/-- The capture that ends behind the first letter of the host has a host of one letter. -/
theorem parseHost_rootRequest_cut :
    (rootRequest.captured 23).parseHost = some "s" ∧
      (rootRequest.captured 27).parseHost = some "svc" := by
  have shorter : (rootRequest.captured 23).payloadBytes =
      (RequestHead.getRoot [] (by simp)).bytes.take 23 :=
    payloadBytes_captured_makeEvent (by decide) (by decide)
  have longer : (rootRequest.captured 27).payloadBytes =
      (RequestHead.getRoot [] (by simp)).bytes.take 27 :=
    payloadBytes_captured_makeEvent (by decide) (by decide)
  have shorterValue : hostValue ((RequestHead.getRoot [] (by simp)).bytes.take 23) =
      utf8Bytes "s" := by decide
  have longerValue : hostValue ((RequestHead.getRoot [] (by simp)).bytes.take 27) =
      utf8Bytes "svc" ++ crlf := by decide
  have longerLine : firstLine (utf8Bytes "svc" ++ crlf) = utf8Bytes "svc" := by decide
  rw [parseHost_eq_hostOf, parseHost_eq_hostOf, shorter, longer, hostOf, hostOf, shorterValue,
    longerValue, longerLine, hostText, hostText, fromUtf8_utf8Bytes]
  decide

end TcpPayloadEvent

end Qubit.Ebpf
