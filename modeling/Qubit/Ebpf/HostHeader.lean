import Qubit.Ebpf.EbpfLoader

/-!
# The host of a request

`parseHost` takes the first `host:` in the captured bytes, wherever it stands. On a
request head it therefore answers with what the first line that has one says, and this is
the Host header exactly when no earlier line names another host.
-/

namespace Qubit.Ebpf

open Windows (behindFirst)

def crlf : List UInt8 := [carriageReturn, lineFeed]

/-- The bytes of `host`. -/
def hostName : List UInt8 := [0x68, 0x6F, 0x73, 0x74]

/-- The UTF-8 bytes of a text. -/
def utf8Bytes (text : String) : List UInt8 :=
  text.toList.flatMap String.utf8EncodeChar

structure HeaderLine where
  name : List UInt8
  value : List UInt8
  name_free : ∀ byte ∈ name, byte ≠ colon ∧ byte ≠ space ∧ isLineEnd byte = false
  value_free : ∀ byte ∈ value, isLineEnd byte = false

def HeaderLine.text (header : HeaderLine) : List UInt8 :=
  header.name ++ colon :: space :: header.value

/-- A request head with one Host header, between other headers. -/
structure RequestHead where
  method : List UInt8
  target : List UInt8
  version : List UInt8
  requestLine_free : ∀ byte ∈ method ++ target ++ version,
    byte ≠ space ∧ isLineEnd byte = false
  before : List HeaderLine
  host : HeaderLine
  after : List HeaderLine
  host_name : eqIgnoreAsciiCase host.name hostName = true
  others : ∀ header ∈ before ++ after, eqIgnoreAsciiCase header.name hostName = false
  hostValue : String
  value_eq : host.value = utf8Bytes hostValue
  value_nonempty : host.value ≠ []
  front_unblanked : ∀ byte ∈ host.value.head?, isBlank byte = false
  back_unblanked : ∀ byte ∈ host.value.getLast?, isBlank byte = false

namespace RequestHead

variable (head : RequestHead)

def requestLine : List UInt8 :=
  head.method ++ space :: (head.target ++ space :: head.version)

/-- The lines before the Host header. -/
def linesBefore : List (List UInt8) :=
  head.requestLine :: head.before.map HeaderLine.text

def lines : List (List UInt8) :=
  head.linesBefore ++ head.host.text :: head.after.map HeaderLine.text

def bytes : List UInt8 :=
  head.lines.flatMap (· ++ crlf) ++ crlf

end RequestHead

def behindHost : List UInt8 → Option (List UInt8) :=
  behindFirst 5 (eqIgnoreAsciiCase · hostColon)

/-- What a line says behind its first `host:`, if it has one. -/
def hostIn (line : List UInt8) : Option (List UInt8) :=
  (behindHost line).map (·.dropWhile isBlank)

/-- The bytes from the first one that is not blank behind the first `host:` on. -/
def hostValue (captured : List UInt8) : List UInt8 :=
  ((behindHost captured).getD []).dropWhile isBlank

def firstLine (bytes : List UInt8) : List UInt8 :=
  bytes.takeWhile (!isLineEnd ·)

/-- The text before the port. -/
def hostText (line : List UInt8) : Option String :=
  (fromUtf8 line).map (Text.upTo ':')

def hostOf (captured : List UInt8) : Option String :=
  if hostValue captured = [] then none else hostText (firstLine (hostValue captured))

/-! ## Reading the bytes -/

theorem fromUtf8_utf8Bytes (text : String) : fromUtf8 (utf8Bytes text) = some text := by
  have encoded : (utf8Bytes text).toByteArray = text.toByteArray := String.utf8Encode_toList
  rw [fromUtf8, encoded, String.fromUTF8?, dif_pos text.isValidUTF8]
  rfl

theorem parseHost_eq_hostOf (event : TcpPayloadEvent commonMaxPayload) :
    event.parseHost = hostOf event.payloadBytes := by
  rw [TcpPayloadEvent.parseHost, hostOf, hostValue, behindHost, Windows.behindFirst]
  cases (Windows.windows 5 event.payloadBytes).findIdx? (eqIgnoreAsciiCase · hostColon) with
  | none => rfl
  | some hostPos =>
      simp only [Option.bind_eq_bind, Option.bind_some, Option.map_some, Option.getD_some]
      cases start_eq : (event.payloadBytes.drop (hostPos + 5)).findIdx? (!isBlank ·) with
      | none =>
          have blank : (event.payloadBytes.drop (hostPos + 5)).dropWhile isBlank = [] := by
            simpa using start_eq
          rw [if_pos blank]
          rfl
      | some start =>
          have value_eq := Windows.drop_of_findIdx? start_eq
          have nonempty : (event.payloadBytes.drop (hostPos + 5)).dropWhile isBlank ≠ [] := by
            intro blank
            have unfound : (event.payloadBytes.drop (hostPos + 5)).findIdx? (!isBlank ·) = none :=
              by simpa using blank
            rw [unfound] at start_eq
            cases start_eq
          rw [if_neg nonempty, Option.bind_some, value_eq, Windows.take_findIdx?, hostText,
            firstLine]
          cases fromUtf8 _ <;> rfl

theorem parseHost_of_behindHost {event : TcpPayloadEvent commonMaxPayload}
    {text rest : List UInt8} (text_free : ∀ byte ∈ text, isLineEnd byte = false)
    (found : behindHost event.payloadBytes = some (text ++ carriageReturn :: rest)) :
    event.parseHost = (fromUtf8 (text.dropWhile isBlank)).map (Text.upTo ':') := by
  have value_eq : hostValue event.payloadBytes =
      text.dropWhile isBlank ++ carriageReturn :: rest := by
    rw [hostValue, found, Option.getD_some]
    exact Windows.dropWhile_append_cons (by decide) text rest
  have line_eq : firstLine (text.dropWhile isBlank ++ carriageReturn :: rest) =
      text.dropWhile isBlank := by
    rw [firstLine, List.takeWhile_append_of_pos]
    · simp [isLineEnd]
    · intro byte byteMem
      simp [text_free byte ((List.dropWhile_suffix _).subset byteMem)]
  rw [parseHost_eq_hostOf, hostOf, value_eq, if_neg (by simp), line_eq, hostText]

/-! ## Reading a head -/

theorem separates_crlf : ∀ mark ∈ crlf, ∀ window, mark ∈ window →
    eqIgnoreAsciiCase window hostColon = false := by
  intro mark markMem window inWindow
  rw [eqIgnoreAsciiCase, beq_eq_false_iff_ne]
  intro same
  have mapped : toAsciiLowercase mark ∈ hostColon.map toAsciiLowercase :=
    same ▸ List.mem_map_of_mem inWindow
  rcases List.mem_cons.mp markMem with rfl | lineFeedMem
  · exact absurd mapped (by decide)
  · obtain rfl := List.mem_singleton.mp lineFeedMem
    exact absurd mapped (by decide)

theorem HeaderLine.text_free (header : HeaderLine) :
    ∀ byte ∈ header.text, isLineEnd byte = false := by
  intro byte byteMem
  simp only [text, List.mem_append, List.mem_cons] at byteMem
  rcases byteMem with nameMem | rfl | rfl | valueMem
  · exact (header.name_free byte nameMem).2.2
  · decide
  · decide
  · exact header.value_free byte valueMem

namespace RequestHead

variable {head : RequestHead}

theorem requestLine_lineFree : ∀ byte ∈ head.requestLine, isLineEnd byte = false := by
  intro byte byteMem
  simp only [requestLine, List.mem_append, List.mem_cons] at byteMem
  have parts := head.requestLine_free byte
  simp only [List.mem_append] at parts
  rcases byteMem with methodMem | rfl | targetMem | rfl | versionMem
  · exact (parts (Or.inl (Or.inl methodMem))).2
  · decide
  · exact (parts (Or.inl (Or.inr targetMem))).2
  · decide
  · exact (parts (Or.inr versionMem)).2

theorem lines_free : ∀ line ∈ head.lines, ∀ byte ∈ line, isLineEnd byte = false := by
  intro line lineMem
  simp only [lines, linesBefore, List.mem_append, List.mem_cons, List.mem_map] at lineMem
  rcases lineMem with (rfl | ⟨header, _, rfl⟩) | rfl | ⟨header, _, rfl⟩
  · exact requestLine_lineFree
  · exact header.text_free
  · exact head.host.text_free
  · exact header.text_free

/-- The line of the Host header says the value of the header. -/
theorem hostIn_host : hostIn head.host.text = some head.host.value := by
  have name_eq : head.host.name.map toAsciiLowercase = hostName.map toAsciiLowercase := by
    simpa [eqIgnoreAsciiCase] using head.host_name
  have name_length : head.host.name.length = 4 := by
    simpa [hostName] using congrArg List.length name_eq
  have text_eq : head.host.text = (head.host.name ++ [colon]) ++ space :: head.host.value := by
    simp [HeaderLine.text]
  have front : head.host.text.take 5 = head.host.name ++ [colon] := by
    rw [text_eq, List.take_left' (by simp [name_length])]
  have back : head.host.text.drop 5 = space :: head.host.value := by
    rw [text_eq, List.drop_left' (by simp [name_length])]
  have isHost : eqIgnoreAsciiCase (head.host.text.take 5) hostColon = true := by
    rw [front, eqIgnoreAsciiCase, List.map_append, name_eq]
    decide
  have found : behindHost head.host.text = some (space :: head.host.value) := by
    rw [behindHost, Windows.behindFirst_of_take (by omega) _ isHost, back]
    rw [text_eq, List.length_append, List.length_append, name_length]
    simp
  have unblanked : (space :: head.host.value).dropWhile isBlank = head.host.value := by
    rw [List.dropWhile_cons_of_pos (by decide)]
    cases value_eq : head.host.value with
    | nil => rfl
    | cons byte rest =>
        have notBlank := head.front_unblanked byte (by simp [value_eq])
        rw [List.dropWhile_cons_of_neg (by simp [notBlank])]
  rw [hostIn, found, Option.map_some, unblanked]

/-- `parseHost` answers with what the first line that has a `host:` says. -/
theorem parseHost_eq {event : TcpPayloadEvent commonMaxPayload}
    (holds : event.payloadBytes = head.bytes) :
    event.parseHost = (fromUtf8 ((head.linesBefore.findSome? hostIn).getD head.host.value)).map
      (Text.upTo ':') := by
  have said : head.lines.findSome? hostIn =
      some ((head.linesBefore.findSome? hostIn).getD head.host.value) := by
    rw [lines, List.findSome?_append, List.findSome?_cons, hostIn_host]
    cases head.linesBefore.findSome? hostIn <;> rfl
  have behind : head.lines.findSome? hostIn =
      (head.lines.findSome? behindHost).map (·.dropWhile isBlank) := by
    rw [List.map_findSome?]
    rfl
  rw [behind, Option.map_eq_some_iff] at said
  rcases said with ⟨text, text_eq, said_eq⟩
  rcases List.exists_of_findSome?_eq_some text_eq with ⟨line, lineMem, line_eq⟩
  rcases Windows.exists_behindFirst_lines separates_crlf (by omega) text_eq crlf with
    ⟨rest, rest_eq⟩
  have text_free : ∀ byte ∈ text, isLineEnd byte = false := fun byte byteMem =>
    lines_free line lineMem byte ((Windows.behindFirst_suffix line_eq).subset byteMem)
  rw [← said_eq]
  apply parseHost_of_behindHost text_free
  rw [holds]
  exact rest_eq

/--
The Host header is found exactly when the first earlier line with a `host:`, if there is one,
says the same host.
-/
theorem parseHost_eq_host_iff {event : TcpPayloadEvent commonMaxPayload}
    (holds : event.payloadBytes = head.bytes) :
    event.parseHost = some (Text.upTo ':' head.hostValue) ↔
      ∀ text, head.linesBefore.findSome? hostIn = some text →
        (fromUtf8 text).map (Text.upTo ':') = some (Text.upTo ':' head.hostValue) := by
  rw [parseHost_eq holds]
  cases said : head.linesBefore.findSome? hostIn with
  | none => simp [head.value_eq, fromUtf8_utf8Bytes]
  | some text => simp

/-! ## Two heads -/

/-- `GET / HTTP/1.1` for the host `svc`. -/
def getRoot (before : List HeaderLine)
    (others : ∀ header ∈ before, eqIgnoreAsciiCase header.name hostName = false) :
    RequestHead where
  method := [0x47, 0x45, 0x54]
  target := [0x2F]
  version := [0x48, 0x54, 0x54, 0x50, 0x2F, 0x31, 0x2E, 0x31]
  requestLine_free := by simp [space, isLineEnd, carriageReturn, lineFeed]
  before
  host :=
    { name := [0x48, 0x6F, 0x73, 0x74]
      value := [0x73, 0x76, 0x63]
      name_free := by simp [colon, space, isLineEnd, carriageReturn, lineFeed]
      value_free := by simp [isLineEnd, carriageReturn, lineFeed] }
  after := []
  host_name := by decide
  others := by simpa using others
  hostValue := "svc"
  value_eq := by decide
  value_nonempty := by decide
  front_unblanked := by simp [isBlank, space, tab]
  back_unblanked := by simp [isBlank, space, tab]

/-- `X-Forwarded-Host: a`. -/
def forwardedHost : HeaderLine where
  name := [0x58, 0x2D, 0x46, 0x6F, 0x72, 0x77, 0x61, 0x72, 0x64, 0x65, 0x64, 0x2D, 0x48, 0x6F,
    0x73, 0x74]
  value := [0x61]
  name_free := by simp [colon, space, isLineEnd, carriageReturn, lineFeed]
  value_free := by simp [isLineEnd, carriageReturn, lineFeed]

def forwarded : RequestHead :=
  getRoot [forwardedHost] (List.forall_mem_singleton.mpr (by decide))

/-- `X-Forwarded-Host: svc:80`. -/
def sameHost : HeaderLine :=
  { forwardedHost with
    value := [0x73, 0x76, 0x63, 0x3A, 0x38, 0x30]
    value_free := by simp [isLineEnd, carriageReturn, lineFeed] }

/-- The earlier line says the same host, with a port. -/
def sameForwarded : RequestHead :=
  getRoot [sameHost] (List.forall_mem_singleton.mpr (by decide))

theorem parseHost_eq_host_iff_sameForwarded :
    (TcpPayloadEvent.makeEvent sameForwarded.bytes).parseHost =
        some (Text.upTo ':' sameForwarded.hostValue) ↔
      ∀ text, sameForwarded.linesBefore.findSome? hostIn = some text →
        (fromUtf8 text).map (Text.upTo ':') = some (Text.upTo ':' sameForwarded.hostValue) :=
  parseHost_eq_host_iff (TcpPayloadEvent.payloadBytes_makeEvent (by decide))

example : sameForwarded.linesBefore.findSome? hostIn = some (utf8Bytes "svc:80") := by decide

/-- The host of another header is taken for the host of the request. -/
theorem parseHost_forwarded_ne :
    (TcpPayloadEvent.makeEvent forwarded.bytes).payloadBytes = forwarded.bytes ∧
      (TcpPayloadEvent.makeEvent forwarded.bytes).parseHost ≠
        some (Text.upTo ':' forwarded.hostValue) := by
  have holds : (TcpPayloadEvent.makeEvent forwarded.bytes).payloadBytes = forwarded.bytes :=
    TcpPayloadEvent.payloadBytes_makeEvent (by decide)
  have said : forwarded.linesBefore.findSome? hostIn = some (utf8Bytes "a") := by decide
  refine ⟨holds, ?_⟩
  rw [parseHost_eq holds, said, Option.getD_some, fromUtf8_utf8Bytes]
  decide

end RequestHead

end Qubit.Ebpf
