import Qubit.Lib.Text
import Qubit.Lib.WrittenJson

/-!
# The data of a Kubernetes event

The agent writes the fields of an event as JSON by hand. Its four replacements put a
backslash before every backslash and quotation mark and take the line ends out of the
text. The other control characters stay as they are, which JSON does not allow: an event
with one of them is sent as a text that is not JSON, and every other event can be read
back.
-/

namespace Qubit.Agent

structure ObjectReference where
  kind : Option String
  name : Option String
  ns : Option String
deriving DecidableEq, Repr

structure Event where
  reason : Option String
  message : Option String
  type : Option String
  count : Option Int
  involvedObject : ObjectReference
deriving DecidableEq, Repr

def escapeJson (s : String) : String :=
  s |> Text.replace '\\' "\\\\"
    |> Text.replace '"' "\\\""
    |> Text.replace '\n' "\\n"
    |> Text.replace '\r' "\\r"

def buildEventData (event : Event) : String :=
  let reason := event.reason.getD ""
  let message := event.message.getD ""
  let eventType := event.type.getD "Normal"
  let count := event.count.getD 1
  let obj := event.involvedObject
  let involvedKind := obj.kind.getD ""
  let involvedName := obj.name.getD ""
  let involvedNamespace := obj.ns.getD ""
  "\x7b\"reason\":\"" ++ escapeJson reason ++ "\",\"message\":\"" ++ escapeJson message ++
    "\",\"type\":\"" ++ escapeJson eventType ++ "\",\"count\":" ++ toString count ++
    ",\"involved_kind\":\"" ++ escapeJson involvedKind ++
    "\",\"involved_name\":\"" ++ escapeJson involvedName ++
    "\",\"involved_namespace\":\"" ++ escapeJson involvedNamespace ++ "\"\x7d"

/-- What the data of an event is to say, with the values an absent field is given. -/
def Event.json (event : Event) : Json :=
  .object [("reason", .string (event.reason.getD "")), ("message", .string (event.message.getD "")),
    ("type", .string (event.type.getD "Normal")), ("count", .number (event.count.getD 1 : Int)),
    ("involved_kind", .string (event.involvedObject.kind.getD "")),
    ("involved_name", .string (event.involvedObject.name.getD "")),
    ("involved_namespace", .string (event.involvedObject.ns.getD ""))]

/-- The texts of an event. -/
def Event.texts (event : Event) : List String :=
  [event.reason, event.message, event.type, event.involvedObject.kind, event.involvedObject.name,
    event.involvedObject.ns].filterMap id

/-- Not a control character, or a line end. -/
def Escapable (char : Char) : Prop :=
  0x20 ≤ char.toNat ∨ char = '\n' ∨ char = '\r'

instance (char : Char) : Decidable (Escapable char) :=
  inferInstanceAs (Decidable (_ ∨ _))

/-! ## One character -/

/-- What the four replacements make of a character. -/
def escapeChar (char : Char) : List Char :=
  if char = '\\' then ['\\', '\\']
  else if char = '"' then ['\\', '"']
  else if char = '\n' then ['\\', 'n']
  else if char = '\r' then ['\\', 'r']
  else [char]

theorem toList_escapeJson (s : String) : (escapeJson s).toList = s.toList.flatMap escapeChar := by
  simp only [escapeJson, Text.replace, String.toList_ofList, List.flatMap_assoc]
  congr 1
  funext char
  by_cases backslash : char = '\\'
  · simp [escapeChar, backslash]
  · by_cases quote : char = '"'
    · simp [escapeChar, quote]
    · by_cases newline : char = '\n'
      · simp [escapeChar, newline]
      · by_cases carriageReturn : char = '\r'
        · simp [escapeChar, carriageReturn]
        · simp [escapeChar, backslash, quote, newline, carriageReturn]

theorem shows_escapeChar {char : Char} (escapable : Escapable char) :
    Json.Shows (escapeChar char) char := by
  unfold escapeChar
  split
  · rename_i backslash
    subst backslash
    exact .escaped (by simp [Json.escapes])
  · split
    · rename_i quote
      subst quote
      exact .escaped (by simp [Json.escapes])
    · split
      · rename_i newline
        subst newline
        exact .escaped (by simp [Json.escapes])
      · split
        · rename_i carriageReturn
          subst carriageReturn
          exact .escaped (by simp [Json.escapes])
        · rename_i backslash quote newline carriageReturn
          have printed : 0x20 ≤ char.toNat := by
            simpa [Escapable, newline, carriageReturn] using escapable
          exact .plain ⟨printed, quote, backslash⟩

/-- Every other character is left as it is. -/
theorem escapeChar_eq_of_not_escapable {char : Char} (raw : ¬Escapable char) :
    char.toNat < 0x20 ∧ escapeChar char = [char] := by
  simp only [Escapable, not_or, not_le] at raw
  rcases raw with ⟨control, newline, carriageReturn⟩
  have backslash : char ≠ '\\' := by
    rintro rfl
    simp at control
  have quote : char ≠ '"' := by
    rintro rfl
    simp at control
  simp [control, escapeChar, backslash, quote, newline, carriageReturn]

theorem shows_or_raw (char : Char) : Json.Shows (escapeChar char) char ∨
    char.toNat < 0x20 ∧ escapeChar char = [char] := by
  by_cases escapable : Escapable char
  · exact Or.inl (shows_escapeChar escapable)
  · exact Or.inr (escapeChar_eq_of_not_escapable escapable)

theorem shows_escapeChar_iff {char : Char} :
    Json.Shows (escapeChar char) char ↔ Escapable char := by
  constructor
  · intro shows
    by_contra raw
    rcases escapeChar_eq_of_not_escapable raw with ⟨control, escape_eq⟩
    rw [escape_eq] at shows
    cases shows with
    | plain allowed => exact absurd allowed.1 (by omega)
  · exact shows_escapeChar

/-! ## The object -/

open Json (Entry)

def textEntry (name text : String) : Entry where
  name := name
  text := '"' :: (text.toList.flatMap escapeChar ++ ['"'])
  value := .string text

def countEntry (count : Int) : Entry where
  name := "count"
  text := (toString count).toList
  value := .number count

/-- Every character of the text can be escaped; a number is always fine. -/
def IsClean (entry : Entry) : Prop :=
  match entry.value with
  | .string text => ∀ char ∈ text.toList, Escapable char
  | _ => True

theorem reads_textEntry {name : String} (plain : ∀ char ∈ name.toList, Json.IsUnescaped char)
    (text : String) : (textEntry name text).Reads IsClean where
  plain := plain
  reads := by
    have written : ∀ char ∈ text.toList, Json.Shows (escapeChar char) char ∨
        char.toNat < 0x20 ∧ escapeChar char = [char] := fun char _ => shows_or_raw char
    have read := Json.readsIf_quoted written
    simp only [shows_escapeChar_iff, String.ofList_toList] at read
    exact read

theorem reads_countEntry (count : Int) : (countEntry count).Reads IsClean where
  plain := by simp [countEntry]; decide
  reads := Json.readsIf_int count

def Event.entries (event : Event) : List Entry :=
  [textEntry "message" (event.message.getD ""), textEntry "type" (event.type.getD "Normal"),
    countEntry (event.count.getD 1),
    textEntry "involved_kind" (event.involvedObject.kind.getD ""),
    textEntry "involved_name" (event.involvedObject.name.getD ""),
    textEntry "involved_namespace" (event.involvedObject.ns.getD "")]

theorem buildEventData_eq (event : Event) : buildEventData event =
    Entry.objectText (textEntry "reason" (event.reason.getD "")) event.entries := by
  rw [← String.toList_inj]
  unfold buildEventData
  simp [Entry.objectText, Entry.others, Entry.written, Event.entries, textEntry, countEntry,
    toList_escapeJson]

theorem isClean_textEntry_iff {name default : String} {text : Option String}
    (clean : ∀ char ∈ default.toList, Escapable char) :
    IsClean (textEntry name (text.getD default)) ↔
      ∀ given ∈ text, ∀ char ∈ given.toList, Escapable char := by
  cases text with
  | none => simpa [IsClean, textEntry] using clean
  | some given => simp [IsClean, textEntry]

theorem reads_entries (event : Event) :
    ∀ entry ∈ textEntry "reason" (event.reason.getD "") :: event.entries,
      entry.Reads IsClean := by
  simp only [Event.entries, List.forall_mem_cons]
  refine ⟨?_, ?_, ?_, reads_countEntry _, ?_, ?_, ?_, by simp⟩ <;>
    exact reads_textEntry (by simp [Json.IsUnescaped]) _

theorem isClean_entries_iff (event : Event) :
    (∀ entry ∈ textEntry "reason" (event.reason.getD "") :: event.entries, IsClean entry) ↔
      ∀ text ∈ event.texts, ∀ char ∈ text.toList, Escapable char := by
  have noText : ∀ char ∈ "".toList, Escapable char := by simp
  have normal : ∀ char ∈ "Normal".toList, Escapable char := by simp [Escapable]
  have count : IsClean (countEntry (event.count.getD 1)) := trivial
  have given_iff : (∀ text ∈ event.texts, ∀ char ∈ text.toList, Escapable char) ↔
      ∀ field ∈ [event.reason, event.message, event.type, event.involvedObject.kind,
        event.involvedObject.name, event.involvedObject.ns],
          ∀ text ∈ field, ∀ char ∈ text.toList, Escapable char := by
    simp only [Event.texts, List.mem_filterMap, id_eq, Option.mem_def]
    constructor
    · intro every field member text given
      exact every text ⟨field, member, given⟩
    · rintro every text ⟨field, member, given⟩
      exact every field member text given
  rw [given_iff]
  simp only [Event.entries, List.forall_mem_cons, isClean_textEntry_iff noText,
    isClean_textEntry_iff normal, count, true_and, List.not_mem_nil, false_implies, implies_true]

/-- The data is JSON only without other control characters, and then it says what it is to say. -/
theorem isText_buildEventData_iff {event : Event} {value : Json} :
    Json.IsText (buildEventData event) value ↔
      (∀ text ∈ event.texts, ∀ char ∈ text.toList, Escapable char) ∧ value = event.json := by
  rw [buildEventData_eq, Entry.isText_objectText_iff (reads_entries event),
    isClean_entries_iff event]
  rfl

/--
An event can be read back from its data exactly if its texts have no control characters besides line
feeds and carriage returns.
-/
theorem parses_buildEventData_iff (event : Event) :
    Json.Parses (buildEventData event) event.json ↔
      ∀ text ∈ event.texts, ∀ char ∈ text.toList, Escapable char := by
  constructor
  · intro parses
    exact (isText_buildEventData_iff.mp parses.isText).1
  · intro escapable
    refine ⟨isText_buildEventData_iff.mpr ⟨escapable, rfl⟩, ?_⟩
    intro other read
    exact (isText_buildEventData_iff.mp read).2

/-- A warning whose message is set off by a tab. -/
def tabbedEvent : Event where
  reason := some "BackOff"
  message := some "Error:\tCrashLoopBackOff"
  type := some "Warning"
  count := none
  involvedObject := { kind := some "Pod", name := some "web", ns := some "default" }

theorem not_isText_tabbedEvent : ¬∃ value, Json.IsText (buildEventData tabbedEvent) value := by
  rintro ⟨value, read⟩
  have escapable := (isText_buildEventData_iff.mp read).1 "Error:\tCrashLoopBackOff"
    (by simp [Event.texts, tabbedEvent]) '\t' (by simp)
  exact absurd escapable (by decide)

end Qubit.Agent
