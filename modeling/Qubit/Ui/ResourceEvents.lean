import Qubit.Agent.Installation

/-!
# The lines of the events page

`K8sEventsView` shows a line for each stored resource event, with the reason or the message that
it finds in the data of the event. The agent fills in the reason of every Kubernetes event, so it
is the reason that is shown and never the message; and where one of the texts has a control
character the data is not JSON and is shown as it is. Nothing is ever marked as modified.
-/

namespace Qubit.Ui

/-- The functions of the language that the page uses; times are in milliseconds. -/
structure Builtins where
  jsonParse : String → Option Json
  toUpperCase : String → String
  toLowerCase : String → String
  toLocaleTimeString : ℕ → String

/-- What the language promises of them. Numbers are taken to be exact: the page reads none. -/
structure Builtins.Conforms (builtins : Builtins) : Prop where
  jsonParse_of_parses : ∀ text value, Json.Parses text value →
    builtins.jsonParse text = some value
  jsonParse_of_not_isText : ∀ text, (¬∃ value, Json.IsText text value) →
    builtins.jsonParse text = none
  toUpperCase_of_ascii : ∀ text : String, (∀ char ∈ text.toList, char.toNat < 128) →
    builtins.toUpperCase text = String.ofList (text.toList.map Char.toUpper)

/-- A property of a parsed value, if it is neither missing nor null; a later member counts. -/
def property? (name : String) : Json → Option Json
  | .object members =>
      match (members.reverse.find? fun member => member.1 = name).map Prod.snd with
      | some .null => none
      | found => found
  | _ => none

inductive EventType where
  | added
  | modified
  | deleted
deriving DecidableEq, Repr

structure K8sEvent where
  time : String
  type : EventType
  kind : String
  ns : String
  name : String
  message : Json

namespace K8sEventsView

variable (builtins : Builtins)

def normalizeEventType (raw : String) : EventType :=
  let u := builtins.toUpperCase raw
  if u = "APPLIED" ∨ u = "ADDED" then .added
  else if u = "DELETED" then .deleted
  else .modified

/-- The text of the data; reading a property of null fails like a text that is not JSON. -/
def message (resourceData : String) : Json :=
  match builtins.jsonParse resourceData with
  | some data =>
      (property? "reason" data).getD ((property? "message" data).getD (.string resourceData))
  | none => .string resourceData

def normalize (raw : K8sResourceEvent) : K8sEvent where
  time :=
    if raw.eventTime = 0 then "—"
    else builtins.toLocaleTimeString (raw.eventTime.toNat * 1000)
  type := normalizeEventType builtins raw.eventType
  kind := raw.resourceType
  ns := raw.ns
  name := raw.name
  message := message builtins raw.resourceData

end K8sEventsView

open Agent Agent.Installation

/-- The texts of the event can be written as JSON. -/
def IsWritten (event : Event) : Prop :=
  ∀ text ∈ event.texts, ∀ char ∈ text.toList, Escapable char

instance : DecidablePred IsWritten := fun _ => inferInstanceAs (Decidable (∀ _ ∈ _, _))

/-- The line of a Kubernetes event. -/
def eventLine (time : String) (watched : WatchedEvent) : K8sEvent where
  time
  type := .added
  kind := "Event"
  ns := watched.metadata.ns.getD ""
  name := watched.metadata.name.getD ""
  message := .string
    (if IsWritten watched.event then watched.event.reason.getD "" else buildEventData watched.event)

/-- The line of a resource that is reported with its metadata only. -/
def resourceLine (time : String) (type : EventType) (kind : ResourceKind) (obj : ObjectMeta) :
    K8sEvent where
  time
  type
  kind := kind.resourceType
  ns := obj.ns.getD ""
  name := obj.name.getD ""
  message := .string ""

/-- The line says what an informer got. -/
def K8sEvent.Shows (line : K8sEvent) : Watched → Prop
  | .event (.apply event) | .event (.initApply event) => line = eventLine line.time event
  | .resource kind (.apply obj) | .resource kind (.initApply obj) =>
      line = resourceLine line.time .added kind obj
  | .resource kind (.delete obj) => line = resourceLine line.time .deleted kind obj
  | _ => False

theorem K8sEvent.Shows.exists_text {line : K8sEvent} {watched : Watched}
    (shows : line.Shows watched) : ∃ text, line.message = .string text := by
  unfold K8sEvent.Shows at shows
  split at shows
  · exact ⟨_, congrArg K8sEvent.message shows⟩
  · exact ⟨_, congrArg K8sEvent.message shows⟩
  · exact ⟨_, congrArg K8sEvent.message shows⟩
  · exact ⟨_, congrArg K8sEvent.message shows⟩
  · exact ⟨_, congrArg K8sEvent.message shows⟩
  · cases shows

/-! ## The message of a line -/

section Message

variable {builtins : Builtins}

theorem property?_reason_json (event : Event) :
    property? "reason" event.json = some (.string (event.reason.getD "")) := by
  simp [property?, Event.json, List.find?]

theorem message_buildEventData (conforms : builtins.Conforms) (event : Event) :
    K8sEventsView.message builtins (buildEventData event) =
      .string (if IsWritten event then event.reason.getD "" else buildEventData event) := by
  by_cases written : IsWritten event
  · have parses : Json.Parses (buildEventData event) event.json :=
      ⟨isText_buildEventData_iff.mpr ⟨written, rfl⟩,
        fun _ read => (isText_buildEventData_iff.mp read).2⟩
    rw [K8sEventsView.message, conforms.jsonParse_of_parses _ _ parses, if_pos written]
    simp [property?_reason_json]
  · have noJson : ¬∃ value, Json.IsText (buildEventData event) value := by
      rintro ⟨value, read⟩
      exact written (isText_buildEventData_iff.mp read).1
    rw [K8sEventsView.message, conforms.jsonParse_of_not_isText _ noJson, if_neg written]

theorem not_isText_empty : ¬∃ value, Json.IsText "" value := by
  rintro ⟨value, before, body, after, -, -, written, read⟩
  rw [String.toList_empty, eq_comm, List.append_eq_nil_iff] at written
  rw [written.2] at read
  have noSign {sign : Char} {inner : List Char} : ¬Json.Structural sign [] inner := by
    rintro ⟨before, after, -, -, opened⟩
    simp at opened
  cases read with
  | null blank | true blank | false blank => simp at blank
  | number number blank =>
      rw [eq_comm, List.append_eq_nil_iff, Json.NumberText.text] at blank
      simp [number.int_ne] at blank
  | string blank =>
      rcases blank with ⟨quoted, pieces, blank, -⟩
      cases blank
  | emptyArray opened | array opened | emptyObject opened | object opened => exact noSign opened

theorem message_empty (conforms : builtins.Conforms) :
    K8sEventsView.message builtins "" = .string "" := by
  rw [K8sEventsView.message, conforms.jsonParse_of_not_isText _ not_isText_empty]

theorem normalizeEventType_applied (conforms : builtins.Conforms) :
    K8sEventsView.normalizeEventType builtins "Applied" = .added := by
  rw [K8sEventsView.normalizeEventType, conforms.toUpperCase_of_ascii _ (by simp)]
  decide

theorem normalizeEventType_deleted (conforms : builtins.Conforms) :
    K8sEventsView.normalizeEventType builtins "Deleted" = .deleted := by
  rw [K8sEventsView.normalizeEventType, conforms.toUpperCase_of_ascii _ (by simp)]
  decide

end Message

/-! ## The rows of the table -/

section Rows

variable {fromStr : String → Option Yaml}
  {toString : (AList fun _ : String => String) → String} {seen : Installation.Action → Prop}

/-- An informer got what the message tells. -/
def Told (fromStr : String → Option Yaml) (watched : Watched) (event : ResourceEventMessage) :
    Prop :=
  ∃ sent, watched.handle fromStr = .ok sent ∧ Message.resource event ∈ sent

/-- The row is asked for by a message that tells what an informer got. -/
def RowTold (fromStr : String → Option Yaml)
    (toString : (AList fun _ : String => String) → String) (seen : Installation.Action → Prop)
    (row : K8sResourceEvent) : Prop :=
  ∃ watched event now labels, seen (.watched watched) ∧ Told fromStr watched event ∧
    row ∈ Receipt.rows toString { message := .resource event, now, labels }

/-- What is on its way, being written and stored has been told, if it was not there before. -/
structure RowsTold (fromStr : String → Option Yaml)
    (toString : (AList fun _ : String => String) → String) (seen : Installation.Action → Prop)
    (before : List K8sResourceEvent) (installation : Installation) : Prop where
  messages : ∀ event, Message.resource event ∈ installation.messages →
    ∃ watched, seen (.watched watched) ∧ Told fromStr watched event
  writes : ∀ row ∈ installation.writes, RowTold fromStr toString seen row
  table : ∀ row ∈ installation.table, row ∈ before ∨ RowTold fromStr toString seen row

variable {installation : Installation} {before : List K8sResourceEvent}

theorem told_of_mem_sends {action : Installation.Action} (actionSeen : seen action)
    {event : ResourceEventMessage}
    (sent : Message.resource event ∈ installation.sends fromStr action) :
    ∃ watched, seen (.watched watched) ∧ Told fromStr watched event := by
  cases action with
  | watched watched =>
      rw [sends] at sent
      split at sent
      · cases handled : watched.handle fromStr with
        | error message => simp [handled] at sent
        | ok messages =>
            rw [handled] at sent
            exact ⟨watched, actionSeen, messages, handled, sent⟩
      · simp at sent
  | mapListed services pods => simp [sends] at sent
  | routesListed cmList => simp [sends] at sent
  | _ => simp [sends] at sent

theorem mem_messages_of_mem_receipts {action : Installation.Action} {receipt : Receipt}
    (received : receipt ∈ installation.receipts action) :
    receipt.message ∈ installation.messages := by
  rw [receipts, Option.mem_toList] at received
  cases action with
  | deliver index now labels =>
      rw [receives, Option.filter_eq_some_iff, Option.map_eq_some_iff] at received
      rcases received with ⟨⟨message, found, rfl⟩, -⟩
      exact List.mem_of_getElem? found
  | _ => simp [receives] at received

theorem RowsTold.step (told : RowsTold fromStr toString seen before installation)
    {action : Installation.Action} (actionSeen : seen action) :
    RowsTold fromStr toString seen before (installation.step fromStr toString action) where
  messages := by
    intro event member
    rcases Pool.Move.mem_or_posted_of_mem_perform member with present | posted
    · exact told.messages event present
    · have sent := posted_messagePool fromStr toString installation action
      rw [Pool.Host.posted] at sent
      exact told_of_mem_sends actionSeen (sent ▸ posted)
  writes := by
    intro row member
    rcases Pool.Move.mem_or_posted_of_mem_perform member with present | posted
    · exact told.writes row present
    · have asked := posted_writePool fromStr toString installation action
      rw [Pool.Host.posted] at asked
      replace posted := asked ▸ posted
      rcases List.mem_flatMap.mp posted with ⟨⟨message, now, labels⟩, received, rowMem⟩
      have present := mem_messages_of_mem_receipts received
      cases message with
      | request request => simp [Receipt.rows] at rowMem
      | resource event =>
          rcases told.messages event present with ⟨watched, watchedSeen, tells⟩
          exact ⟨watched, event, now, labels, watchedSeen, tells, rowMem⟩
  table := by
    intro row member
    rcases Pool.Move.mem_or_posted_of_mem_perform member with present | posted
    · exact told.table row present
    · right
      cases action with
      | inserted index => exact told.writes row (List.mem_of_getElem? (Option.mem_toList.mp posted))
      | _ => simp [tableMove, Pool.Move.posted] at posted

theorem rowsTold_run (table : List K8sResourceEvent) (actions : List Installation.Action) :
    RowsTold fromStr toString (· ∈ actions) table
      ((start table).run fromStr toString actions) := by
  refine List.foldlRecOn actions (Installation.step fromStr toString) ?_
    fun _ told _ actionSeen => told.step actionSeen
  exact {
    messages := fun _ member => absurd member List.not_mem_nil
    writes := fun _ member => absurd member List.not_mem_nil
    table := fun _ member => Or.inl member }

/-- The row of an event is that of its type. -/
theorem eq_dbEvent_of_mem_rows {event : ResourceEventMessage} {eventType : K8sEventType}
    (typed : event.eventType = eventType.toNumber) {now : ℕ}
    {labels : AList fun _ : String => String} {row : K8sResourceEvent}
    (asked : row ∈ Receipt.rows toString { message := .resource event, now, labels }) :
    row = dbEvent toString now labels event.toK8sResourceEventRequest
      (match eventType with | .applied => "Applied" | .deleted => "Deleted") := by
  simp only [Receipt.rows, typed] at asked
  cases eventType with
  | applied => exact List.mem_singleton.mp asked
  | deleted => exact List.mem_singleton.mp asked

/-- A line says what the message behind its row tells. -/
theorem shows_of_told {builtins : Builtins} (conforms : builtins.Conforms) {watched : Watched}
    {event : ResourceEventMessage} (tells : Told fromStr watched event) {now : ℕ}
    {labels : AList fun _ : String => String} {row : K8sResourceEvent}
    (asked : row ∈ Receipt.rows toString { message := .resource event, now, labels }) :
    (K8sEventsView.normalize builtins row).Shows watched := by
  have line_eq (eventType : K8sEventType) (typed : event.eventType = eventType.toNumber) :
      row = dbEvent toString now labels event.toK8sResourceEventRequest
        (match eventType with | .applied => "Applied" | .deleted => "Deleted") :=
    eq_dbEvent_of_mem_rows typed asked
  rcases tells with ⟨sent, handled, member⟩
  suffices shown : ∀ message ∈ sent, message = .resource event →
      (K8sEventsView.normalize builtins row).Shows watched from shown _ member rfl
  cases watched with
  | configMap item =>
      refine EventHandler.forall_sent handled ?_ ?_ ?_ <;> rintro obj - _ spawned rfl <;>
        simp [ConfigMapHandler.handler] at spawned
  | service item =>
      refine EventHandler.forall_sent handled ?_ ?_ ?_ <;> rintro obj - _ spawned rfl <;>
        simp [ServiceHandler.handler] at spawned
  | pod item services =>
      refine EventHandler.forall_sent handled ?_ ?_ ?_ <;> rintro obj - _ spawned rfl <;>
        simp [PodHandler.handler] at spawned
  | event item =>
      have shown (obj : WatchedEvent) (tells : event =
          ClusterAggregator.sendK8sResourceEvent "Event" (obj.metadata.name.getD "")
            (obj.metadata.ns.getD "") .applied (obj.metadata.labels.getD ∅)
            (buildEventData obj.event)) :
          K8sEventsView.normalize builtins row =
            eventLine (K8sEventsView.normalize builtins row).time obj := by
        obtain rfl := line_eq .applied (by rw [tells]; rfl)
        subst tells
        simp only [K8sEventsView.normalize, eventLine, dbEvent,
          ClusterAggregator.sendK8sResourceEvent, normalizeEventType_applied conforms,
          message_buildEventData conforms]
      refine EventHandler.forall_sent handled ?_ ?_ ?_
      · rintro obj rfl _ spawned rfl
        exact shown obj (Message.resource.inj (List.mem_singleton.mp spawned))
      · rintro obj rfl _ spawned rfl
        cases spawned
      · rintro obj rfl _ spawned rfl
        exact shown obj (Message.resource.inj (List.mem_singleton.mp spawned))
  | resource kind item =>
      have shown (eventType : K8sEventType) (obj : ObjectMeta)
          (tells : Message.resource event = GenericHandler.report kind eventType obj) :
          K8sEventsView.normalize builtins row =
            resourceLine (K8sEventsView.normalize builtins row).time
              (match eventType with | .applied => .added | .deleted => .deleted) kind obj := by
        obtain rfl := Message.resource.inj tells
        obtain rfl := line_eq eventType rfl
        cases eventType with
        | applied =>
            simp only [K8sEventsView.normalize, resourceLine, dbEvent,
              ClusterAggregator.sendK8sResourceEvent, normalizeEventType_applied conforms,
              message_empty conforms]
        | deleted =>
            simp only [K8sEventsView.normalize, resourceLine, dbEvent,
              ClusterAggregator.sendK8sResourceEvent, normalizeEventType_deleted conforms,
              message_empty conforms]
      refine EventHandler.forall_sent handled ?_ ?_ ?_
      · rintro obj rfl _ spawned rfl
        exact shown .applied obj (List.mem_singleton.mp spawned)
      · rintro obj rfl _ spawned rfl
        exact shown .deleted obj (List.mem_singleton.mp spawned)
      · rintro obj rfl _ spawned rfl
        exact shown .applied obj (List.mem_singleton.mp spawned)

end Rows

theorem exists_text_of_mem_table {builtins : Builtins} (conforms : builtins.Conforms)
    {fromStr : String → Option Yaml} {toString : (AList fun _ : String => String) → String}
    {actions : List Installation.Action} {row : K8sResourceEvent}
    (member : row ∈ ((start []).run fromStr toString actions).table) :
    ∃ text, (K8sEventsView.normalize builtins row).message = .string text := by
  rcases (rowsTold_run [] actions).table row member with stored | told
  · cases stored
  · rcases told with ⟨watched, event, now, labels, -, tells, asked⟩
    exact (shows_of_told conforms tells asked).exists_text

/--
Every row that is stored in a run of the agent and Core is shown as a line about something that an
informer got: for a Kubernetes event its reason, or its data where that is not JSON, and for any
other resource nothing but its kind, names and whether it is gone.
-/
theorem lines_shown {builtins : Builtins} (conforms : builtins.Conforms)
    (fromStr : String → Option Yaml) (toString : (AList fun _ : String => String) → String)
    (table : List K8sResourceEvent) (actions : List Installation.Action) :
    ∀ row ∈ ((start table).run fromStr toString actions).table,
      row ∈ table ∨ ∃ watched, .watched watched ∈ actions ∧
        (K8sEventsView.normalize builtins row).Shows watched := by
  intro row member
  rcases (rowsTold_run table actions).table row member with stored | told
  · exact Or.inl stored
  · rcases told with ⟨watched, event, now, labels, seen, tells, asked⟩
    exact Or.inr ⟨watched, seen, shows_of_told conforms tells asked⟩

open Classical in
/-- The parser that the grammar determines; letters outside ASCII are left as they are. -/
noncomputable def grammarBuiltins : Builtins where
  jsonParse text := if read : ∃ value, Json.IsText text value then some read.choose else none
  toUpperCase text := String.ofList (text.toList.map Char.toUpper)
  toLowerCase text := String.ofList (text.toList.map Char.toLower)
  toLocaleTimeString milliseconds := toString (milliseconds / 1000)

theorem conforms_grammarBuiltins : grammarBuiltins.Conforms where
  jsonParse_of_parses text value parses := by
    have read : ∃ value, Json.IsText text value := ⟨value, parses.isText⟩
    exact (dif_pos read).trans (congrArg some (parses.unique _ read.choose_spec))
  jsonParse_of_not_isText _ noText := dif_neg noText
  toUpperCase_of_ascii _ _ := rfl

/-- A pod backs off, and its deployment is deleted; both reports are stored. -/
def backedOff : List Installation.Action :=
  let web : ObjectMeta := { uid := none, name := some "web", ns := some "default", labels := none }
  [.watched (.event (.apply { metadata := web, event := tabbedEvent })),
    .watched (.resource .deployment (.delete web)), .deliver 1 60 ∅, .deliver 0 61 ∅,
    .inserted 0, .inserted 0]

def backedOffRow : K8sResourceEvent where
  eventTime := 61
  resourceType := "Event"
  name := "web"
  ns := "default"
  eventType := "Applied"
  labels := "\x7b\x7d"
  resourceData := buildEventData tabbedEvent

theorem lines_shown_backedOff :
    backedOffRow ∈ ([] : List K8sResourceEvent) ∨ ∃ watched, .watched watched ∈ backedOff ∧
      (K8sEventsView.normalize grammarBuiltins backedOffRow).Shows watched :=
  lines_shown conforms_grammarBuiltins (fun _ => none) (fun _ => "\x7b\x7d") [] backedOff
    backedOffRow (by decide +kernel)

end Qubit.Ui
