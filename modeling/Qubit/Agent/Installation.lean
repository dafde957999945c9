import Qubit.Agent.Informers
import Qubit.Agent.MapAgreement
import Qubit.Core.CacheOrigin
import Qubit.Core.Pages
import Qubit.Lib.Pool

/-!
# The agent, Core and the resource events

The informers of the agent, its resyncs, Core and the writers of the resource events run side
by side. A handler spawns a task for every message, so messages are on their way in no order,
and a message whose task fails is lost: nothing is sent a second time. Core hands the row of a
resource event to a task as well, which may fail. Either process can be started anew at any
time; what it has sent may still arrive.

Messages, rows under way and the table are three pools, each filled from the one before it.
-/

namespace Qubit.Agent

/-- The row of a resource event that is received at second `now`; `to_string` writes the labels. -/
def dbEvent (toString : (AList fun _ : String => String) → String) (now : ℕ)
    (labels : AList fun _ : String => String) (req : K8sResourceEventRequest)
    (eventType : String) : K8sResourceEvent where
  eventTime := UInt32.ofNat now
  resourceType := req.resourceType
  name := req.name
  ns := req.ns
  eventType := eventType
  labels := toString labels
  resourceData := req.resourceData

/-- A message with the second it is received and the order in which its labels are written. -/
structure Receipt where
  message : Message
  now : ℕ
  labels : AList fun _ : String => String

namespace Receipt

/-- The request as Core handles it. -/
def request (receipt : Receipt) : Request :=
  match receipt.message with
  | .request request => request
  | .resource event => .sendK8sResourceEvent receipt.now event.toK8sResourceEventRequest

/-- The rows that Core is to write. -/
def rows (toString : (AList fun _ : String => String) → String) (receipt : Receipt) :
    List K8sResourceEvent :=
  match receipt.message with
  | .request _ => []
  | .resource event =>
      match K8sEventType.tryFrom event.eventType with
      | some .applied =>
          [dbEvent toString receipt.now receipt.labels event.toK8sResourceEventRequest "Applied"]
      | some .deleted =>
          [dbEvent toString receipt.now receipt.labels event.toK8sResourceEventRequest "Deleted"]
      | none => []

/-- The labels are listed in some order. -/
def Fits (receipt : Receipt) : Prop :=
  match receipt.message with
  | .request _ => True
  | .resource event => receipt.labels.toFinmap = event.labels

instance : DecidablePred Fits
  | ⟨.request _, _, _⟩ => .isTrue trivial
  | ⟨.resource event, _, labels⟩ => inferInstanceAs (Decidable (labels.toFinmap = event.labels))

end Receipt

/-- An item that an informer gets; a pod is looked up while the registry is listed in an order. -/
inductive Watched where
  | configMap (item : WatcherItem ConfigMap)
  | service (item : WatcherItem WatchedService)
  | pod (item : WatcherItem Pod) (services : AList fun _ : String => RegisteredService)
  | event (item : WatcherItem WatchedEvent)
  | resource (kind : ResourceKind) (item : WatcherItem ObjectMeta)

def Watched.handle (fromStr : String → Option Yaml) : Watched → Except String (List Message)
  | .configMap item => (ConfigMapHandler.handler fromStr).handle "ConfigMap" item
  | .service item => ServiceHandler.handler.handle "Service" item
  | .pod item services => (PodHandler.handler services).handle "Pod" item
  | .event item => K8sEventHandler.handler.handle "Event" item
  | .resource kind item => (GenericHandler.handler kind).handle kind.typeName item

/-- The registry after an item; only the handler of services writes it. -/
def Watched.register (services : ServiceRegistry) : Watched → ServiceRegistry
  | .service item => ServiceHandler.register services item
  | _ => services

/-- The informer of the item is one of those whose end the agent ignores. -/
def Watched.detached? : Watched → Option ResourceKind
  | .resource kind _ => if kind.isDetached then some kind else none
  | _ => none

/-! ## Reports and rows -/

/-- What is to be told about a resource. -/
structure Report where
  resourceType : String
  name : String
  ns : String
  eventType : K8sEventType
  labels : Labels
  resourceData : String

namespace Report

def about (resourceType : String) (metadata : ObjectMeta) (eventType : K8sEventType)
    (resourceData : String) : Report where
  resourceType := resourceType
  name := metadata.name.getD ""
  ns := metadata.ns.getD ""
  eventType := eventType
  labels := metadata.labels.getD ∅
  resourceData := resourceData

/-- The row of a report that is received at second `now`, with its labels listed in an order. -/
def row (toString : (AList fun _ : String => String) → String) (now : ℕ)
    (labels : AList fun _ : String => String) (report : Report) : K8sResourceEvent where
  eventTime := UInt32.ofNat now
  resourceType := report.resourceType
  name := report.name
  ns := report.ns
  eventType :=
    match report.eventType with
    | .applied => "Applied"
    | .deleted => "Deleted"
  labels := toString labels
  resourceData := report.resourceData

end Report

/-- The one report about an item; that an event is gone is not worth one. -/
def Watched.report? : Watched → Option Report
  | .event (.apply watched) | .event (.initApply watched) =>
      some (.about "Event" watched.metadata .applied (buildEventData watched.event))
  | .resource kind (.apply obj) | .resource kind (.initApply obj) =>
      some (.about kind.resourceType obj .applied "")
  | .resource kind (.delete obj) => some (.about kind.resourceType obj .deleted "")
  | _ => none

namespace Message

/-- The message that carries a report. -/
def ofReport (report : Report) : Message :=
  .resource
    { resourceType := report.resourceType
      name := report.name
      ns := report.ns
      eventType := report.eventType.toNumber
      resourceData := report.resourceData
      labels := report.labels }

/-- The message is sent for the rows of the resource events. -/
def isResource : Message → Bool
  | .request _ => false
  | .resource _ => true

theorem filter_isResource_request {A : Type} (requests : List A) (request : A → Request) :
    (requests.map fun item => Message.request (request item)).filter isResource = [] := by
  rw [List.filter_eq_nil_iff, List.forall_mem_map]
  exact fun _ _ => Bool.false_ne_true

end Message

/-- A handler sends the one report about its item and no other. -/
theorem Watched.filter_isResource_handle (fromStr : String → Option Yaml) (watched : Watched) :
    (match watched.handle fromStr with
      | .ok sent => sent
      | .error _ => []).filter Message.isResource =
        watched.report?.toList.map Message.ofReport := by
  cases watched with
  | configMap item =>
      cases item <;> first
        | rfl
        | exact Message.filter_isResource_request _ id
  | service item =>
      cases item <;> first
        | rfl
        | exact Message.filter_isResource_request _ _
  | pod item services =>
      cases item <;> first
        | rfl
        | exact Message.filter_isResource_request _ _
  | event item => cases item <;> rfl
  | resource kind item => cases item <;> rfl

/-- Core asks for the one row of a report. -/
theorem Receipt.rows_of_message_eq {receipt : Receipt} {report : Report}
    (carried : receipt.message = .ofReport report)
    (toString : (AList fun _ : String => String) → String) :
    receipt.rows toString = [report.row toString receipt.now receipt.labels] := by
  rcases receipt with ⟨message, now, labels⟩
  obtain rfl : message = .ofReport report := carried
  rcases report with ⟨resourceType, name, ns, eventType, reportLabels, resourceData⟩
  cases eventType <;> rfl

/-! ## The installation -/

/-- The agent with its messages, and Core with the rows that it writes. -/
structure Installation where
  registry : ServiceRegistry
  /-- The detached informers that have ended. -/
  ended : Finset ResourceKind
  messages : List Message
  core : System
  writes : List K8sResourceEvent
  table : List K8sResourceEvent

namespace Installation

/-- What happens; a step that does not fit the state changes nothing. -/
inductive Action where
  | watched (watched : Watched)
  | mapListed (services : List Service) (pods : List Pod)
  | routesListed (cmList : List ConfigMap)
  | agentRestart
  | deliver (index now : ℕ) (labels : AList fun _ : String => String)
  | lose (index : ℕ)
  /-- An event of the loader arrives. -/
  | traffic (input : EbpfNetworkEventInput)
  | advance (task : ℕ)
  | coreRestart
  | inserted (index : ℕ)
  | insertFailed (index : ℕ)
  | expire (index : ℕ)

variable (fromStr : String → Option Yaml)
  (toString : (AList fun _ : String => String) → String) (installation : Installation)

/-- The informer has not ended, and the order is one of the registry. -/
def Watches : Watched → Prop
  | .pod _ services => services.toFinmap = installation.registry
  | .resource kind _ => kind ∉ installation.ended
  | _ => True

instance : DecidablePred installation.Watches
  | .pod _ services => inferInstanceAs (Decidable (services.toFinmap = installation.registry))
  | .resource kind _ => inferInstanceAs (Decidable (kind ∉ installation.ended))
  | .configMap _ | .service _ | .event _ => .isTrue trivial

/-- The messages that an action spawns. -/
def sends : Action → List Message
  | .watched watched =>
      if installation.Watches watched then
        match watched.handle fromStr with
        | .ok sent => sent
        | .error _ => []
      else []
  | .mapListed services pods =>
      [.request (.sendServicePodMap (sendInitialPodServiceMap services pods))]
  | .routesListed cmList => (sendEnvoyRoutesFromConfigmaps fromStr cmList).map .request
  | _ => []

/-- The message that Core handles in a step. -/
def receives : Action → Option Receipt
  | .deliver index now labels =>
      (installation.messages[index]?.map fun message => { message, now, labels }).filter
        fun receipt => receipt.Fits
  | _ => none

def receipts (action : Action) : List Receipt :=
  (installation.receives action).toList

def messageMove (action : Action) : Pool.Move Message :=
  match action with
  | .deliver index _ _ =>
      if (installation.receives action).isSome then .take index else .post []
  | .lose index => .take index
  | _ => .post (installation.sends fromStr action)

def writeMove (action : Action) : Pool.Move K8sResourceEvent :=
  match action with
  | .inserted index | .insertFailed index => .take index
  | _ => .post ((installation.receipts action).flatMap (Receipt.rows toString))

def tableMove : Action → Pool.Move K8sResourceEvent
  | .inserted index => .post installation.writes[index]?.toList
  | .expire index => .take index
  | _ => .post []

/-- The registry and the detached informers that have ended, after an action. -/
def informers : Action → ServiceRegistry × Finset ResourceKind
  | .watched watched =>
      if installation.Watches watched then
        match watched.handle fromStr with
        | .ok _ => (watched.register installation.registry, installation.ended)
        | .error _ =>
            match watched.detached? with
            | some kind => (installation.registry, insert kind installation.ended)
            -- the end of any other informer ends the agent, and it is started anew
            | none => (ServiceRegistry.new, ∅)
      else (installation.registry, installation.ended)
  | .agentRestart => (ServiceRegistry.new, ∅)
  | _ => (installation.registry, installation.ended)

def coreAfter (action : Action) : System :=
  match action with
  | .deliver .. =>
      (installation.receives action).elim installation.core fun receipt =>
        installation.core.step (.arrive receipt.request)
  | .traffic input => installation.core.step (.arrive (.sendEbpfNetworkEvent input))
  | .advance task => installation.core.step (.advance task)
  | .coreRestart => System.initial
  | _ => installation.core

def step (action : Action) : Installation where
  registry := (installation.informers fromStr action).1
  ended := (installation.informers fromStr action).2
  messages := (installation.messageMove fromStr action).perform installation.messages
  core := installation.coreAfter action
  writes := (installation.writeMove toString action).perform installation.writes
  table := (installation.tableMove action).perform installation.table

/-- Nothing has happened yet; the table may have rows from before. -/
def start (table : List K8sResourceEvent) : Installation where
  registry := ServiceRegistry.new
  ended := ∅
  messages := []
  core := System.initial
  writes := []
  table := table

def run (installation : Installation) (actions : List Action) : Installation :=
  actions.foldl (step fromStr toString) installation

/-! ## The three pools -/

def messagePool : Pool.Host Installation Action Message where
  step := step fromStr toString
  pool := messages
  move := messageMove fromStr
  pool_step _ _ := rfl

def writePool : Pool.Host Installation Action K8sResourceEvent where
  step := step fromStr toString
  pool := writes
  move := writeMove toString
  pool_step _ _ := rfl

def tablePool : Pool.Host Installation Action K8sResourceEvent where
  step := step fromStr toString
  pool := table
  move := tableMove
  pool_step _ _ := rfl

def loses : Action → List Message
  | .lose index => installation.messages[index]?.toList
  | _ => []

def failsToStore : Action → List K8sResourceEvent
  | .insertFailed index => installation.writes[index]?.toList
  | _ => []

def stores : Action → List K8sResourceEvent
  | .inserted index => installation.writes[index]?.toList
  | _ => []

def expires : Action → List K8sResourceEvent
  | .expire index => installation.table[index]?.toList
  | _ => []

theorem posted_messagePool (action : Action) :
    (messagePool fromStr toString).posted installation action =
      installation.sends fromStr action := by
  cases action with
  | deliver index now labels =>
      simp only [Pool.Host.posted, messagePool, messageMove]
      split <;> rfl
  | _ => rfl

theorem taken_messagePool (action : Action) :
    (messagePool fromStr toString).taken installation action =
      installation.loses action ++ (installation.receipts action).map Receipt.message := by
  cases action with
  | deliver index now labels =>
      simp only [Pool.Host.taken, messagePool, messageMove, loses, receipts, List.nil_append]
      cases received : installation.receives (.deliver index now labels) with
      | none => rfl
      | some receipt =>
          rw [receives, Option.filter_eq_some_iff, Option.map_eq_some_iff] at received
          rcases received with ⟨⟨message, found, rfl⟩, -⟩
          simp [Pool.Move.taken, found]
  | lose index => exact (List.append_nil _).symm
  | _ => rfl

theorem posted_writePool (action : Action) :
    (writePool fromStr toString).posted installation action =
      (installation.receipts action).flatMap (Receipt.rows toString) := by
  cases action <;> rfl

theorem taken_writePool (action : Action) :
    (writePool fromStr toString).taken installation action =
      installation.failsToStore action ++ installation.stores action := by
  cases action with
  | insertFailed index =>
      simp [Pool.Host.taken, writePool, writeMove, Pool.Move.taken, failsToStore, stores]
  | _ => rfl

theorem posted_tablePool (action : Action) :
    (tablePool fromStr toString).posted installation action = installation.stores action := by
  cases action <;> rfl

theorem taken_tablePool (action : Action) :
    (tablePool fromStr toString).taken installation action = installation.expires action := by
  cases action <;> rfl

/-- What the steps of a run put out, one after another. -/
def journal {Item : Type} (table : List K8sResourceEvent)
    (output : Installation → Action → List Item) (actions : List Action) : List Item :=
  Run.collect (step fromStr toString) output (start table) actions

/--
Every message that was sent is on its way, lost or received, every row that a received resource
event asks for is being written, failed or stored, and every stored row is in the table or has
expired: each as often as it was sent, asked for and stored.
-/
theorem accounted_run (table : List K8sResourceEvent) (actions : List Action) :
    let installation := (start table).run fromStr toString actions
    let received := journal fromStr toString table receipts actions
    let stored := journal fromStr toString table stores actions
    (installation.messages ++ (journal fromStr toString table loses actions ++
      received.map Receipt.message)).Perm
        (journal fromStr toString table (sends fromStr) actions) ∧
    (installation.writes ++ (journal fromStr toString table failsToStore actions ++ stored)).Perm
      (received.flatMap (Receipt.rows toString)) ∧
    (installation.table ++ journal fromStr toString table expires actions).Perm
      (table ++ stored) := by
  intro installation received stored
  have messages := (messagePool fromStr toString).perm_run (start table) actions
  have writes := (writePool fromStr toString).perm_run (start table) actions
  have rows := (tablePool fromStr toString).perm_run (start table) actions
  simp only [funext fun before => funext (posted_messagePool fromStr toString before),
    funext fun before => funext (taken_messagePool fromStr toString before)] at messages
  simp only [funext fun before => funext (posted_writePool fromStr toString before),
    funext fun before => funext (taken_writePool fromStr toString before),
    Run.collect_flatMap] at writes
  simp only [funext fun before => funext (posted_tablePool fromStr toString before),
    funext fun before => funext (taken_tablePool fromStr toString before)] at rows
  have lostOrReceived := @Run.collect_append_perm _ _ _ (step fromStr toString) loses
    (fun before action => (before.receipts action).map Receipt.message) (start table) actions
  have failedOrStored := @Run.collect_append_perm _ _ _ (step fromStr toString) failsToStore
    stores (start table) actions
  rw [Run.collect_map] at lostOrReceived
  exact ⟨(List.Perm.append_left _ lostOrReceived.symm).trans messages,
    (List.Perm.append_left _ failedOrStored.symm).trans writes, rows⟩

/-! ## The reports of a run -/

/-- The report about the item that an informer gets. -/
def got : Action → List Report
  | .watched watched => if installation.Watches watched then watched.report?.toList else []
  | _ => []

theorem filter_isResource_sends (action : Action) :
    (installation.sends fromStr action).filter Message.isResource =
      (installation.got action).map Message.ofReport := by
  cases action with
  | watched watched =>
      rw [sends, got]
      split
      · exact watched.filter_isResource_handle fromStr
      · rfl
  | routesListed cmList => exact Message.filter_isResource_request _ id
  | _ => rfl

theorem fits_of_mem_receipts {installation : Installation} {action : Action} {receipt : Receipt}
    (received : receipt ∈ installation.receipts action) : receipt.Fits := by
  cases action with
  | deliver index now labels =>
      have filtered := Option.mem_toList.mp received
      rw [receives, Option.filter_eq_some_iff] at filtered
      exact of_decide_eq_true filtered.2
  | _ => cases received

/--
Every item that an informer gets is reported once and nothing else is: its report is on its way,
lost or received. A received message asks for the row of its report or, without one, for none.
Every row asked for is being written, failed or stored, and every stored row is in the table or
has expired.
-/
theorem reported_run (table : List K8sResourceEvent) (actions : List Action) :
    let installation := (start table).run fromStr toString actions
    let reported := journal fromStr toString table got actions
    let received := journal fromStr toString table receipts actions
    let stored := journal fromStr toString table stores actions
    ((installation.messages ++ (journal fromStr toString table loses actions ++
      received.map Receipt.message)).filter Message.isResource).Perm
        (reported.map Message.ofReport) ∧
    (∀ receipt ∈ received,
      (receipt.message.isResource = false ∧ receipt.rows toString = []) ∨
        ∃ report ∈ reported, receipt.message = .ofReport report ∧
          receipt.labels.toFinmap = report.labels ∧
          receipt.rows toString = [report.row toString receipt.now receipt.labels]) ∧
    (installation.writes ++ (journal fromStr toString table failsToStore actions ++ stored)).Perm
      (received.flatMap (Receipt.rows toString)) ∧
    (installation.table ++ journal fromStr toString table expires actions).Perm
      (table ++ stored) := by
  intro installation reported received stored
  rcases accounted_run fromStr toString table actions with ⟨messages, writes, rows⟩
  have sent : (journal fromStr toString table (sends fromStr) actions).filter
      Message.isResource = reported.map Message.ofReport := by
    simp only [reported, journal, ← Run.collect_filter, ← Run.collect_map,
      filter_isResource_sends]
  have reports := messages.filter Message.isResource
  rw [sent] at reports
  refine ⟨reports, ?_, writes, rows⟩
  intro receipt receiptMem
  cases message_eq : receipt.message with
  | request request =>
      left
      refine ⟨rfl, ?_⟩
      rw [Receipt.rows, message_eq]
  | resource event =>
      right
      have onItsWay : Message.resource event ∈ (installation.messages ++
          (journal fromStr toString table loses actions ++
            received.map Receipt.message)).filter Message.isResource := by
        refine List.mem_filter.mpr ⟨?_, rfl⟩
        apply List.mem_append_right
        apply List.mem_append_right
        exact List.mem_map.mpr ⟨receipt, receiptMem, message_eq⟩
      rcases List.mem_map.mp (reports.mem_iff.mp onItsWay) with ⟨report, reportMem, carried⟩
      rcases (Run.mem_collect_iff receipts).mp receiptMem with ⟨before, action, after, -, put⟩
      have fits := fits_of_mem_receipts put
      have message_eq_report : receipt.message = .ofReport report := message_eq.trans carried.symm
      rw [Receipt.Fits, message_eq_report] at fits
      exact ⟨report, reportMem, carried.symm, fits, Receipt.rows_of_message_eq message_eq_report _⟩

/-! ## One kind of resource -/

/-- The action ends the agent. -/
def EndsAgent (installation : Installation) : Action → Prop
  | .watched watched =>
      installation.Watches watched ∧ watched.detached? = none ∧
        (watched.handle fromStr).isOk = false
  | .agentRestart => True
  | _ => False

instance : DecidablePred (installation.EndsAgent fromStr)
  | .watched _ => inferInstanceAs (Decidable (_ ∧ _ ∧ _))
  | .agentRestart => .isTrue trivial
  | .mapListed .. | .routesListed _ | .deliver .. | .lose _ | .traffic _ | .advance _
  | .coreRestart | .inserted _ | .insertFailed _ | .expire _ => .isFalse id

/-- The messages that are sent about a kind of resource. -/
def reports (kind : ResourceKind) (installation : Installation) : Action → List Message
  | .watched (.resource other item) =>
      if other = kind then installation.sends fromStr (.watched (.resource other item)) else []
  | _ => []

def itemOf? (kind : ResourceKind) : Action → Option (WatcherItem ObjectMeta)
  | .watched (.resource other item) => if other = kind then some item else none
  | _ => none

/-- What the informer of a kind gets. -/
def itemsOf (kind : ResourceKind) (actions : List Action) : List (WatcherItem ObjectMeta) :=
  actions.filterMap (itemOf? kind)

variable {fromStr toString installation}

theorem eq_resource_of_detached? {watched : Watched} {kind : ResourceKind}
    (detached : watched.detached? = some kind) : ∃ item, watched = .resource kind item := by
  cases watched with
  | resource other item =>
      simp only [Watched.detached?, Option.ite_none_right_eq_some, Option.some.injEq] at detached
      exact ⟨item, by rw [detached.2]⟩
  | _ => cases detached

/-- While the agent goes on, a detached informer ends with its first error. -/
theorem ended_step {kind : ResourceKind} {action : Action}
    (goesOn : ¬installation.EndsAgent fromStr action) :
    kind ∈ (installation.step fromStr toString action).ended ↔
      kind ∈ installation.ended ∨ ∃ item message, action = .watched (.resource kind item) ∧
        (GenericHandler.handler kind).handle kind.typeName item = .error message := by
  cases action with
  | watched watched =>
      simp only [step, informers, Action.watched.injEq]
      by_cases watches : installation.Watches watched
      · rw [if_pos watches]
        cases handled : watched.handle fromStr with
        | ok sent =>
            refine (or_iff_left ?_).symm
            rintro ⟨item, message, rfl, failed⟩
            rw [Watched.handle, failed] at handled
            cases handled
        | error message =>
            cases detached : watched.detached? with
            | none => exact absurd ⟨watches, detached, by rw [handled]; rfl⟩ goesOn
            | some other =>
                rcases eq_resource_of_detached? detached with ⟨item, rfl⟩
                simp only [Finset.mem_insert, Watched.resource.injEq]
                constructor
                · rintro (rfl | ended)
                  · exact Or.inr ⟨item, message, ⟨rfl, rfl⟩, handled⟩
                  · exact Or.inl ended
                · rintro (ended | ⟨_, _, ⟨rfl, -⟩, -⟩)
                  · exact Or.inr ended
                  · exact Or.inl rfl
      · rw [if_neg watches]
        refine (or_iff_left_of_imp ?_).symm
        rintro ⟨item, message, rfl, -⟩
        exact not_not.mp watches
  | agentRestart => exact absurd trivial goesOn
  | _ => simp [step, informers]

/-- An ended informer reports nothing more. -/
theorem collect_reports_of_ended {kind : ResourceKind} {life : List Action}
    (goesOn : Run.EveryStep (step fromStr toString)
      (fun before action => ¬before.EndsAgent fromStr action) installation life)
    (ended : kind ∈ installation.ended) :
    Run.collect (step fromStr toString) (reports fromStr kind) installation life = [] ∧
      kind ∈ (installation.run fromStr toString life).ended := by
  induction life generalizing installation with
  | nil => exact ⟨rfl, ended⟩
  | cons first rest ih =>
      have silent : installation.reports fromStr kind first = [] := by
        unfold reports
        split
        · rename_i other item
          rw [ite_eq_right_iff]
          rintro rfl
          exact if_neg (not_not_intro ended)
        · rfl
      rw [Run.collect, silent]
      exact ih goesOn.2 ((ended_step goesOn.1).mpr (Or.inl ended))

theorem reports_of_itemOf?_eq_none {kind : ResourceKind} {action : Action}
    (other : itemOf? kind action = none) : installation.reports fromStr kind action = [] := by
  unfold itemOf? at other
  split at other
  · rename_i found item
    exact if_neg fun same => by simp [same] at other
  · rename_i noResource
    unfold reports
    split
    · exact absurd rfl (noResource _ _)
    · rfl

theorem eq_watched_of_itemOf? {kind : ResourceKind} {action : Action}
    {item : WatcherItem ObjectMeta} (found : itemOf? kind action = some item) :
    action = .watched (.resource kind item) := by
  unfold itemOf? at found
  split at found
  · rw [Option.ite_none_right_eq_some, Option.some.injEq] at found
    rw [found.1, found.2]
  · cases found

/--
As long as the agent goes on, what it sends about a kind of resource is what the loop of the kind's
informer sends about its own items, up to the first error of its watch, whatever the other
informers, the resyncs, Core and the tasks do meanwhile.
-/
theorem reports_eq_start (kind : ResourceKind) {life : List Action}
    (goesOn : Run.EveryStep (step fromStr toString)
      (fun before action => ¬before.EndsAgent fromStr action) installation life)
    (watching : kind ∉ installation.ended) :
    let loop := (GenericHandler.handler kind).start kind.typeName (itemsOf kind life)
    Run.collect (step fromStr toString) (reports fromStr kind) installation life = loop.1 ∧
      (kind ∈ (installation.run fromStr toString life).ended ↔
        ∃ message, loop.2 = .error message) := by
  induction life generalizing installation with
  | nil => simp [Run.collect, itemsOf, EventHandler.start, run, watching]
  | cons first rest ih =>
      rcases goesOn with ⟨firstGoesOn, restGoesOn⟩
      have ended_iff : kind ∈ (installation.step fromStr toString first).ended ↔
          kind ∈ installation.ended ∨ ∃ item message, first = .watched (.resource kind item) ∧
            (GenericHandler.handler kind).handle kind.typeName item = .error message :=
        ended_step firstGoesOn
      simp only [run, List.foldl_cons, Run.collect]
      cases found : itemOf? kind first with
      | none =>
          have items : itemsOf kind (first :: rest) = itemsOf kind rest :=
            List.filterMap_cons_none found
          have stillWatching : kind ∉ (installation.step fromStr toString first).ended := by
            rw [ended_iff, not_or]
            refine ⟨watching, ?_⟩
            rintro ⟨item, message, rfl, -⟩
            simp [itemOf?] at found
          rw [items, reports_of_itemOf?_eq_none found, List.nil_append]
          exact ih restGoesOn stillWatching
      | some item =>
          obtain rfl := eq_watched_of_itemOf? found
          have items : itemsOf kind (.watched (.resource kind item) :: rest) =
              item :: itemsOf kind rest := List.filterMap_cons_some found
          have sent_eq : installation.reports fromStr kind (.watched (.resource kind item)) =
              match (GenericHandler.handler kind).handle kind.typeName item with
              | .ok sent => sent
              | .error _ => [] := (if_pos rfl).trans (if_pos watching)
          rw [items, EventHandler.start, sent_eq]
          cases handled : (GenericHandler.handler kind).handle kind.typeName item with
          | ok sent =>
              have stillWatching : kind ∉ (installation.step fromStr toString
                  (.watched (.resource kind item))).ended := by
                rw [ended_iff, not_or]
                refine ⟨watching, ?_⟩
                rintro ⟨_, message, same, failed⟩
                cases same
                rw [handled] at failed
                cases failed
              rcases ih restGoesOn stillWatching with ⟨later, ended⟩
              exact ⟨congrArg (sent ++ ·) later, ended⟩
          | error message =>
              have ended := ended_iff.mpr (Or.inr ⟨item, message, rfl, handled⟩)
              rcases collect_reports_of_ended restGoesOn ended with ⟨silent, stillEnded⟩
              exact ⟨silent, iff_of_true stillEnded ⟨message, rfl⟩⟩

/-- Two rollouts of a service; between them the watch of the rollouts fails. -/
def failedRollouts : List Action :=
  let rollout : ObjectMeta := { uid := none, name := some "api", ns := some "prod", labels := none }
  [.watched (.resource .rollout (.apply rollout)),
    .watched (.resource .deployment (.apply rollout)),
    .watched (.resource .rollout (.error "gone")), .deliver 0 60 ∅,
    .watched (.resource .rollout (.apply rollout)),
    .watched (.resource .deployment (.delete rollout))]

theorem reports_failedRollouts_eq_start :
    let loop := (GenericHandler.handler .rollout).start "Rollout" (itemsOf .rollout failedRollouts)
    Run.collect (step (fun _ => none) (fun _ => "\x7b\x7d")) (reports (fun _ => none) .rollout)
        (start []) failedRollouts = loop.1 ∧
      (.rollout ∈ ((start []).run (fun _ => none) (fun _ => "\x7b\x7d") failedRollouts).ended ↔
        ∃ message, loop.2 = .error message) :=
  reports_eq_start .rollout (by decide +kernel) (by decide)

end Installation

end Qubit.Agent
