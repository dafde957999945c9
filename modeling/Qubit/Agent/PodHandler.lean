import Qubit.Agent.ServiceRegistry
import Qubit.Core.Server

/-!
# Pod events

The handler of pod watch events and the messages it sends to Core. A message is a
write to Core's pod cache under the pod's IP: an apply inserts, a delete removes.
So the cache after any messages is what the last message about each IP left there.
-/

namespace Qubit.Agent

namespace ClusterAggregator

def sendPodApplied (podIp ns applicationName serviceName serviceType : String) :
    PodEventRequest where
  podIp := podIp
  ns := ns
  eventType := K8sEventType.applied.toNumber
  applicationName := applicationName
  serviceName := serviceName
  serviceType := serviceType

def sendPodDeleted (podIp : String) : PodEventRequest where
  podIp := podIp
  ns := ""
  eventType := K8sEventType.deleted.toNumber
  applicationName := ""
  serviceName := ""
  serviceType := ""

end ClusterAggregator

namespace PodHandler

def podIp (pod : Pod) : Option String :=
  pod.status.bind PodStatus.podIp

def podIpAndNamespace (pod : Pod) : Option (String × String) :=
  match podIp pod with
  | none => none
  | some ip => some (ip, pod.metadata.ns.getD "")

/-- The service name, else the first of three labels, else the name of the pod. -/
def resolveApplicationName (pod : Pod) (serviceName : String) : String :=
  if serviceName ≠ "" then serviceName
  else
    match pod.metadata.labels.bind (·.lookup "app.kubernetes.io/name") with
    | some name => name
    | none =>
        match pod.metadata.labels.bind (·.lookup "app.k8s.io/name") with
        | some name => name
        | none =>
            match pod.metadata.labels.bind (·.lookup "app") with
            | some name => name
            | none => pod.metadata.name.getD ""

/-- What the handler sends about an applied pod, while the registry is listed in an order. -/
def podInfo (services : AList fun _ : String => RegisteredService) (pod : Pod) : PodInfo :=
  let (serviceName, serviceType) :=
    (ServiceRegistry.findServiceForPod services pod).getD ("", "")
  { ns := pod.metadata.ns.getD ""
    applicationName := resolveApplicationName pod serviceName
    serviceName
    serviceType }

def onApply (services : AList fun _ : String => RegisteredService) (pod : Pod) :
    Option PodEventRequest :=
  match podIpAndNamespace pod with
  | none => none
  | some (ip, ns) =>
      let (serviceName, serviceType) :=
        (ServiceRegistry.findServiceForPod services pod).getD ("", "")
      let applicationName := resolveApplicationName pod serviceName
      some (ClusterAggregator.sendPodApplied ip ns applicationName serviceName serviceType)

def onDelete (pod : Pod) : Option PodEventRequest :=
  (podIp pod).map ClusterAggregator.sendPodDeleted

/-- Initial pods are left to `send_initial_pod_service_map`. -/
def onInitApply (_pod : Pod) : Option PodEventRequest :=
  none

end PodHandler

/-- A pod watch event; an apply is handled while the registry is listed in an order. -/
inductive WatchEvent where
  | apply (pod : Pod) (services : AList fun _ : String => RegisteredService)
  | delete (pod : Pod)

namespace WatchEvent

def pod : WatchEvent → Pod
  | .apply pod _ => pod
  | .delete pod => pod

/-- Which pod the event is about; a name can be used again by a later pod. -/
def identity (event : WatchEvent) : Option String :=
  event.pod.metadata.uid

def ip (event : WatchEvent) : Option String :=
  PodHandler.podIp event.pod

def message? : WatchEvent → Option PodEventRequest
  | .apply pod services => PodHandler.onApply services pod
  | .delete pod => PodHandler.onDelete pod

/-- What the event says about its pod: the metadata of a running pod, or that it is gone. -/
def content : WatchEvent → Option PodInfo
  | .apply pod services => some (PodHandler.podInfo services pod)
  | .delete _ => none

end WatchEvent

/-- The messages of a history, in the order in which the handlers sent them. -/
def messagesOf (history : List WatchEvent) : List PodEventRequest :=
  history.filterMap WatchEvent.message?

def deliver (state : CoreState) (messages : List PodEventRequest) : CoreState :=
  state.run (messages.map Request.sendPodEvent)

/-! ## Messages as writes -/

/-- The write that a message performs on the pod cache. -/
def writeOf (message : PodEventRequest) : Option (KeyedWrite String PodInfo) :=
  (K8sEventType.tryFrom message.eventType).map fun
    | .applied => { key := message.podIp, value := some message.podInfo }
    | .deleted => { key := message.podIp, value := none }

theorem podCache_deliver (state : CoreState) (messages : List PodEventRequest) :
    (deliver state messages).podCache =
      KeyedWrite.replay state.podCache (messages.filterMap writeOf) := by
  have writes : ∀ message : PodEventRequest,
      (Request.sendPodEvent message).operations.filterMap Operation.podWrite? =
        (writeOf message).toList := by
    intro message
    simp only [Request.operations, writeOf]
    cases K8sEventType.tryFrom message.eventType with
    | none => rfl
    | some eventType => cases eventType <;> rfl
  rw [deliver, CoreState.podCache_run, operationsOf, List.flatMap_map, List.filterMap_flatMap,
    List.filterMap_eq_flatMap_toList]
  simp only [writes]

/-- The write of the last message about an IP. -/
def lastWrite (ip : String) (messages : List PodEventRequest) :
    Option (KeyedWrite String PodInfo) :=
  KeyedWrite.last ip (messages.filterMap writeOf)

/-- Core's entry for an IP after a delivery is the content of the last message about it. -/
theorem lookup_deliver_empty (messages : List PodEventRequest) (ip : String) :
    (deliver CoreState.empty messages).podCache.lookup ip =
      (lastWrite ip messages).bind KeyedWrite.value := by
  rw [podCache_deliver, KeyedWrite.lookup_replay, lastWrite]
  cases KeyedWrite.last ip (messages.filterMap writeOf) with
  | none => rfl
  | some write => rfl

theorem key_of_lastWrite {ip : String} {messages : List PodEventRequest}
    {write : KeyedWrite String PodInfo} (last : lastWrite ip messages = some write) :
    write.key = ip :=
  KeyedWrite.key_of_last_eq_some last

namespace WatchEvent

/-- The write that an event amounts to: its content under the IP of its pod. -/
def write? (event : WatchEvent) : Option (KeyedWrite String PodInfo) :=
  event.ip.map fun ip => { key := ip, value := event.content }

theorem message?_bind_writeOf (event : WatchEvent) :
    event.message?.bind writeOf = event.write? := by
  cases event with
  | apply pod services =>
      simp only [write?, message?, PodHandler.onApply, PodHandler.podIpAndNamespace, ip,
        WatchEvent.pod]
      cases PodHandler.podIp pod with
      | none => rfl
      | some podIp => rfl
  | delete pod =>
      simp only [write?, message?, PodHandler.onDelete, ip, WatchEvent.pod]
      cases PodHandler.podIp pod with
      | none => rfl
      | some podIp => rfl

end WatchEvent

theorem filterMap_writeOf_messagesOf (history : List WatchEvent) :
    (messagesOf history).filterMap writeOf = history.filterMap WatchEvent.write? := by
  rw [messagesOf, List.filterMap_filterMap]
  congr 1
  funext event
  exact event.message?_bind_writeOf

theorem last_toList_write? (ip : String) (event : WatchEvent) :
    KeyedWrite.last ip event.write?.toList =
      if event.ip = some ip then some { key := ip, value := event.content } else none := by
  rw [WatchEvent.write?]
  cases event.ip with
  | none => rfl
  | some carried =>
      by_cases same : carried = ip
      · simp [KeyedWrite.last, same]
      · simp [KeyedWrite.last, same]

/-- The last write to an IP is that of the last event that carries the IP. -/
theorem last_write?_eq_some {history : List WatchEvent} {ip : String}
    {write : KeyedWrite String PodInfo} :
    KeyedWrite.last ip (history.filterMap WatchEvent.write?) = some write ↔
      ∃ before event after, history = before ++ event :: after ∧ event.ip = some ip ∧
        write = { key := ip, value := event.content } ∧
        ∀ later ∈ after, later.ip ≠ some ip := by
  rw [List.filterMap_eq_flatMap_toList, KeyedWrite.last_flatMap_eq_some_iff]
  simp only [last_toList_write?, Option.ite_none_right_eq_some, Option.some.injEq, and_assoc,
    eq_comm (a := write), ite_eq_right_iff, reduceCtorEq, imp_false]

end Qubit.Agent
