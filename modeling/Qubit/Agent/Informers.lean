import Qubit.Agent.ConfigMaps
import Qubit.Agent.EventHandler
import Qubit.Agent.RegistryContents
import Qubit.Agent.Resync

/-!
# Informers

An informer watches one kind of resource and hands each item of the watch to its handler,
which spawns the messages about it. The first error of the watch ends the informer. For the
resources whose definitions need not be installed that is all that happens; the end of any
other informer ends the agent.

Most kinds are reported by one handler, which reads nothing but their metadata.
-/

namespace Qubit

/-- A resource event as it is sent. Only its row keeps the labels. -/
structure ResourceEventMessage extends K8sResourceEventRequest where
  labels : Agent.Labels
deriving DecidableEq

namespace Agent

/-- What the agent sends to Core. -/
inductive Message where
  | request (request : Request)
  | resource (event : ResourceEventMessage)
deriving DecidableEq

/-- What `kube` yields for a watched resource. -/
inductive WatcherItem (K : Type) where
  | apply (obj : K)
  | delete (obj : K)
  | init
  | initApply (obj : K)
  | initDone
  | error (message : String)

/-- The messages that a handler spawns. The end of the initial items is only logged. -/
structure EventHandler (K : Type) where
  onApply : K → List Message
  onDelete : K → List Message
  onInitApply : K → List Message

namespace EventHandler

variable {K : Type} (typeName : String) (handler : EventHandler K)

def handle : WatcherItem K → Except String (List Message)
  | .apply obj => .ok (handler.onApply obj)
  | .delete obj => .ok (handler.onDelete obj)
  | .init => .ok []
  | .initApply obj => .ok (handler.onInitApply obj)
  | .initDone => .ok []
  | .error message => .error (typeName ++ " watcher error: " ++ message)

/-- Whatever is sent was spawned for an item. -/
theorem forall_sent {typeName : String} {handler : EventHandler K} {P : Message → Prop}
    {item : WatcherItem K} {sent : List Message}
    (handled : handler.handle typeName item = .ok sent)
    (applied : ∀ obj, item = .apply obj → ∀ message ∈ handler.onApply obj, P message)
    (deleted : ∀ obj, item = .delete obj → ∀ message ∈ handler.onDelete obj, P message)
    (listed : ∀ obj, item = .initApply obj → ∀ message ∈ handler.onInitApply obj, P message) :
    ∀ message ∈ sent, P message := by
  cases item with
  | apply obj =>
      obtain rfl := Except.ok.inj handled
      exact applied obj rfl
  | delete obj =>
      obtain rfl := Except.ok.inj handled
      exact deleted obj rfl
  | initApply obj =>
      obtain rfl := Except.ok.inj handled
      exact listed obj rfl
  | init | initDone =>
      obtain rfl := Except.ok.inj handled
      exact fun message member => absurd member List.not_mem_nil
  | error message => cases handled

/-- The loop of an informer over the items of its watch: what is sent, and how it ends. -/
def start : List (WatcherItem K) → List Message × Except String Unit
  | [] => ([], .ok ())
  | item :: rest =>
      match handler.handle typeName item with
      | .error message => ([], .error message)
      | .ok sent => (sent ++ (start rest).1, (start rest).2)

end EventHandler

/-! ## The handlers -/

namespace ClusterAggregator

def sendServiceApplied (name ns serviceType clusterIp : String) : ServiceEventRequest where
  name := name
  ns := ns
  serviceType := serviceType
  clusterIp := clusterIp
  eventType := K8sEventType.applied.toNumber

def sendServiceDeleted (name ns : String) : ServiceEventRequest where
  name := name
  ns := ns
  serviceType := ""
  clusterIp := ""
  eventType := K8sEventType.deleted.toNumber

def sendK8sResourceEvent (resourceType name ns : String) (eventType : K8sEventType)
    (labels : Labels) (resourceData : String) : ResourceEventMessage where
  resourceType := resourceType
  name := name
  ns := ns
  eventType := eventType.toNumber
  labels := labels
  resourceData := resourceData

end ClusterAggregator

/-- A service with the part of its spec that only the message about it carries. -/
structure WatchedService where
  service : Service
  clusterIp : Option String

def ServiceHandler.extractFields (svc : WatchedService) :
    Option (String × String × String × String) := do
  let name ← svc.service.metadata.name
  let spec ← svc.service.spec
  some (name, svc.service.metadata.ns.getD "", spec.type.getD "ClusterIP", svc.clusterIp.getD "")

/-- What is sent about services, beside the registry that the handler keeps. -/
def ServiceHandler.handler : EventHandler WatchedService :=
  let onApply svc := (ServiceHandler.extractFields svc).toList.map
    fun (name, ns, serviceType, clusterIp) =>
      .request (.sendServiceEvent
        (ClusterAggregator.sendServiceApplied name ns serviceType clusterIp))
  { onApply
    onDelete := fun svc =>
      [.request (.sendServiceEvent (ClusterAggregator.sendServiceDeleted
        (svc.service.metadata.name.getD "") (svc.service.metadata.ns.getD "")))]
    onInitApply := onApply }

/-- The registry after an item; the handler takes initial services like applied ones. -/
def ServiceHandler.register (services : ServiceRegistry) : WatcherItem WatchedService →
    ServiceRegistry
  | .apply svc | .initApply svc => ServiceHandler.onApply svc.service services
  | .delete svc => ServiceHandler.onDelete svc.service services
  | _ => services

/-- The handler of pods while the registry is listed in an order. -/
def PodHandler.handler (services : AList fun _ : String => RegisteredService) :
    EventHandler Pod where
  onApply pod := (PodHandler.onApply services pod).toList.map fun req =>
    .request (.sendPodEvent req)
  onDelete pod := (PodHandler.onDelete pod).toList.map fun req => .request (.sendPodEvent req)
  onInitApply pod := (PodHandler.onInitApply pod).toList.map fun req =>
    .request (.sendPodEvent req)

def ConfigMapHandler.handler (fromStr : String → Option Yaml) : EventHandler ConfigMap where
  onApply cm := (ConfigMapHandler.onApply fromStr cm).map .request
  onDelete cm := (ConfigMapHandler.onDelete cm).map .request
  onInitApply cm := (ConfigMapHandler.onApply fromStr cm).map .request

/-- A Kubernetes event with its metadata. -/
structure WatchedEvent where
  metadata : ObjectMeta
  event : Event

def K8sEventHandler.handler : EventHandler WatchedEvent :=
  let onApply watched :=
    [.resource (ClusterAggregator.sendK8sResourceEvent "Event" (watched.metadata.name.getD "")
      (watched.metadata.ns.getD "") .applied (watched.metadata.labels.getD ∅)
      (buildEventData watched.event))]
  { onApply
    -- events come and go; that one is gone is not worth reporting
    onDelete := fun _ => []
    onInitApply := onApply }

/-- The kinds of resources that are reported with their metadata only. -/
inductive ResourceKind where
  | deployment
  | replicaSet
  | ingress
  | hpa
  | node
  | rollout
  | externalSecret
  | httpProxy
  | virtualService
deriving DecidableEq, Repr

namespace ResourceKind

def resourceType : ResourceKind → String
  | .deployment => "Deployment"
  | .replicaSet => "ReplicaSet"
  | .ingress => "Ingress"
  | .hpa => "HPA"
  | .node => "Node"
  | .rollout => "Rollout"
  | .externalSecret => "ExternalSecret"
  | .httpProxy => "HTTPProxy"
  | .virtualService => "VirtualService"

/-- The name in the error of the informer. -/
def typeName : ResourceKind → String
  | .hpa => "Hpa"
  | .httpProxy => "HttpProxy"
  | kind => kind.resourceType

/-- The informer is detached: its definition need not be installed, and its end is ignored. -/
def isDetached : ResourceKind → Bool
  | .rollout | .externalSecret | .httpProxy | .virtualService => true
  | _ => false

end ResourceKind

def GenericHandler.report (kind : ResourceKind) (eventType : K8sEventType) (obj : ObjectMeta) :
    Message :=
  .resource (ClusterAggregator.sendK8sResourceEvent kind.resourceType (obj.name.getD "")
    (obj.ns.getD "") eventType (obj.labels.getD ∅) "")

def GenericHandler.handler (kind : ResourceKind) : EventHandler ObjectMeta where
  onApply obj := [GenericHandler.report kind .applied obj]
  onDelete obj := [GenericHandler.report kind .deleted obj]
  onInitApply obj := [GenericHandler.report kind .applied obj]

end Agent

end Qubit
