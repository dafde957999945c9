import Qubit.Core.Aggregator
import Qubit.Lib.KeyedWrites

/-!
# Core's ingestion service

The RPCs of `EventIngestion` as functions of the shared state, following
`core/src/server/grpc.rs`, and the states that sequences of them reach. Each RPC is
a list of elementary operations, so that what a run preserves is proved once for
each operation. An eBPF event is recorded by a task of its own; here the task has
ended before the next request arrives, and the interleavings of tasks are the
subject of a separate model.
-/

namespace Qubit

inductive K8sEventType where
  | applied
  | deleted
deriving DecidableEq, Repr

def K8sEventType.tryFrom (number : Int) : Option K8sEventType :=
  if number = 0 then some .applied else if number = 1 then some .deleted else none

def K8sEventType.toNumber : K8sEventType → Int
  | .applied => 0
  | .deleted => 1

structure PodEventRequest where
  podIp : String
  ns : String
  eventType : Int
  applicationName : String
  serviceName : String
  serviceType : String
deriving DecidableEq, Repr

structure ServiceEventRequest where
  name : String
  ns : String
  serviceType : String
  clusterIp : String
  eventType : Int
deriving DecidableEq, Repr

structure ConfigMapEventRequest where
  name : String
  ns : String
  eventType : Int
deriving DecidableEq, Repr

structure ServicePodEntry where
  serviceName : String
  ns : String
  serviceType : String
  podIps : List String
  applicationName : String
deriving DecidableEq, Repr

structure ServicePodMapRequest where
  entries : List ServicePodEntry
deriving DecidableEq, Repr

structure K8sResourceEventRequest where
  resourceType : String
  name : String
  ns : String
  eventType : Int
  resourceData : String
deriving DecidableEq, Repr

structure EnvoyRouteEntry where
  domain : String
  serviceName : String
  ns : String
deriving DecidableEq, Repr

structure EnvoyRoutesRequest where
  entries : List EnvoyRouteEntry
deriving DecidableEq, Repr

/-- A successful answer; every RPC answers `success = true` with a message. -/
structure Response where
  success : Bool
  message : String
deriving DecidableEq, Repr

inductive Status where
  | invalidArgument (message : String)
deriving DecidableEq, Repr

/-- A request of the ingestion service. A resource event carries the second it is received. -/
inductive Request where
  | sendEbpfNetworkEvent (input : EbpfNetworkEventInput)
  | sendPodEvent (req : PodEventRequest)
  | sendServiceEvent (req : ServiceEventRequest)
  | sendConfigMapEvent (req : ConfigMapEventRequest)
  | sendServicePodMap (req : ServicePodMapRequest)
  | sendK8sResourceEvent (now : Nat) (req : K8sResourceEventRequest)
  | sendEnvoyRoutes (req : EnvoyRoutesRequest)
deriving DecidableEq, Repr

namespace CoreState

def sendEbpfNetworkEvent (input : EbpfNetworkEventInput) (state : CoreState) :
    CoreState × Except Status Response :=
  ((state.recordEbpfEvent input).1, .ok { success := true, message := "Event received" })

def sendPodEvent (req : PodEventRequest) (state : CoreState) :
    CoreState × Except Status Response :=
  match K8sEventType.tryFrom req.eventType with
  | some .applied =>
      (state.recordPodApplied req.podIp req.ns req.applicationName req.serviceName
        req.serviceType, .ok { success := true, message := "ok" })
  | some .deleted =>
      (state.recordPodDeleted req.podIp, .ok { success := true, message := "ok" })
  | none => (state, .error (.invalidArgument "unknown event type"))

def sendServiceEvent (req : ServiceEventRequest) (state : CoreState) :
    CoreState × Except Status Response :=
  match K8sEventType.tryFrom req.eventType with
  | some .applied =>
      (state.recordServiceApplied req.name req.ns req.serviceType req.clusterIp,
        .ok { success := true, message := "ok" })
  | some .deleted =>
      (state.recordServiceDeleted req.name req.ns, .ok { success := true, message := "ok" })
  | none => (state, .error (.invalidArgument "unknown event type"))

/-- ConfigMap events only carry metadata, which is logged; the routes arrive separately. -/
def sendConfigMapEvent (req : ConfigMapEventRequest) (state : CoreState) :
    CoreState × Except Status Response :=
  match K8sEventType.tryFrom req.eventType with
  | some _ => (state, .ok { success := true, message := "ok" })
  | none => (state, .error (.invalidArgument "unknown event type"))

/-- Every IP of every entry is a pod of the entry's service. -/
def sendServicePodMap (req : ServicePodMapRequest) (state : CoreState) :
    CoreState × Except Status Response :=
  (req.entries.foldl (fun state entry =>
      entry.podIps.foldl (fun state podIp =>
        state.recordPodApplied podIp entry.ns entry.applicationName entry.serviceName
          entry.serviceType) state) state,
    .ok { success := true,
          message := "Applied " ++ toString req.entries.length ++ " service entries" })

def sendK8sResourceEvent (now : Nat) (req : K8sResourceEventRequest) (state : CoreState) :
    CoreState × Except Status Response :=
  match K8sEventType.tryFrom req.eventType with
  | some .applied =>
      (state.recordK8sResourceEvent now req.resourceType req.name req.ns "Applied"
        req.resourceData, .ok { success := true, message := "ok" })
  | some .deleted =>
      (state.recordK8sResourceEvent now req.resourceType req.name req.ns "Deleted"
        req.resourceData, .ok { success := true, message := "ok" })
  | none => (state, .error (.invalidArgument "unknown event type"))

def sendEnvoyRoutes (req : EnvoyRoutesRequest) (state : CoreState) :
    CoreState × Except Status Response :=
  (req.entries.foldl (fun state entry =>
      state.insertEnvoyRoute entry.domain entry.serviceName entry.ns) state,
    .ok { success := true, message := "Applied " ++ toString req.entries.length ++ " entries" })

def handle (state : CoreState) : Request → CoreState × Except Status Response
  | .sendEbpfNetworkEvent input => state.sendEbpfNetworkEvent input
  | .sendPodEvent req => state.sendPodEvent req
  | .sendServiceEvent req => state.sendServiceEvent req
  | .sendConfigMapEvent req => state.sendConfigMapEvent req
  | .sendServicePodMap req => state.sendServicePodMap req
  | .sendK8sResourceEvent now req => state.sendK8sResourceEvent now req
  | .sendEnvoyRoutes req => state.sendEnvoyRoutes req

/-- The state after requests handled one after another. -/
def run (state : CoreState) (requests : List Request) : CoreState :=
  requests.foldl (fun state request => (state.handle request).1) state

end CoreState

/-! ## Requests as elementary operations -/

/-- A call of one of the aggregators. -/
inductive Operation where
  | ebpfEvent (input : EbpfNetworkEventInput)
  | podApplied (podIp : String) (info : PodInfo)
  | podDeleted (podIp : String)
  | serviceApplied (name : String) (info : ServiceInfo)
  | serviceDeleted (name ns : String)
  | resourceEvent (now : Nat) (resourceType name ns eventType resourceData : String)
  | envoyRoute (domain serviceName ns : String)
deriving DecidableEq, Repr

def CoreState.apply (state : CoreState) : Operation → CoreState
  | .ebpfEvent input => (state.recordEbpfEvent input).1
  | .podApplied podIp info =>
      state.recordPodApplied podIp info.ns info.applicationName info.serviceName info.serviceType
  | .podDeleted podIp => state.recordPodDeleted podIp
  | .serviceApplied name info =>
      state.recordServiceApplied name info.ns info.serviceType info.clusterIp
  | .serviceDeleted name ns => state.recordServiceDeleted name ns
  | .resourceEvent now resourceType name ns eventType resourceData =>
      state.recordK8sResourceEvent now resourceType name ns eventType resourceData
  | .envoyRoute domain serviceName ns => state.insertEnvoyRoute domain serviceName ns

/-- The cached metadata that an entry of a pod map announces for its IPs. -/
def ServicePodEntry.podInfo (entry : ServicePodEntry) : PodInfo where
  ns := entry.ns
  applicationName := entry.applicationName
  serviceName := entry.serviceName
  serviceType := entry.serviceType

def PodEventRequest.podInfo (req : PodEventRequest) : PodInfo where
  ns := req.ns
  applicationName := req.applicationName
  serviceName := req.serviceName
  serviceType := req.serviceType

/-- The operations a request performs, in order. -/
def Request.operations : Request → List Operation
  | .sendEbpfNetworkEvent input => [.ebpfEvent input]
  | .sendPodEvent req =>
      match K8sEventType.tryFrom req.eventType with
      | some .applied => [.podApplied req.podIp req.podInfo]
      | some .deleted => [.podDeleted req.podIp]
      | none => []
  | .sendServiceEvent req =>
      match K8sEventType.tryFrom req.eventType with
      | some .applied =>
          [.serviceApplied req.name
            { ns := req.ns, serviceType := req.serviceType, clusterIp := req.clusterIp }]
      | some .deleted => [.serviceDeleted req.name req.ns]
      | none => []
  | .sendConfigMapEvent _ => []
  | .sendServicePodMap req =>
      req.entries.flatMap fun entry =>
        entry.podIps.map fun podIp => .podApplied podIp entry.podInfo
  | .sendK8sResourceEvent now req =>
      match K8sEventType.tryFrom req.eventType with
      | some .applied =>
          [.resourceEvent now req.resourceType req.name req.ns "Applied" req.resourceData]
      | some .deleted =>
          [.resourceEvent now req.resourceType req.name req.ns "Deleted" req.resourceData]
      | none => []
  | .sendEnvoyRoutes req =>
      req.entries.map fun entry => .envoyRoute entry.domain entry.serviceName entry.ns

def Operation.podWrite? : Operation → Option (KeyedWrite String PodInfo)
  | .podApplied podIp info => some { key := podIp, value := some info }
  | .podDeleted podIp => some { key := podIp, value := none }
  | _ => none

def Operation.routeWrite? : Operation → Option (KeyedWrite String (String × String))
  | .envoyRoute domain serviceName ns => some { key := domain, value := some (serviceName, ns) }
  | _ => none

def operationsOf (requests : List Request) : List Operation :=
  requests.flatMap Request.operations

/-! ## Which requests perform an operation -/

namespace Request

/-- What a request is when it performs an operation. -/
def Performs (request : Request) : Operation → Prop
  | .ebpfEvent input => request = .sendEbpfNetworkEvent input
  | .podApplied podIp info =>
      (∃ req, request = .sendPodEvent req ∧
        K8sEventType.tryFrom req.eventType = some .applied ∧ req.podIp = podIp ∧
        req.podInfo = info) ∨
      ∃ req, request = .sendServicePodMap req ∧
        ∃ entry ∈ req.entries, podIp ∈ entry.podIps ∧ entry.podInfo = info
  | .podDeleted podIp =>
      ∃ req, request = .sendPodEvent req ∧
        K8sEventType.tryFrom req.eventType = some .deleted ∧ req.podIp = podIp
  | .serviceApplied name info =>
      ∃ req, request = .sendServiceEvent req ∧
        K8sEventType.tryFrom req.eventType = some .applied ∧ req.name = name ∧
        { ns := req.ns, serviceType := req.serviceType, clusterIp := req.clusterIp } = info
  | .serviceDeleted name ns =>
      ∃ req, request = .sendServiceEvent req ∧
        K8sEventType.tryFrom req.eventType = some .deleted ∧ req.name = name ∧ req.ns = ns
  | .resourceEvent now resourceType name ns eventType resourceData =>
      ∃ req, request = .sendK8sResourceEvent now req ∧
        req.resourceType = resourceType ∧ req.name = name ∧ req.ns = ns ∧
        ((K8sEventType.tryFrom req.eventType = some .applied ∧ eventType = "Applied") ∨
          (K8sEventType.tryFrom req.eventType = some .deleted ∧ eventType = "Deleted")) ∧
        req.resourceData = resourceData
  | .envoyRoute domain serviceName ns =>
      ∃ req, request = .sendEnvoyRoutes req ∧ ⟨domain, serviceName, ns⟩ ∈ req.entries

theorem mem_operations_iff {request : Request} {operation : Operation} :
    operation ∈ request.operations ↔ request.Performs operation := by
  cases request with
  | sendEbpfNetworkEvent input => cases operation <;> simp [operations, Performs, eq_comm]
  | sendPodEvent req =>
      rcases kind : K8sEventType.tryFrom req.eventType with _ | (_ | _) <;>
        cases operation <;> simp [operations, Performs, kind, eq_comm]
  | sendServiceEvent req =>
      rcases kind : K8sEventType.tryFrom req.eventType with _ | (_ | _) <;>
        cases operation <;> simp [operations, Performs, kind, eq_comm]
  | sendConfigMapEvent req => cases operation <;> simp [operations, Performs]
  | sendServicePodMap req => cases operation <;> simp [operations, Performs]
  | sendK8sResourceEvent now req =>
      rcases kind : K8sEventType.tryFrom req.eventType with _ | (_ | _) <;>
        cases operation <;> simp [operations, Performs, kind, eq_comm]
  | sendEnvoyRoutes req =>
      cases operation with
      | envoyRoute domain serviceName ns =>
          simp only [operations, Performs, List.mem_map, Operation.envoyRoute.injEq,
            sendEnvoyRoutes.injEq, exists_eq_left']
          constructor
          · rintro ⟨entry, entryMem, rfl, rfl, rfl⟩
            exact entryMem
          · intro entryMem
            exact ⟨_, entryMem, rfl, rfl, rfl⟩
      | _ => simp [operations, Performs]

end Request

namespace CoreState

theorem handle_fst (state : CoreState) (request : Request) :
    (state.handle request).1 = request.operations.foldl apply state := by
  cases request with
  | sendEbpfNetworkEvent input => rfl
  | sendPodEvent req =>
      simp only [handle, sendPodEvent, Request.operations]
      rcases K8sEventType.tryFrom req.eventType with _ | (_ | _) <;> rfl
  | sendServiceEvent req =>
      simp only [handle, sendServiceEvent, Request.operations]
      rcases K8sEventType.tryFrom req.eventType with _ | (_ | _) <;> rfl
  | sendConfigMapEvent req =>
      simp only [handle, sendConfigMapEvent, Request.operations]
      cases K8sEventType.tryFrom req.eventType <;> rfl
  | sendServicePodMap req =>
      simp only [handle, sendServicePodMap, Request.operations, List.foldl_flatMap,
        List.foldl_map]
      rfl
  | sendK8sResourceEvent now req =>
      simp only [handle, sendK8sResourceEvent, Request.operations]
      rcases K8sEventType.tryFrom req.eventType with _ | (_ | _) <;> rfl
  | sendEnvoyRoutes req =>
      simp only [handle, sendEnvoyRoutes, Request.operations, List.foldl_map]
      rfl

theorem run_eq_foldl (state : CoreState) (requests : List Request) :
    state.run requests = (operationsOf requests).foldl apply state := by
  simp only [run, handle_fst, operationsOf, List.foldl_flatMap]

/-- A request that is refused leaves the state as it was. -/
theorem handle_of_error {state state' : CoreState} {request : Request} {status : Status}
    (refused : state.handle request = (state', .error status)) : state' = state := by
  cases request with
  | sendEbpfNetworkEvent input => simp [handle, sendEbpfNetworkEvent] at refused
  | sendPodEvent req =>
      simp only [handle, sendPodEvent] at refused
      split at refused <;> simp_all
  | sendServiceEvent req =>
      simp only [handle, sendServiceEvent] at refused
      split at refused <;> simp_all
  | sendConfigMapEvent req =>
      simp only [handle, sendConfigMapEvent] at refused
      split at refused <;> simp_all
  | sendServicePodMap req => simp [handle, sendServicePodMap] at refused
  | sendK8sResourceEvent now req =>
      simp only [handle, sendK8sResourceEvent] at refused
      split at refused <;> simp_all
  | sendEnvoyRoutes req => simp [handle, sendEnvoyRoutes] at refused

/-! ## What the operations do to the pod cache -/

@[simp]
theorem podCache_apply_podApplied (podIp : String) (info : PodInfo) (state : CoreState) :
    (state.apply (.podApplied podIp info)).podCache = state.podCache.insert podIp info := by
  simp only [apply, recordPodApplied]
  split <;> rfl

theorem podCache_apply (state : CoreState) (operation : Operation) :
    (state.apply operation).podCache =
      operation.podWrite?.elim state.podCache (KeyedWrite.perform state.podCache) := by
  cases operation with
  | ebpfEvent input =>
      simp only [apply, recordEbpfEvent_fst, Operation.podWrite?, Option.elim_none]
      cases state.observed? input with
      | none => rfl
      | some src =>
          dsimp only
          split <;> rfl
  | podApplied podIp info => exact podCache_apply_podApplied podIp info state
  | podDeleted podIp => rfl
  | serviceApplied name info => rfl
  | serviceDeleted name ns => rfl
  | resourceEvent now resourceType name ns eventType resourceData => rfl
  | envoyRoute domain serviceName ns => rfl

theorem podCache_foldl_apply (state : CoreState) (operations : List Operation) :
    (operations.foldl apply state).podCache =
      KeyedWrite.replay state.podCache (operations.filterMap Operation.podWrite?) :=
  KeyedWrite.foldl_eq_replay podCache podCache_apply state operations

theorem podCache_run (state : CoreState) (requests : List Request) :
    (state.run requests).podCache =
      KeyedWrite.replay state.podCache
        ((operationsOf requests).filterMap Operation.podWrite?) := by
  rw [run_eq_foldl, podCache_foldl_apply]

/-! ## What the operations do to the Envoy cache -/

@[simp]
theorem envoyCache_apply_podApplied (podIp : String) (info : PodInfo) (state : CoreState) :
    (state.apply (.podApplied podIp info)).envoyCache = state.envoyCache := by
  simp only [apply, recordPodApplied]
  split <;> rfl

theorem envoyCache_apply (state : CoreState) (operation : Operation) :
    (state.apply operation).envoyCache =
      operation.routeWrite?.elim state.envoyCache (KeyedWrite.perform state.envoyCache) := by
  cases operation with
  | ebpfEvent input =>
      simp only [apply, recordEbpfEvent_fst, Operation.routeWrite?, Option.elim_none]
      cases state.observed? input with
      | none => rfl
      | some src =>
          dsimp only
          split <;> rfl
  | podApplied podIp info => exact envoyCache_apply_podApplied podIp info state
  | podDeleted podIp => rfl
  | serviceApplied name info => rfl
  | serviceDeleted name ns => rfl
  | resourceEvent now resourceType name ns eventType resourceData => rfl
  | envoyRoute domain serviceName ns => rfl

theorem envoyCache_foldl_apply (state : CoreState) (operations : List Operation) :
    (operations.foldl apply state).envoyCache =
      KeyedWrite.replay state.envoyCache (operations.filterMap Operation.routeWrite?) :=
  KeyedWrite.foldl_eq_replay envoyCache envoyCache_apply state operations

/-! ## What the operations do to the topology -/

@[simp]
theorem topology_apply_podApplied (podIp : String) (info : PodInfo) (state : CoreState) :
    (state.apply (.podApplied podIp info)).topology =
      if info.applicationName ≠ "" then
        state.topology.resolveUnknownNode podIp info.applicationName info.ns
      else state.topology := by
  simp only [apply, recordPodApplied]
  split <;> rfl

@[simp]
theorem seenEdges_apply_podApplied (podIp : String) (info : PodInfo) (state : CoreState) :
    (state.apply (.podApplied podIp info)).seenEdges = state.seenEdges := by
  simp only [apply, recordPodApplied]
  split <;> rfl

/-- What one operation does to the calls observed so far. -/
def observeOperation (state : CoreState) (calls : CallGraph) : Operation → CallGraph
  | .ebpfEvent input =>
      match state.observed? input with
      | none => calls
      | some src =>
          if state.eventKey input src ∈ state.seenEdges then calls
          else calls.observe (state.eventFlow input src)
  | .podApplied podIp info =>
      if info.applicationName ≠ "" then calls.rename (NodeId.unresolved podIp) info.node
      else calls
  | _ => calls

/-- The step lemma: an operation on the state is simulated by the call graph. -/
theorem represents_apply {state : CoreState} {calls : CallGraph}
    (represents : state.topology.Represents calls) (operation : Operation) :
    (state.apply operation).topology.Represents (state.observeOperation calls operation) := by
  cases operation with
  | ebpfEvent input =>
      simp only [apply, recordEbpfEvent_fst, observeOperation]
      cases state.observed? input with
      | none => exact represents
      | some src =>
          dsimp only
          split
          · exact represents
          · exact represents.observe (state.eventFlow input src) _ _
  | podApplied podIp info =>
      simp only [topology_apply_podApplied, observeOperation]
      split
      · exact represents.resolve podIp info.applicationName info.ns
      · exact represents
  | podDeleted podIp => exact represents
  | serviceApplied name info => exact represents
  | serviceDeleted name ns => exact represents
  | resourceEvent now resourceType name ns eventType resourceData =>
      exact represents.addK8sEvent _ _
  | envoyRoute domain serviceName ns => exact represents

/-- The topology represents some call graph. -/
def IsView (state : CoreState) : Prop :=
  ∃ calls, state.topology.Represents calls

theorem isView_empty : empty.IsView :=
  ⟨0, Topology.represents_new⟩

theorem IsView.apply {state : CoreState} (view : state.IsView) (operation : Operation) :
    (state.apply operation).IsView := by
  rcases view with ⟨calls, represents⟩
  exact ⟨_, represents_apply represents operation⟩

/-- The run lemma: after any operations the topology is a view of the calls observed. -/
theorem IsView.foldl {state : CoreState} (view : state.IsView) (operations : List Operation) :
    (operations.foldl CoreState.apply state).IsView :=
  List.foldlRecOn operations CoreState.apply view fun _ view operation _ => view.apply operation

theorem isView_run (requests : List Request) : (empty.run requests).IsView := by
  rw [run_eq_foldl]
  exact isView_empty.foldl _

end CoreState

end Qubit
