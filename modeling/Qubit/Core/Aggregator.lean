import Mathlib.Data.Finset.Insert
import Qubit.Core.CallGraph
import Qubit.Lib.Ipv4
import Qubit.Lib.Text

/-!
# Core's aggregators

The ingest state of Core and the functions of `core/src/aggregator` that change
it: eBPF events become flows between resolved services, and the Kubernetes side
maintains the caches by which they are resolved. The caches are plain maps, and a
lock-protected section is one assignment; no section can fail while it holds a
lock, so no lock is ever poisoned.

Of an eBPF event the fields that no decision reads (the timestamp and the two
ports) are left out, and of a resource event the labels, which only go to the
database.
-/

namespace Qubit

/-- Cached metadata for a running pod, keyed by pod IP. -/
structure PodInfo where
  ns : String
  applicationName : String
  serviceName : String
  serviceType : String
deriving DecidableEq, Repr

def PodInfo.isNamed (info : PodInfo) : Bool :=
  info.applicationName ≠ ""

def PodInfo.node (info : PodInfo) : NodeId where
  applicationName := info.applicationName
  ns := info.ns

/-- Cached metadata for a Kubernetes service, keyed by `namespace/name`. -/
structure ServiceInfo where
  ns : String
  serviceType : String
  clusterIp : String
deriving DecidableEq, Repr

/-- An event from the eBPF loader, with the IPs as they stand in the network packet. -/
structure EbpfNetworkEventInput where
  srcIp : UInt32
  dstIp : UInt32
  method : String
  path : String
  host : String
deriving DecidableEq, Repr

namespace EbpfNetworkEventInput

/-- `Ipv4Addr::from(u32::from_be(ip))` on a little-endian machine, as text. -/
def ipStr (ip : UInt32) : String :=
  (Ipv4.Addr.ofUInt32 (Ipv4.swapBytes ip)).toText

def srcIpStr (input : EbpfNetworkEventInput) : String :=
  ipStr input.srcIp

def dstIpStr (input : EbpfNetworkEventInput) : String :=
  ipStr input.dstIp

/-- The Host header without its port. -/
def bareHost (input : EbpfNetworkEventInput) : String :=
  Text.upTo ':' input.host

theorem ipStr_injective : Function.Injective ipStr :=
  Ipv4.toText_injective.comp (Ipv4.ofUInt32_injective.comp Ipv4.swapBytes_injective)

end EbpfNetworkEventInput

/-- The shared state of the two aggregators and the Envoy cache. -/
structure CoreState where
  podCache : Finmap fun _ : String => PodInfo
  serviceCache : Finmap fun _ : String => ServiceInfo
  /-- Virtual-host domain to `(service_name, namespace)`. -/
  envoyCache : Finmap fun _ : String => String × String
  seenEdges : Finset String
  topology : Topology

def CoreState.empty : CoreState where
  podCache := ∅
  serviceCache := ∅
  envoyCache := ∅
  seenEdges := ∅
  topology := Topology.new

/-- Guess `(application_name, namespace)` from a host name. -/
def parseK8sHost (host : String) : String × String :=
  let host := Text.upTo ':' host
  -- an IP address, or a single label
  if (Ipv4.parse host).isSome then (host, "unknown")
  else if '.' ∉ host.toList then (host, "unknown")
  else if Text.Contains ".svc" host then
    match Text.splitn 3 '.' host.toList with
    | svc :: ns :: _ => (String.ofList svc, String.ofList ns)
    | _ => (host, "external")
  else (host, "external")

/-- A host that is a dotted IP address stays the name of an unresolved node. -/
theorem parseK8sHost_ipStr (ip : UInt32) :
    parseK8sHost (EbpfNetworkEventInput.ipStr ip) =
      (EbpfNetworkEventInput.ipStr ip, "unknown") := by
  have bare : Text.upTo ':' (EbpfNetworkEventInput.ipStr ip) = EbpfNetworkEventInput.ipStr ip :=
    Text.upTo_eq_self (Ipv4.colon_notMem_toText _)
  have parsed : (Ipv4.parse (EbpfNetworkEventInput.ipStr ip)).isSome := by
    rw [EbpfNetworkEventInput.ipStr, Ipv4.parse_toText]
    rfl
  simp [parseK8sHost, bare, parsed]

/-- The destination of an event whose host Envoy does not know: its pod, else its host name. -/
def destinationFromPod (host : String) (dstPodInfo : Option PodInfo) : String × String :=
  match dstPodInfo.filter PodInfo.isNamed with
  | some info => (info.applicationName, info.ns)
  | none => parseK8sHost host

/-- The service name of the destination pod, falling back to the application name. -/
def destinationService (dstPodInfo : Option PodInfo) (dstApplication : String) : String :=
  match dstPodInfo.filter (fun info => info.serviceName ≠ "") with
  | some info => info.serviceName
  | none => dstApplication

@[simp]
theorem destinationFromPod_none (host : String) :
    destinationFromPod host none = parseK8sHost host :=
  rfl

theorem destinationFromPod_some (host : String) {info : PodInfo}
    (named : info.applicationName ≠ "") :
    destinationFromPod host (some info) = (info.applicationName, info.ns) := by
  simp [destinationFromPod, PodInfo.isNamed, Option.filter_some, named]

theorem destinationService_some (info : PodInfo) (dstApplication : String) :
    destinationService (some info) dstApplication =
      if info.serviceName ≠ "" then info.serviceName else dstApplication := by
  by_cases service : info.serviceName = ""
  · simp [destinationService, Option.filter_some, service]
  · simp [destinationService, Option.filter_some, service]

/-- The text under which an edge is remembered as already seen. -/
def edgeKey (srcNamespace srcService dstNamespace dstService : String) : String :=
  srcNamespace ++ "/" ++ srcService ++ " -> " ++ dstNamespace ++ "/" ++ dstService

/-- The section of `record_ebpf_event` under the topology lock: both nodes, then the flow. -/
def Topology.recordFlow (flow : Flow) (srcIp dstIp : String) (topology : Topology) : Topology :=
  ((topology.addNode flow.sourceNode { ip := srcIp }).addNode flow.destinationNode
    { ip := dstIp }).addFlow flow

namespace CoreState

/-- Turn an eBPF event into a flow of the topology, once for each edge key. -/
def recordEbpfEvent (input : EbpfNetworkEventInput) (state : CoreState) : CoreState × String :=
  if Text.Contains "/health" input.path then (state, "Skipping health check event!")
  else
    let srcIp := input.srcIpStr
    let dstIp := input.dstIpStr
    match (state.podCache.lookup srcIp).filter PodInfo.isNamed with
    | none => (state, "unresolved source — waiting for pod event")
    | some src =>
        let host := input.bareHost
        let (dstApplication, dstNamespace) :=
          match state.envoyCache.lookup host with
          | some (app, ns) => (app, ns)
          | none => destinationFromPod host (state.podCache.lookup dstIp)
        let dstService := destinationService (state.podCache.lookup dstIp) dstApplication
        let key := edgeKey src.ns src.serviceName dstNamespace dstService
        if key ∈ state.seenEdges then (state, "node already exists!")
        else
          let sourceNode : NodeId := { applicationName := src.applicationName, ns := src.ns }
          let destinationNode : NodeId := { applicationName := dstApplication, ns := dstNamespace }
          let flow : Flow :=
            { sourceNode, destinationNode, path := input.path, method := input.method }
          ({ state with
              seenEdges := insert key state.seenEdges
              topology := state.topology.recordFlow flow srcIp dstIp },
            "saved event!")

/-- Cache a pod, and rename the node that was created with its raw IP. -/
def recordPodApplied (podIp ns applicationName serviceName serviceType : String)
    (state : CoreState) : CoreState :=
  let state := { state with
    podCache := state.podCache.insert podIp { ns, applicationName, serviceName, serviceType } }
  if applicationName ≠ "" then
    { state with topology := state.topology.resolveUnknownNode podIp applicationName ns }
  else state

def recordPodDeleted (podIp : String) (state : CoreState) : CoreState :=
  { state with podCache := state.podCache.erase podIp }

def recordServiceApplied (name ns serviceType clusterIp : String) (state : CoreState) :
    CoreState :=
  { state with
    serviceCache := state.serviceCache.insert (ns ++ "/" ++ name) { ns, serviceType, clusterIp } }

def recordServiceDeleted (name ns : String) (state : CoreState) : CoreState :=
  { state with serviceCache := state.serviceCache.erase (ns ++ "/" ++ name) }

/-- Attach a resource event, received at second `now`, to the node of the same name. -/
def recordK8sResourceEvent (now : Nat) (resourceType name ns eventType resourceData : String)
    (state : CoreState) : CoreState :=
  { state with
    topology := state.topology.addK8sEvent { applicationName := name, ns }
      { timestamp := now, resourceName := name, resourceType, eventType,
        eventData := resourceData } }

def insertEnvoyRoute (domain serviceName ns : String) (state : CoreState) : CoreState :=
  { state with envoyCache := state.envoyCache.insert domain (serviceName, ns) }

/-- The pod cache holds an application name for an IP. -/
def KnowsPod (state : CoreState) (ip : String) : Prop :=
  ∃ info ∈ state.podCache.lookup ip, info.applicationName ≠ ""

instance (state : CoreState) (ip : String) : Decidable (state.KnowsPod ip) :=
  inferInstanceAs (Decidable (∃ _ ∈ _, _))

/-! ## What an event amounts to -/

/-- The pod an event is attributed to: the cached pod of its source IP, if its name is known. -/
def source? (state : CoreState) (input : EbpfNetworkEventInput) : Option PodInfo :=
  (state.podCache.lookup input.srcIpStr).filter PodInfo.isNamed

/-- The node an event is destined to, by the Envoy cache, the pod cache or the host name. -/
def destination (state : CoreState) (input : EbpfNetworkEventInput) : NodeId :=
  let resolved :=
    (state.envoyCache.lookup input.bareHost).getD
      (destinationFromPod input.bareHost (state.podCache.lookup input.dstIpStr))
  { applicationName := resolved.1, ns := resolved.2 }

def eventKey (state : CoreState) (input : EbpfNetworkEventInput) (src : PodInfo) : String :=
  edgeKey src.ns src.serviceName (state.destination input).ns
    (destinationService (state.podCache.lookup input.dstIpStr)
      (state.destination input).applicationName)

def eventFlow (state : CoreState) (input : EbpfNetworkEventInput) (src : PodInfo) : Flow where
  sourceNode := src.node
  destinationNode := state.destination input
  path := input.path
  method := input.method

/-- The source pod of an event that gets as far as the edge key. -/
def observed? (state : CoreState) (input : EbpfNetworkEventInput) : Option PodInfo :=
  if Text.Contains "/health" input.path then none else state.source? input

/-- An event either is ignored, repeats a seen edge key, or records its key and its flow. -/
theorem recordEbpfEvent_fst (state : CoreState) (input : EbpfNetworkEventInput) :
    (state.recordEbpfEvent input).1 =
      match state.observed? input with
      | none => state
      | some src =>
          if state.eventKey input src ∈ state.seenEdges then state
          else
            { state with
              seenEdges := insert (state.eventKey input src) state.seenEdges
              topology := state.topology.recordFlow (state.eventFlow input src)
                input.srcIpStr input.dstIpStr } := by
  unfold recordEbpfEvent observed? source?
  by_cases health : Text.Contains "/health" input.path
  · simp [health]
  · simp only [health, if_false]
    cases (state.podCache.lookup input.srcIpStr).filter PodInfo.isNamed with
    | none => rfl
    | some src =>
        have resolved : (match state.envoyCache.lookup input.bareHost with
            | some (app, ns) => (app, ns)
            | none => destinationFromPod input.bareHost (state.podCache.lookup input.dstIpStr)) =
              ((state.destination input).applicationName, (state.destination input).ns) := by
          unfold destination
          cases state.envoyCache.lookup input.bareHost <;> rfl
        simp only [resolved]
        rw [apply_ite Prod.fst]
        rfl

theorem source?_eq_some {state : CoreState} {input : EbpfNetworkEventInput} {src : PodInfo} :
    state.source? input = some src ↔
      state.podCache.lookup input.srcIpStr = some src ∧ src.applicationName ≠ "" := by
  simp [source?, Option.filter_eq_some_iff, PodInfo.isNamed]

theorem observed?_eq_some {state : CoreState} {input : EbpfNetworkEventInput} {src : PodInfo} :
    state.observed? input = some src ↔
      ¬Text.Contains "/health" input.path ∧
        state.podCache.lookup input.srcIpStr = some src ∧ src.applicationName ≠ "" := by
  unfold observed?
  rw [← source?_eq_some]
  split
  · simp_all
  · simp_all

end CoreState

end Qubit
