import Qubit.Core.QueryApi
import Qubit.Lib.Run

/-!
# Node keys as texts

The key `namespace/application_name` of a node can be split again at its first
slash, as the topology view does before it asks for a subgraph, exactly when the
namespace contains no slash. Then different nodes have different keys as well, and
the responses lose nothing.

Namespaces from pod announcements and Envoy routes are Kubernetes names. The only
other source of a namespace is a host name, which is cut at its dots and not
checked further, so the keys stay unambiguous exactly as long as no recorded event
has a host whose second label contains a slash.
-/

namespace Qubit

/-- The namespace and the service that the view asks for when a node is selected. -/
def Ui.fetchSubgraph (nodeId : String) : Option (String × String) :=
  Text.splitFirst '/' nodeId

open QueryServer in
/-- Every node and every list of flows has an entry of its own, and there are no other entries. -/
structure QueryServer.GetTopologyResponse.Shows (response : GetTopologyResponse)
    (topology : Topology) : Prop where
  nodes : ∀ text node, response.nodes.lookup text = some node ↔
    ∃ nodeId nodeData, topology.nodes.lookup nodeId = some nodeData ∧ nodeId.key = text ∧
      toTopologyNode nodeId nodeData = node
  upstream : ∀ text list, response.upstream.lookup text = some list ↔
    ∃ nodeId flows, topology.upstream.lookup nodeId = some flows ∧ nodeId.key = text ∧
      toFlowList flows = list
  downstream : ∀ text list, response.downstream.lookup text = some list ↔
    ∃ nodeId flows, topology.downstream.lookup nodeId = some flows ∧ nodeId.key = text ∧
      toFlowList flows = list

/-- Nothing is lost by naming the nodes by their keys. -/
structure Topology.Lossless (topology : Topology) : Prop where
  distinct : ∀ node ∈ topology.nodes, ∀ other ∈ topology.nodes,
    node.key = other.key → node = other
  response : ∀ nodes upstream downstream, nodes.toFinmap = topology.nodes →
    upstream.toFinmap = topology.upstream → downstream.toFinmap = topology.downstream →
      (QueryServer.getTopology nodes upstream downstream).Shows topology
  split : ∀ node ∈ topology.nodes,
    Ui.fetchSubgraph node.key = some (node.ns, node.applicationName)

namespace NodeId

/-- The namespace of the node contains no slash. -/
def Plain (node : NodeId) : Prop :=
  '/' ∉ node.ns.toList

instance : DecidablePred Plain :=
  fun node => inferInstanceAs (Decidable ('/' ∉ node.ns.toList))

theorem fetchSubgraph_key_iff {node : NodeId} :
    Ui.fetchSubgraph node.key = some (node.ns, node.applicationName) ↔ node.Plain :=
  Text.splitFirst_join_iff

theorem eq_of_key_eq {node other : NodeId} (plain : node.Plain) (otherPlain : other.Plain)
    (sameKey : node.key = other.key) : node = other := by
  have split := fetchSubgraph_key_iff.mpr plain
  rw [sameKey, fetchSubgraph_key_iff.mpr otherPlain, Option.some.injEq, Prod.mk.injEq] at split
  cases node
  cases other
  simp only at split
  rw [split.1, split.2]

end NodeId

/-- A topology is shown without loss exactly when all its namespaces are free of slashes. -/
theorem Topology.lossless_iff {topology : Topology} (keyed : topology.KeyedByNodes) :
    topology.Lossless ↔ ∀ node ∈ topology.nodes, node.Plain := by
  constructor
  · intro lossless node nodeMem
    exact NodeId.fetchSubgraph_key_iff.mp (lossless.split node nodeMem)
  · intro plain
    have distinct : ∀ node ∈ topology.nodes, ∀ other ∈ topology.nodes,
        node.key = other.key → node = other :=
      fun node nodeMem other otherMem =>
        NodeId.eq_of_key_eq (plain node nodeMem) (plain other otherMem)
    refine ⟨distinct, ?_, fun node nodeMem =>
      NodeId.fetchSubgraph_key_iff.mpr (plain node nodeMem)⟩
    intro nodes upstream downstream isNodes isUpstream isDownstream
    have distinctUpstream : ∀ node ∈ upstream.toFinmap, ∀ other ∈ upstream.toFinmap,
        node.key = other.key → node = other := by
      rw [isUpstream]
      exact fun node nodeMem other otherMem =>
        distinct node (keyed.upstream node nodeMem) other (keyed.upstream other otherMem)
    have distinctDownstream : ∀ node ∈ downstream.toFinmap, ∀ other ∈ downstream.toFinmap,
        node.key = other.key → node = other := by
      rw [isDownstream]
      exact fun node nodeMem other otherMem =>
        distinct node (keyed.downstream node nodeMem) other (keyed.downstream other otherMem)
    rw [← isNodes] at distinct
    constructor
    · rw [← isNodes]
      exact fun _ _ => Handler.lookup_collect_key distinct QueryServer.toTopologyNode
    · rw [← isUpstream]
      exact fun _ _ => Handler.lookup_collect_key distinctUpstream
        fun _ => QueryServer.toFlowList
    · rw [← isDownstream]
      exact fun _ _ => Handler.lookup_collect_key distinctDownstream
        fun _ => QueryServer.toFlowList

/-! ## Runs -/

/-- Pod announcements and Envoy routes have names and namespaces without a slash. -/
def Request.SlashFree : Request → Prop
  | .sendPodEvent req =>
      K8sEventType.tryFrom req.eventType = some .applied →
        '/' ∉ req.applicationName.toList ∧ '/' ∉ req.ns.toList
  | .sendServicePodMap req =>
      ∀ entry ∈ req.entries, '/' ∉ entry.applicationName.toList ∧ '/' ∉ entry.ns.toList
  | .sendEnvoyRoutes req =>
      ∀ entry ∈ req.entries, '/' ∉ entry.serviceName.toList ∧ '/' ∉ entry.ns.toList
  | _ => True

instance : DecidablePred Request.SlashFree
  | .sendPodEvent _ => inferInstanceAs (Decidable (_ → _ ∧ _))
  | .sendServicePodMap _ => inferInstanceAs (Decidable (∀ _ ∈ _, _ ∧ _))
  | .sendEnvoyRoutes _ => inferInstanceAs (Decidable (∀ _ ∈ _, _ ∧ _))
  | .sendEbpfNetworkEvent _ => .isTrue trivial
  | .sendServiceEvent _ => .isTrue trivial
  | .sendConfigMapEvent _ => .isTrue trivial
  | .sendK8sResourceEvent _ _ => .isTrue trivial

namespace Operation

def Plain : Operation → Prop
  | .podApplied _ info => info.node.Plain
  | .envoyRoute _ serviceName ns => NodeId.Plain ⟨serviceName, ns⟩
  | _ => True

theorem plain_of_slashFree {requests : List Request}
    (slashFree : ∀ request ∈ requests, request.SlashFree) :
    ∀ operation ∈ operationsOf requests, operation.Plain := by
  intro operation member
  rcases List.mem_flatMap.mp member with ⟨request, requestMem, performed⟩
  have allowed := slashFree request requestMem
  cases operation with
  | podApplied podIp info =>
      rcases Request.mem_operations_iff.mp performed with
        ⟨req, rfl, applied, -, rfl⟩ | ⟨req, rfl, entry, entryMem, -, rfl⟩
      · exact (allowed applied).2
      · exact (allowed entry entryMem).2
  | envoyRoute domain serviceName ns =>
      rcases Request.mem_operations_iff.mp performed with ⟨req, rfl, entryMem⟩
      exact (allowed _ entryMem).2
  | _ => trivial

end Operation

namespace CoreState

/--
An event that records a flow, and whose destination neither Envoy nor the pod cache knows, has a
host that is read with a namespace without a slash.
-/
def GuessesPlain (state : CoreState) : Operation → Prop
  | .ebpfEvent input =>
      ∀ src, state.observed? input = some src → state.eventKey input src ∉ state.seenEdges →
        state.envoyCache.lookup input.bareHost = none →
          (state.podCache.lookup input.dstIpStr).filter PodInfo.isNamed = none →
            '/' ∉ (parseK8sHost input.bareHost).2.toList
  | _ => True

/-- The caches hold only namespaces without a slash. -/
structure PlainCaches (state : CoreState) : Prop where
  podCache : ∀ ip info, state.podCache.lookup ip = some info → info.node.Plain
  envoyCache : ∀ domain target, state.envoyCache.lookup domain = some target →
    NodeId.Plain ⟨target.1, target.2⟩

theorem plainCaches_empty : empty.PlainCaches where
  podCache := by
    intro ip info cached
    cases cached
  envoyCache := by
    intro domain target cached
    cases cached

theorem PlainCaches.apply {state : CoreState} (plain : state.PlainCaches) {operation : Operation}
    (allowed : operation.Plain) : (state.apply operation).PlainCaches where
  podCache := by
    intro ip info cached
    rw [podCache_apply] at cached
    cases operation with
    | podApplied podIp applied =>
        simp only [Operation.podWrite?, Option.elim_some, KeyedWrite.lookup_perform] at cached
        split at cached
        · rw [Option.some.injEq] at cached
          rw [← cached]
          exact allowed
        · exact plain.podCache ip info cached
    | podDeleted podIp =>
        simp only [Operation.podWrite?, Option.elim_some, KeyedWrite.lookup_perform] at cached
        split at cached
        · cases cached
        · exact plain.podCache ip info cached
    | _ => exact plain.podCache ip info cached
  envoyCache := by
    intro domain target cached
    rw [envoyCache_apply] at cached
    cases operation with
    | envoyRoute routed serviceName ns =>
        simp only [Operation.routeWrite?, Option.elim_some, KeyedWrite.lookup_perform] at cached
        split at cached
        · rw [Option.some.injEq] at cached
          rw [← cached]
          exact allowed
        · exact plain.envoyCache domain target cached
    | _ => exact plain.envoyCache domain target cached

theorem PlainCaches.destination_iff {state : CoreState} (plain : state.PlainCaches)
    (input : EbpfNetworkEventInput) :
    (state.destination input).Plain ↔
      (state.envoyCache.lookup input.bareHost = none →
        (state.podCache.lookup input.dstIpStr).filter PodInfo.isNamed = none →
          '/' ∉ (parseK8sHost input.bareHost).2.toList) := by
  unfold destination
  cases route : state.envoyCache.lookup input.bareHost with
  | some target =>
      exact iff_of_true (plain.envoyCache _ target route) fun noRoute => by cases noRoute
  | none =>
      unfold destinationFromPod
      cases pod : (state.podCache.lookup input.dstIpStr).filter PodInfo.isNamed with
      | some info =>
          have cached := (Option.filter_eq_some_iff.mp pod).1
          exact iff_of_true (plain.podCache _ info cached) fun _ noPod => by cases noPod
      | none =>
          rw [NodeId.Plain, Option.getD_none, imp_iff_right rfl, imp_iff_right rfl]

theorem plain_recordFlow_iff {topology : Topology} {flow : Flow} {srcIp dstIp : String} :
    (∀ node ∈ (topology.recordFlow flow srcIp dstIp).nodes, node.Plain) ↔
      flow.sourceNode.Plain ∧ flow.destinationNode.Plain ∧
        ∀ node ∈ topology.nodes, node.Plain := by
  simp only [Topology.recordFlow, Topology.addFlow, Topology.mem_nodes_addNode]
  constructor
  · intro plain
    exact ⟨plain _ (Or.inr (Or.inl rfl)), plain _ (Or.inl rfl),
      fun node nodeMem => plain node (Or.inr (Or.inr nodeMem))⟩
  · rintro ⟨source, destination, old⟩ node (rfl | rfl | nodeMem)
    · exact destination
    · exact source
    · exact old node nodeMem

theorem plain_unresolved (ip : String) : (NodeId.unresolved ip).Plain := by
  have plain : '/' ∉ "unknown".toList := by decide
  exact plain

theorem plain_resolveUnknownNode_iff {topology : Topology} {ip applicationName ns : String}
    (resolved : NodeId.Plain ⟨applicationName, ns⟩) :
    (∀ node ∈ (topology.resolveUnknownNode ip applicationName ns).nodes, node.Plain) ↔
      ∀ node ∈ topology.nodes, node.Plain := by
  simp only [Topology.mem_nodes_resolveUnknownNode]
  constructor
  · intro plain node nodeMem
    by_cases stale : node = NodeId.unresolved ip
    · rw [stale]
      exact plain_unresolved ip
    · exact plain node ⟨node, nodeMem, Function.update_of_ne stale ..⟩
  · rintro plain _ ⟨old, oldMem, rfl⟩
    by_cases stale : old = NodeId.unresolved ip
    · rw [stale, Function.update_self]
      exact resolved
    · rw [Function.update_of_ne stale]
      exact plain old oldMem

/-- One operation keeps the namespaces plain exactly when it guesses no other one. -/
theorem plain_apply_iff {state : CoreState} (caches : state.PlainCaches) {operation : Operation}
    (allowed : operation.Plain) :
    (∀ node ∈ (state.apply operation).topology.nodes, node.Plain) ↔
      (∀ node ∈ state.topology.nodes, node.Plain) ∧ state.GuessesPlain operation := by
  cases operation with
  | ebpfEvent input =>
      rw [apply, recordEbpfEvent_fst, GuessesPlain]
      cases observed : state.observed? input with
      | none => simp
      | some src =>
          by_cases seen : state.eventKey input src ∈ state.seenEdges
          · simp [seen]
          · have source : src.node.Plain :=
              caches.podCache _ src (observed?_eq_some.mp observed).2.1
            dsimp only
            rw [if_neg seen, plain_recordFlow_iff]
            simp only [Option.some.injEq, forall_eq', seen, not_false_eq_true, forall_const]
            rw [← caches.destination_iff]
            constructor
            · rintro ⟨-, destination, old⟩
              exact ⟨old, destination⟩
            · rintro ⟨old, destination⟩
              exact ⟨source, destination, old⟩
  | podApplied podIp info =>
      rw [topology_apply_podApplied]
      simp only [GuessesPlain, and_true]
      split
      · exact plain_resolveUnknownNode_iff allowed
      · rfl
  | resourceEvent now resourceType name ns eventType resourceData =>
      simp [apply, recordK8sResourceEvent, GuessesPlain]
  | podDeleted podIp => exact (and_iff_left trivial).symm
  | serviceApplied name info => exact (and_iff_left trivial).symm
  | serviceDeleted name ns => exact (and_iff_left trivial).symm
  | envoyRoute domain serviceName ns => exact (and_iff_left trivial).symm

/--
When announcements and routes are free of slashes, a run leaves a topology that is shown without
loss exactly when every host that was guessed from was read with a namespace without a slash.
-/
theorem lossless_run_iff (requests : List Request)
    (slashFree : ∀ request ∈ requests, request.SlashFree) :
    (empty.run requests).topology.Lossless ↔
      Run.EveryStep apply GuessesPlain empty (operationsOf requests) := by
  rw [Topology.lossless_iff (keyedByNodes_run requests), run_eq_foldl]
  have exact_step : ∀ (state : CoreState) (operation : Operation), state.PlainCaches →
      operation.Plain → ((∀ node ∈ (state.apply operation).topology.nodes, node.Plain) ↔
        (∀ node ∈ state.topology.nodes, node.Plain) ∧ state.GuessesPlain operation) :=
    fun _ _ caches allowed => plain_apply_iff caches allowed
  refine (Run.holds_iff_everyStep
    (fun state : CoreState => ∀ node ∈ state.topology.nodes, node.Plain)
    (fun _ _ caches allowed => caches.apply allowed) exact_step plainCaches_empty
    (Operation.plain_of_slashFree slashFree)).trans ?_
  exact and_iff_right fun _ nodeMem => absurd nodeMem Finmap.notMem_empty

/-- Two pods call hosts that are read as different nodes with one key. -/
def slashedHosts : List Request :=
  [.sendPodEvent ⟨"10.0.0.1", "default", 0, "web", "web", "ClusterIP"⟩,
    .sendPodEvent ⟨"10.0.0.2", "default", 0, "job", "job", "ClusterIP"⟩,
    .sendEbpfNetworkEvent ⟨16777226, 150994954, "GET", "/", "a.b/c.svc"⟩,
    .sendEbpfNetworkEvent ⟨33554442, 150994954, "GET", "/", "c/a.b.svc"⟩]

theorem lossless_slashedHosts_iff :
    (empty.run slashedHosts).topology.Lossless ↔
      Run.EveryStep apply GuessesPlain empty (operationsOf slashedHosts) :=
  lossless_run_iff slashedHosts (by decide +kernel)

theorem exists_lost_node :
    ¬∀ requests : List Request, (∀ request ∈ requests, request.SlashFree) →
      (empty.run requests).topology.Lossless := by
  intro lossless
  have distinct := (lossless slashedHosts (by decide +kernel)).distinct
  have same := distinct ⟨"a", "b/c"⟩ (by decide +kernel) ⟨"c/a", "b"⟩ (by decide +kernel)
    (by decide +kernel)
  revert same
  decide +kernel

end CoreState

end Qubit
