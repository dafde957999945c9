import Qubit.Core.RestApi
import Qubit.Core.Server

/-!
# The gRPC view of the topology

`GetTopology` serialises the three maps of the topology under the texts
`namespace/application_name`, like the REST endpoint, but sends every edge with the
namespaces of its ends. Different nodes with one text would overwrite each other's
entries. Every key of the two maps of flows is a node, so nothing else can.
-/

namespace Qubit

namespace QueryServer

structure TopologyNode where
  applicationName : String
  ns : String
  ip : String
deriving DecidableEq, Repr

structure TopologyEdge where
  sourceApplication : String
  sourceNamespace : String
  destinationApplication : String
  destinationNamespace : String
  method : String
  path : String
deriving DecidableEq, Repr

structure FlowList where
  flows : List TopologyEdge
deriving DecidableEq, Repr

structure GetTopologyResponse where
  nodes : Finmap fun _ : String => TopologyNode
  upstream : Finmap fun _ : String => FlowList
  downstream : Finmap fun _ : String => FlowList

def toTopologyNode (nodeId : NodeId) (nodeData : NodeData) : TopologyNode where
  applicationName := nodeId.applicationName
  ns := nodeId.ns
  ip := nodeData.ip

def toFlowList (flows : List Flow) : FlowList where
  flows := flows.map fun flow =>
    { sourceApplication := flow.sourceNode.applicationName
      sourceNamespace := flow.sourceNode.ns
      destinationApplication := flow.destinationNode.applicationName
      destinationNamespace := flow.destinationNode.ns
      method := flow.method
      path := flow.path }

/-- `GetTopology`, for listings of the three maps. -/
def getTopology (nodes : AList fun _ : NodeId => NodeData)
    (upstream downstream : AList fun _ : NodeId => List Flow) : GetTopologyResponse where
  nodes := Finmap.collect (nodes.entries.map fun entry =>
    (entry.1.key, toTopologyNode entry.1 entry.2))
  upstream := Finmap.collect (upstream.entries.map fun entry =>
    (entry.1.key, toFlowList entry.2))
  downstream := Finmap.collect (downstream.entries.map fun entry =>
    (entry.1.key, toFlowList entry.2))

end QueryServer

/-! ## The keys of the maps of flows -/

/-- Every key of the two maps of flows is a node. -/
structure Topology.KeyedByNodes (topology : Topology) : Prop where
  upstream : ∀ node ∈ topology.upstream, node ∈ topology.nodes
  downstream : ∀ node ∈ topology.downstream, node ∈ topology.nodes

namespace Topology.KeyedByNodes

theorem new : Topology.new.KeyedByNodes where
  upstream := fun _ mem => absurd mem Finmap.notMem_empty
  downstream := fun _ mem => absurd mem Finmap.notMem_empty

theorem recordFlow {topology : Topology} (keyed : topology.KeyedByNodes) (flow : Flow)
    (srcIp dstIp : String) : (topology.recordFlow flow srcIp dstIp).KeyedByNodes where
  upstream := by
    intro node mem
    simp only [Topology.recordFlow, addFlow, upstream_addNode, Finmap.mem_pushNew] at mem
    simp only [Topology.recordFlow, addFlow, mem_nodes_addNode]
    rcases mem with rfl | old
    · exact Or.inl rfl
    · exact Or.inr (Or.inr (keyed.upstream node old))
  downstream := by
    intro node mem
    simp only [Topology.recordFlow, addFlow, downstream_addNode, Finmap.mem_pushNew] at mem
    simp only [Topology.recordFlow, addFlow, mem_nodes_addNode]
    rcases mem with rfl | old
    · exact Or.inr (Or.inl rfl)
    · exact Or.inr (Or.inr (keyed.downstream node old))

theorem resolveUnknownNode {topology : Topology} (keyed : topology.KeyedByNodes)
    (ip applicationName ns : String) :
    (topology.resolveUnknownNode ip applicationName ns).KeyedByNodes := by
  by_cases present : NodeId.unresolved ip ∈ topology.nodes
  · rcases resolveUnknownNode_of_mem applicationName ns present with ⟨nodeData, -, resolved⟩
    constructor
    · intro node mem
      rw [resolved, Finmap.mem_mapValues] at mem
      rcases Finmap.mem_moveRow mem with ⟨old, oldMem, renamed⟩
      exact mem_nodes_resolveUnknownNode.mpr ⟨old, keyed.upstream old oldMem, renamed⟩
    · intro node mem
      rw [resolved, Finmap.mem_mapValues] at mem
      rcases Finmap.mem_moveRow mem with ⟨old, oldMem, renamed⟩
      exact mem_nodes_resolveUnknownNode.mpr ⟨old, keyed.downstream old oldMem, renamed⟩
  · rw [resolveUnknownNode_of_notMem applicationName ns present]
    exact keyed

theorem addK8sEvent {topology : Topology} (keyed : topology.KeyedByNodes) (node : NodeId)
    (event : K8sEvent) : (topology.addK8sEvent node event).KeyedByNodes where
  upstream := by
    intro other mem
    rw [upstream_addK8sEvent] at mem
    exact mem_nodes_addK8sEvent.mpr (keyed.upstream other mem)
  downstream := by
    intro other mem
    rw [downstream_addK8sEvent] at mem
    exact mem_nodes_addK8sEvent.mpr (keyed.downstream other mem)

end Topology.KeyedByNodes

namespace CoreState

theorem keyedByNodes_apply {state : CoreState} (keyed : state.topology.KeyedByNodes)
    (operation : Operation) : (state.apply operation).topology.KeyedByNodes := by
  cases operation with
  | ebpfEvent input =>
      simp only [apply, recordEbpfEvent_fst]
      cases state.observed? input with
      | none => exact keyed
      | some src =>
          dsimp only
          split
          · exact keyed
          · exact keyed.recordFlow _ _ _
  | podApplied podIp info =>
      rw [topology_apply_podApplied]
      split
      · exact keyed.resolveUnknownNode podIp info.applicationName info.ns
      · exact keyed
  | podDeleted podIp => exact keyed
  | serviceApplied name info => exact keyed
  | serviceDeleted name ns => exact keyed
  | resourceEvent now resourceType name ns eventType resourceData =>
      exact keyed.addK8sEvent _ _
  | envoyRoute domain serviceName ns => exact keyed

theorem keyedByNodes_run (requests : List Request) :
    (empty.run requests).topology.KeyedByNodes := by
  rw [run_eq_foldl]
  exact List.foldlRecOn (motive := fun state : CoreState => state.topology.KeyedByNodes)
    (operationsOf requests) apply Topology.KeyedByNodes.new
    fun _ keyed operation _ => keyedByNodes_apply keyed operation

end CoreState

end Qubit
