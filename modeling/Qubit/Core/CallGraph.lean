import Qubit.Core.Topology

/-!
# The topology as a view of a call graph

What the topology is for can be said without its three hash maps: it remembers
the distinct calls observed so far, as a multiset of flows. Observing a call adds
it unless it is there; resolving an IP renames one node in every call.

A topology *represents* a call graph when both lists of flows are indices of it
and its nodes are the endpoints of its calls. Each operation of the topology is
simulated by the operation on the call graph, so whatever holds of a call graph
along a run can be read off the topology in any state reached. Resolution can
identify two calls, and then the call graph keeps both copies: that is why it is
a multiset and not a set.
-/

namespace Qubit

/-- The calls observed so far. -/
abbrev CallGraph := Multiset Flow

namespace CallGraph

def observe (flow : Flow) (calls : CallGraph) : CallGraph :=
  calls.ndinsert flow

def rename (staleId resolvedId : NodeId) (calls : CallGraph) : CallGraph :=
  calls.map (Flow.rewire staleId resolvedId)

def IsNode (calls : CallGraph) (node : NodeId) : Prop :=
  ∃ flow ∈ calls, node = flow.sourceNode ∨ node = flow.destinationNode

def HasEdge (calls : CallGraph) (source destination : NodeId) : Prop :=
  ∃ flow ∈ calls, flow.sourceNode = source ∧ flow.destinationNode = destination

theorem isNode_observe {flow : Flow} {calls : CallGraph} {node : NodeId} :
    (calls.observe flow).IsNode node ↔
      node = flow.sourceNode ∨ node = flow.destinationNode ∨ calls.IsNode node := by
  simp only [IsNode, observe, Multiset.mem_ndinsert]
  constructor
  · rintro ⟨call, rfl | old, endpoint⟩
    · rw [← or_assoc]
      exact Or.inl endpoint
    · exact Or.inr (Or.inr ⟨call, old, endpoint⟩)
  · rintro (source | destination | ⟨call, old, endpoint⟩)
    · exact ⟨flow, Or.inl rfl, Or.inl source⟩
    · exact ⟨flow, Or.inl rfl, Or.inr destination⟩
    · exact ⟨call, Or.inr old, endpoint⟩

theorem hasEdge_observe {flow : Flow} {calls : CallGraph} {source destination : NodeId} :
    (calls.observe flow).HasEdge source destination ↔
      (flow.sourceNode = source ∧ flow.destinationNode = destination) ∨
        calls.HasEdge source destination := by
  simp only [HasEdge, observe, Multiset.mem_ndinsert]
  constructor
  · rintro ⟨call, rfl | old, ends⟩
    · exact Or.inl ends
    · exact Or.inr ⟨call, old, ends⟩
  · rintro (ends | ⟨call, old, ends⟩)
    · exact ⟨flow, Or.inl rfl, ends⟩
    · exact ⟨call, Or.inr old, ends⟩

theorem isNode_rename {staleId resolvedId node : NodeId} {calls : CallGraph} :
    (calls.rename staleId resolvedId).IsNode node ↔
      ∃ old, calls.IsNode old ∧ Function.update id staleId resolvedId old = node := by
  simp only [IsNode, rename, Multiset.mem_map]
  constructor
  · rintro ⟨_, ⟨flow, flowMem, rfl⟩, source | destination⟩
    · rw [Flow.sourceNode_rewire] at source
      exact ⟨flow.sourceNode, ⟨flow, flowMem, Or.inl rfl⟩, source.symm⟩
    · rw [Flow.destinationNode_rewire] at destination
      exact ⟨flow.destinationNode, ⟨flow, flowMem, Or.inr rfl⟩, destination.symm⟩
  · rintro ⟨_, ⟨flow, flowMem, rfl | rfl⟩, renamed⟩
    · refine ⟨_, ⟨flow, flowMem, rfl⟩, Or.inl ?_⟩
      rw [Flow.sourceNode_rewire, renamed]
    · refine ⟨_, ⟨flow, flowMem, rfl⟩, Or.inr ?_⟩
      rw [Flow.destinationNode_rewire, renamed]

theorem hasEdge_rename {staleId resolvedId source destination : NodeId} {calls : CallGraph} :
    (calls.rename staleId resolvedId).HasEdge source destination ↔
      ∃ oldSource oldDestination, calls.HasEdge oldSource oldDestination ∧
        Function.update id staleId resolvedId oldSource = source ∧
        Function.update id staleId resolvedId oldDestination = destination := by
  simp only [HasEdge, rename, Multiset.mem_map]
  constructor
  · rintro ⟨_, ⟨flow, flowMem, rfl⟩, rfl, rfl⟩
    refine ⟨flow.sourceNode, flow.destinationNode, ⟨flow, flowMem, rfl, rfl⟩, ?_, ?_⟩
    · rw [Flow.sourceNode_rewire]
    · rw [Flow.destinationNode_rewire]
  · rintro ⟨_, _, ⟨flow, flowMem, rfl, rfl⟩, rfl, rfl⟩
    refine ⟨_, ⟨flow, flowMem, rfl⟩, ?_, ?_⟩
    · rw [Flow.sourceNode_rewire]
    · rw [Flow.destinationNode_rewire]

theorem rename_of_not_isNode {staleId : NodeId} (resolvedId : NodeId) {calls : CallGraph}
    (absent : ¬calls.IsNode staleId) : calls.rename staleId resolvedId = calls := by
  have unchanged : ∀ flow ∈ calls, flow.rewire staleId resolvedId = id flow := by
    intro flow flowMem
    apply Flow.rewire_of_ne
    · intro source
      exact absent ⟨flow, flowMem, Or.inl source.symm⟩
    · intro destination
      exact absent ⟨flow, flowMem, Or.inr destination.symm⟩
  rw [rename, Multiset.map_congr rfl unchanged, Multiset.map_id]

end CallGraph

namespace Topology

def Stores (topology : Topology) (flow : Flow) : Prop :=
  (∃ node, flow ∈ topology.upstream.row node) ∨ ∃ node, flow ∈ topology.downstream.row node

/-- The outgoing list of `source` contains a flow from `source` to `destination`. -/
def ShowsEdge (topology : Topology) (source destination : NodeId) : Prop :=
  ∃ flow ∈ topology.downstream.row source,
    flow.sourceNode = source ∧ flow.destinationNode = destination

instance (topology : Topology) (source destination : NodeId) :
    Decidable (topology.ShowsEdge source destination) :=
  inferInstanceAs (Decidable (∃ flow ∈ topology.downstream.row source, _))

/-- Both lists of flows are indices of the calls, and the nodes are their endpoints. -/
structure Represents (topology : Topology) (calls : CallGraph) : Prop where
  upstream : topology.upstream.IsIndexOf Flow.destinationNode calls
  downstream : topology.downstream.IsIndexOf Flow.sourceNode calls
  mem_nodes : ∀ node, node ∈ topology.nodes ↔ calls.IsNode node

theorem represents_new : new.Represents 0 where
  upstream := Finmap.IsIndexOf.empty _
  downstream := Finmap.IsIndexOf.empty _
  mem_nodes := by
    intro node
    exact iff_of_false Finmap.notMem_empty (by simp [CallGraph.IsNode])

namespace Represents

variable {topology : Topology} {calls : CallGraph}

theorem stores_iff (represents : topology.Represents calls) {flow : Flow} :
    topology.Stores flow ↔ flow ∈ calls := by
  simp only [Stores, represents.upstream.mem_row_iff, represents.downstream.mem_row_iff]
  constructor
  · rintro (⟨_, flowMem, _⟩ | ⟨_, flowMem, _⟩)
    · exact flowMem
    · exact flowMem
  · intro flowMem
    exact Or.inl ⟨flow.destinationNode, flowMem, rfl⟩

theorem showsEdge_iff (represents : topology.Represents calls) {source destination : NodeId} :
    topology.ShowsEdge source destination ↔ calls.HasEdge source destination := by
  simp only [ShowsEdge, CallGraph.HasEdge, represents.downstream.mem_row_iff]
  constructor
  · rintro ⟨flow, ⟨flowMem, _⟩, ends⟩
    exact ⟨flow, flowMem, ends⟩
  · rintro ⟨flow, flowMem, ends⟩
    exact ⟨flow, ⟨flowMem, ends.1⟩, ends⟩

theorem observe (represents : topology.Represents calls) (flow : Flow)
    (sourceData destinationData : NodeData) :
    (((topology.addNode flow.sourceNode sourceData).addNode flow.destinationNode
      destinationData).addFlow flow).Represents (calls.observe flow) where
  upstream := by
    simp only [addFlow, upstream_addNode]
    exact represents.upstream.pushNew flow
  downstream := by
    simp only [addFlow, downstream_addNode]
    exact represents.downstream.pushNew flow
  mem_nodes := by
    intro node
    rw [CallGraph.isNode_observe, ← represents.mem_nodes]
    simp only [addFlow, mem_nodes_addNode]
    tauto

theorem resolve (represents : topology.Represents calls) (ip applicationName ns : String) :
    (topology.resolveUnknownNode ip applicationName ns).Represents
      (calls.rename (NodeId.unresolved ip) { applicationName, ns }) := by
  by_cases present : NodeId.unresolved ip ∈ topology.nodes
  · have nodes : ∀ node,
        node ∈ (topology.resolveUnknownNode ip applicationName ns).nodes ↔
          (calls.rename (NodeId.unresolved ip) { applicationName, ns }).IsNode node := by
      intro node
      simp only [mem_nodes_resolveUnknownNode, CallGraph.isNode_rename, represents.mem_nodes]
    rcases resolveUnknownNode_of_mem applicationName ns present with ⟨nodeData, -, resolved⟩
    refine ⟨?_, ?_, nodes⟩
    · rw [resolved]
      exact represents.upstream.substitute fun flow => Flow.destinationNode_rewire _ _ flow
    · rw [resolved]
      exact represents.downstream.substitute fun flow => Flow.sourceNode_rewire _ _ flow
  · rw [resolveUnknownNode_of_notMem applicationName ns present,
      CallGraph.rename_of_not_isNode _ (fun node => present ((represents.mem_nodes _).mpr node))]
    exact represents

theorem addK8sEvent (represents : topology.Represents calls) (node : NodeId) (event : K8sEvent) :
    (topology.addK8sEvent node event).Represents calls where
  upstream := by
    rw [upstream_addK8sEvent]
    exact represents.upstream
  downstream := by
    rw [downstream_addK8sEvent]
    exact represents.downstream
  mem_nodes := by
    intro other
    rw [mem_nodes_addK8sEvent]
    exact represents.mem_nodes other

end Represents

end Topology

end Qubit
