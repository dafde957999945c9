import Qubit.Lib.SecondaryIndex

/-!
# The in-memory topology

The service graph kept by Core: the nodes with their data, and every observed
flow twice, in the list of its destination and in the list of its source. The
operations are those of `core/src/topology/topology.rs` that write to the graph.
-/

namespace Qubit

/-- A service node. `applicationName` holds a raw IP until the pod cache resolves it. -/
structure NodeId where
  applicationName : String
  ns : String
deriving DecidableEq, Repr

/-- One observed HTTP call. -/
structure Flow where
  sourceNode : NodeId
  destinationNode : NodeId
  path : String
  method : String
deriving DecidableEq, Repr

structure K8sEvent where
  timestamp : Nat
  resourceName : String
  resourceType : String
  eventType : String
  eventData : String
deriving DecidableEq, Repr

structure NodeData where
  ip : String
  k8sEvents : List K8sEvent := []
deriving DecidableEq, Repr

structure Topology where
  nodes : Finmap fun _ : NodeId => NodeData
  /-- Indexed by destination: who calls this service? -/
  upstream : Finmap fun _ : NodeId => List Flow
  /-- Indexed by source: what does this service call? -/
  downstream : Finmap fun _ : NodeId => List Flow
deriving DecidableEq

/-- The node under which a service without a known name is kept: its raw IP. -/
def NodeId.unresolved (ip : String) : NodeId where
  applicationName := ip
  ns := "unknown"

/-- The key of a node in every serialised form of the graph. -/
def NodeId.key (node : NodeId) : String :=
  node.ns ++ "/" ++ node.applicationName

namespace Flow

/-- Replace the stale node by the resolved one at both ends. -/
def rewire (staleId resolvedId : NodeId) (flow : Flow) : Flow where
  sourceNode := if flow.sourceNode = staleId then resolvedId else flow.sourceNode
  destinationNode :=
    if flow.destinationNode = staleId then resolvedId else flow.destinationNode
  path := flow.path
  method := flow.method

theorem sourceNode_rewire (staleId resolvedId : NodeId) (flow : Flow) :
    (flow.rewire staleId resolvedId).sourceNode =
      Function.update id staleId resolvedId flow.sourceNode := by
  simp [rewire, Function.update_apply]

theorem destinationNode_rewire (staleId resolvedId : NodeId) (flow : Flow) :
    (flow.rewire staleId resolvedId).destinationNode =
      Function.update id staleId resolvedId flow.destinationNode := by
  simp [rewire, Function.update_apply]

theorem rewire_of_ne {staleId : NodeId} (resolvedId : NodeId) {flow : Flow}
    (source_ne : flow.sourceNode ≠ staleId) (destination_ne : flow.destinationNode ≠ staleId) :
    flow.rewire staleId resolvedId = flow := by
  simp [rewire, source_ne, destination_ne]

end Flow

namespace Topology

def new : Topology where
  nodes := ∅
  upstream := ∅
  downstream := ∅

/-- Add a node; a no-op when the node is already there. -/
def addNode (node : NodeId) (nodeData : NodeData) (topology : Topology) : Topology :=
  if node ∈ topology.nodes then topology
  else { topology with nodes := topology.nodes.insert node nodeData }

/-- Add a flow to the lists of its destination and of its source, unless it is there. -/
def addFlow (flow : Flow) (topology : Topology) : Topology :=
  { topology with
    upstream := topology.upstream.pushNew flow.destinationNode flow
    downstream := topology.downstream.pushNew flow.sourceNode flow }

/-- Attach a resource event to a node, if there is such a node. -/
def addK8sEvent (node : NodeId) (event : K8sEvent) (topology : Topology) : Topology :=
  match topology.nodes.lookup node with
  | none => topology
  | some nodeData =>
      { topology with
        nodes := topology.nodes.insert node
          { nodeData with k8sEvents := nodeData.k8sEvents ++ [event] } }

/--
When a pod mapping arrives, rename the node created with the raw IP: its data and its two lists
move to the resolved node, and every flow that mentions it is rewritten.
-/
def resolveUnknownNode (ip applicationName ns : String) (topology : Topology) : Topology :=
  let staleId := NodeId.unresolved ip
  if staleId ∉ topology.nodes then topology
  else
    let resolvedId : NodeId := { applicationName, ns }
    let nodes :=
      match topology.nodes.lookup staleId with
      | none => topology.nodes
      | some nodeData => (topology.nodes.erase staleId).insertNew resolvedId nodeData
    let upstream := topology.upstream.moveRow staleId resolvedId
    let downstream := topology.downstream.moveRow staleId resolvedId
    { nodes
      upstream := upstream.mapValues (List.map (Flow.rewire staleId resolvedId))
      downstream := downstream.mapValues (List.map (Flow.rewire staleId resolvedId)) }

theorem addNode_eq (node : NodeId) (nodeData : NodeData) (topology : Topology) :
    topology.addNode node nodeData =
      { topology with nodes := topology.nodes.insertNew node nodeData } := by
  unfold addNode Finmap.insertNew
  split <;> rfl

@[simp]
theorem mem_nodes_addNode {node other : NodeId} {nodeData : NodeData} {topology : Topology} :
    other ∈ (topology.addNode node nodeData).nodes ↔ other = node ∨ other ∈ topology.nodes := by
  simp [addNode_eq]

@[simp]
theorem upstream_addNode (node : NodeId) (nodeData : NodeData) (topology : Topology) :
    (topology.addNode node nodeData).upstream = topology.upstream := by
  simp [addNode_eq]

@[simp]
theorem downstream_addNode (node : NodeId) (nodeData : NodeData) (topology : Topology) :
    (topology.addNode node nodeData).downstream = topology.downstream := by
  simp [addNode_eq]

@[simp]
theorem mem_nodes_addK8sEvent {node other : NodeId} {event : K8sEvent} {topology : Topology} :
    other ∈ (topology.addK8sEvent node event).nodes ↔ other ∈ topology.nodes := by
  unfold addK8sEvent
  cases found : topology.nodes.lookup node with
  | none => rfl
  | some nodeData =>
      have present : node ∈ topology.nodes := Finmap.mem_of_lookup_eq_some found
      rw [Finmap.mem_insert]
      constructor
      · rintro (rfl | old)
        · exact present
        · exact old
      · exact Or.inr

@[simp]
theorem upstream_addK8sEvent (node : NodeId) (event : K8sEvent) (topology : Topology) :
    (topology.addK8sEvent node event).upstream = topology.upstream := by
  unfold addK8sEvent
  split <;> rfl

@[simp]
theorem downstream_addK8sEvent (node : NodeId) (event : K8sEvent) (topology : Topology) :
    (topology.addK8sEvent node event).downstream = topology.downstream := by
  unfold addK8sEvent
  split <;> rfl

theorem resolveUnknownNode_of_notMem {ip : String} (applicationName ns : String)
    {topology : Topology} (absent : NodeId.unresolved ip ∉ topology.nodes) :
    topology.resolveUnknownNode ip applicationName ns = topology := by
  rw [resolveUnknownNode, if_pos absent]

theorem resolveUnknownNode_of_mem {ip : String} (applicationName ns : String)
    {topology : Topology} (present : NodeId.unresolved ip ∈ topology.nodes) :
    ∃ nodeData, topology.nodes.lookup (NodeId.unresolved ip) = some nodeData ∧
      topology.resolveUnknownNode ip applicationName ns =
        { nodes := (topology.nodes.erase (NodeId.unresolved ip)).insertNew
            { applicationName, ns } nodeData
          upstream := (topology.upstream.moveRow (NodeId.unresolved ip)
            { applicationName, ns }).mapValues
              (List.map (Flow.rewire (NodeId.unresolved ip) { applicationName, ns }))
          downstream := (topology.downstream.moveRow (NodeId.unresolved ip)
            { applicationName, ns }).mapValues
              (List.map (Flow.rewire (NodeId.unresolved ip) { applicationName, ns })) } := by
  rcases Finmap.mem_iff.mp present with ⟨nodeData, found⟩
  refine ⟨nodeData, found, ?_⟩
  simp [resolveUnknownNode, present, found]

/-- After a resolution the nodes are those before it, with the stale node renamed. -/
theorem mem_nodes_resolveUnknownNode {ip applicationName ns : String} {topology : Topology}
    {node : NodeId} :
    node ∈ (topology.resolveUnknownNode ip applicationName ns).nodes ↔
      ∃ old ∈ topology.nodes,
        Function.update id (NodeId.unresolved ip) { applicationName, ns } old = node := by
  by_cases present : NodeId.unresolved ip ∈ topology.nodes
  · rcases resolveUnknownNode_of_mem applicationName ns present with ⟨nodeData, -, resolved⟩
    rw [resolved]
    simp only [Finmap.mem_insertNew, Finmap.mem_erase]
    constructor
    · rintro (rfl | ⟨ne, old⟩)
      · exact ⟨NodeId.unresolved ip, present, Function.update_self ..⟩
      · exact ⟨node, old, Function.update_of_ne ne ..⟩
    · rintro ⟨old, oldMem, rfl⟩
      by_cases stale : old = NodeId.unresolved ip
      · exact Or.inl (by rw [stale, Function.update_self])
      · rw [Function.update_of_ne stale]
        exact Or.inr ⟨stale, oldMem⟩
  · rw [resolveUnknownNode_of_notMem applicationName ns present]
    constructor
    · intro old
      refine ⟨node, old, Function.update_of_ne ?_ ..⟩
      rintro rfl
      exact present old
    · rintro ⟨old, oldMem, rfl⟩
      rw [Function.update_of_ne]
      · exact oldMem
      · rintro rfl
        exact present oldMem

end Topology

end Qubit
