import Qubit.Core.RestApi
import Qubit.Core.SubgraphTree

/-!
# The subgraph endpoint

`GET /api/topology/subgraph` serialises the result of `get_subgraph`, with the data
of each shown node. The result is meant to be closed: what its flows mention is
among its nodes. The node set follows the search and the flows of the root do not,
so this fails at depth zero, where the root shows all its outgoing flows and only
itself and its callers as nodes.
-/

namespace Qubit

open LevelSearch (Within)

structure SubgraphParams where
  service : String
  ns : String
  depth : Option UInt32

def SubgraphParams.root (params : SubgraphParams) : NodeId where
  applicationName := params.service
  ns := params.ns

namespace SubgraphResult

/-- The node is a key of one of the two maps of flows, or an endpoint of a flow in them. -/
def Mentions (result : SubgraphResult) (node : NodeId) : Prop :=
  node ∈ result.upstream ∨ node ∈ result.downstream ∨
    ∃ key flow, (flow ∈ result.upstream.row key ∨ flow ∈ result.downstream.row key) ∧
      (node = flow.sourceNode ∨ node = flow.destinationNode)

def Closed (result : SubgraphResult) : Prop :=
  ∀ node, result.Mentions node → node ∈ result.nodes

/-- The orders in which the set and the two maps of a result are iterated. -/
structure Listing (result : SubgraphResult) where
  nodes : List NodeId
  toFinset_nodes : nodes.toFinset = result.nodes
  upstream : AList fun _ : NodeId => List Flow
  toFinmap_upstream : upstream.toFinmap = result.upstream
  downstream : AList fun _ : NodeId => List Flow
  toFinmap_downstream : downstream.toFinmap = result.downstream

end SubgraphResult

namespace Handler

/-- The subgraph that is served; the depth defaults to one. -/
def subgraph (topology : Topology) (params : SubgraphParams) : SubgraphResult :=
  topology.getSubgraph params.service params.ns (params.depth.getD 1).toNat

def topologySubgraph (topology : Topology) (params : SubgraphParams)
    (listing : (subgraph topology params).Listing) : TopologyResponse where
  nodes := Finmap.collect (listing.nodes.filterMap fun id =>
    (topology.nodes.lookup id).map fun data => (id.key, id.toDto data))
  upstream := flowLists listing.upstream
  downstream := flowLists listing.downstream

/-- Every shown node that the topology has is in the response. -/
theorem key_mem_nodes_topologySubgraph {topology : Topology} {params : SubgraphParams}
    (listing : (subgraph topology params).Listing) {node : NodeId}
    (shown : node ∈ (subgraph topology params).nodes) (present : node ∈ topology.nodes) :
    node.key ∈ (topologySubgraph topology params listing).nodes := by
  rcases Finmap.mem_iff.mp present with ⟨data, found⟩
  have listed : node ∈ listing.nodes := by
    rw [← List.mem_toFinset, listing.toFinset_nodes]
    exact shown
  have entry : (node.key, node.toDto data) ∈ listing.nodes.filterMap fun id =>
      (topology.nodes.lookup id).map fun data => (id.key, id.toDto data) :=
    List.mem_filterMap.mpr ⟨node, listed, by simp [found]⟩
  rcases Finmap.exists_lookup_collect entry with ⟨dto, collected⟩
  exact Finmap.mem_of_lookup_eq_some collected

end Handler

namespace Topology

variable {topology : Topology}

/-- The shown nodes of a consistent topology are nodes of it. -/
theorem Consistent.mem_nodes_of_shown (consistent : topology.Consistent)
    {rootApp rootNs : String} (present : ⟨rootApp, rootNs⟩ ∈ topology.nodes) {depth : ℕ}
    {node : NodeId} (shown : node ∈ (topology.getSubgraph rootApp rootNs depth).nodes) :
    node ∈ topology.nodes := by
  rcases (mem_nodes_getSubgraph present).mp shown with within | ⟨flow, incoming, rfl⟩
  · exact consistent.mem_nodes_of_within present within
  · exact (consistent.ends_mem flow (Or.inl ⟨_, incoming⟩)).1

/-- Both ends of an edge of the search are shown. -/
theorem mem_nodes_of_mem_edges {rootApp rootNs : String}
    (present : ⟨rootApp, rootNs⟩ ∈ topology.nodes) {depth : ℕ} {parent child : NodeId}
    (edge : (parent, child) ∈ (topology.bfs ⟨rootApp, rootNs⟩ depth).edges) :
    parent ∈ (topology.getSubgraph rootApp rootNs depth).nodes ∧
      child ∈ (topology.getSubgraph rootApp rootNs depth).nodes := by
  have explored := topology.explored_bfs ⟨rootApp, rootNs⟩ depth
  rcases visited_of_mem_edges edge with ⟨parentVisited, childVisited⟩
  rw [mem_nodes_getSubgraph present, mem_nodes_getSubgraph present]
  exact ⟨Or.inl ((explored.mem_visited _).mp parentVisited),
    Or.inl ((explored.mem_visited _).mp childVisited)⟩

/-- Both endpoints of a shown flow are shown, unless it leaves the root. -/
theorem ends_mem_nodes_of_upstream (linked : topology.Linked) {rootApp rootNs : String}
    (present : ⟨rootApp, rootNs⟩ ∈ topology.nodes) {depth : ℕ} {node : NodeId} {flow : Flow}
    (shown : flow ∈ (topology.getSubgraph rootApp rootNs depth).upstream.row node) :
    flow.sourceNode ∈ (topology.getSubgraph rootApp rootNs depth).nodes ∧
      flow.destinationNode ∈ (topology.getSubgraph rootApp rootNs depth).nodes := by
  by_cases isRoot : node = ⟨rootApp, rootNs⟩
  · subst isRoot
    rw [upstream_row_root present] at shown
    rw [mem_nodes_getSubgraph present, mem_nodes_getSubgraph present,
      linked.upstream_keyed _ flow shown]
    exact ⟨Or.inr ⟨flow, shown, rfl⟩, Or.inl ⟨0, Nat.zero_le depth, LevelSearch.Hops.root⟩⟩
  · rcases (mem_upstream_getSubgraph present isRoot).mp shown with ⟨incoming, edge⟩
    rw [linked.upstream_keyed node flow incoming]
    exact mem_nodes_of_mem_edges present edge

/-- Either the search reaches what the root calls, or the root and its callers contain it. -/
def RootFlowsEndInside (topology : Topology) (root : NodeId) (depth : ℕ) : Prop :=
  1 ≤ depth ∨ ∀ flow ∈ topology.downstream.row root,
    flow.destinationNode = root ∨
      ∃ incoming ∈ topology.upstream.row root, incoming.sourceNode = flow.destinationNode

theorem ends_mem_nodes_of_downstream (linked : topology.Linked) {rootApp rootNs : String}
    (present : ⟨rootApp, rootNs⟩ ∈ topology.nodes) {depth : ℕ}
    (inside : topology.RootFlowsEndInside ⟨rootApp, rootNs⟩ depth) {node : NodeId} {flow : Flow}
    (shown : flow ∈ (topology.getSubgraph rootApp rootNs depth).downstream.row node) :
    flow.sourceNode ∈ (topology.getSubgraph rootApp rootNs depth).nodes ∧
      flow.destinationNode ∈ (topology.getSubgraph rootApp rootNs depth).nodes := by
  by_cases isRoot : node = ⟨rootApp, rootNs⟩
  · subst isRoot
    rw [downstream_row_root present] at shown
    rw [mem_nodes_getSubgraph present, mem_nodes_getSubgraph present,
      linked.downstream_keyed _ flow shown]
    refine ⟨Or.inl ⟨0, Nat.zero_le depth, LevelSearch.Hops.root⟩, ?_⟩
    rcases inside with positive | covered
    · exact Or.inl ⟨1, positive, LevelSearch.Hops.root.hop (mem_callees.mpr ⟨flow, shown, rfl⟩)⟩
    · rcases covered flow shown with isRoot | caller
      · exact Or.inl ⟨0, Nat.zero_le depth, isRoot ▸ LevelSearch.Hops.root⟩
      · exact Or.inr caller
  · rcases (mem_downstream_getSubgraph present isRoot).mp shown with ⟨outgoing, edge⟩
    rw [linked.downstream_keyed node flow outgoing]
    exact mem_nodes_of_mem_edges present edge

/-- The keys of the two maps of shown flows are visited nodes. -/
theorem mem_visited_of_key {flows : Finmap fun _ : NodeId => List Flow} {root node : NodeId}
    {depth : ℕ} {isTreeEdge : NodeId → Flow → Bool}
    (key : node ∈ visibleFlows flows root (topology.bfs root depth).visited isTreeEdge) :
    Within topology.callees root depth node := by
  rcases Finmap.mem_iff.mp key with ⟨shown, found⟩
  rw [lookup_visibleFlows] at found
  by_cases isRoot : node = root
  · exact ⟨0, Nat.zero_le depth, isRoot ▸ LevelSearch.Hops.root⟩
  · rw [if_neg isRoot] at found
    split at found
    · rename_i visible
      exact ((topology.explored_bfs root depth).mem_visited node).mp visible.1
    · cases found

/-- The result is closed exactly when the flows that leave the root end at shown nodes. -/
theorem closed_getSubgraph_iff (linked : topology.Linked) {rootApp rootNs : String}
    (present : ⟨rootApp, rootNs⟩ ∈ topology.nodes) {depth : ℕ} :
    (topology.getSubgraph rootApp rootNs depth).Closed ↔
      topology.RootFlowsEndInside ⟨rootApp, rootNs⟩ depth := by
  constructor
  · intro closed
    by_cases positive : 1 ≤ depth
    · exact Or.inl positive
    · right
      intro flow outgoing
      have shown : flow ∈ (topology.getSubgraph rootApp rootNs depth).downstream.row
          ⟨rootApp, rootNs⟩ := by
        rwa [downstream_row_root present]
      have destination := closed flow.destinationNode
        (Or.inr (Or.inr ⟨_, flow, Or.inr shown, Or.inr rfl⟩))
      have depth_eq : depth = 0 := by omega
      rw [mem_nodes_getSubgraph present, depth_eq, LevelSearch.within_zero] at destination
      exact destination
  · rintro inside node (key | key | ⟨other, flow, shown | shown, isEnd⟩)
    · rw [getSubgraph_of_mem present] at key
      exact (mem_nodes_getSubgraph present).mpr (Or.inl (mem_visited_of_key key))
    · rw [getSubgraph_of_mem present] at key
      exact (mem_nodes_getSubgraph present).mpr (Or.inl (mem_visited_of_key key))
    · rcases ends_mem_nodes_of_upstream linked present shown with ⟨source, destination⟩
      rcases isEnd with rfl | rfl
      · exact source
      · exact destination
    · rcases ends_mem_nodes_of_downstream linked present inside shown with
        ⟨source, destination⟩
      rcases isEnd with rfl | rfl
      · exact source
      · exact destination

end Topology

namespace Handler

/--
What the flows of the served subgraph mention is among its nodes, and in the response, exactly
when the depth is not zero or the root calls nothing but itself and its callers.
-/
theorem subgraph_closed_iff {topology : Topology} (consistent : topology.Consistent)
    {params : SubgraphParams} (present : params.root ∈ topology.nodes) :
    ((subgraph topology params).Closed ∧
      ∀ (listing : (subgraph topology params).Listing) (node : NodeId),
        (subgraph topology params).Mentions node →
          node.key ∈ (topologySubgraph topology params listing).nodes) ↔
      (params.depth ≠ some 0 ∨ ∀ flow ∈ topology.downstream.row params.root,
        flow.destinationNode = params.root ∨
          ∃ incoming ∈ topology.upstream.row params.root,
            incoming.sourceNode = flow.destinationNode) := by
  have positive_iff : 1 ≤ (params.depth.getD 1).toNat ↔ params.depth ≠ some 0 := by
    cases params.depth with
    | none => simp
    | some depth => simp [Nat.one_le_iff_ne_zero, ← UInt32.toNat_inj]
  have closed_iff : (subgraph topology params).Closed ↔
      topology.RootFlowsEndInside params.root (params.depth.getD 1).toNat :=
    Topology.closed_getSubgraph_iff consistent.toLinked present
  rw [Topology.RootFlowsEndInside, positive_iff] at closed_iff
  constructor
  · rintro ⟨closed, -⟩
    exact closed_iff.mp closed
  · intro inside
    have closed := closed_iff.mpr inside
    refine ⟨closed, ?_⟩
    intro listing node mentioned
    have shown := closed node mentioned
    exact key_mem_nodes_topologySubgraph listing shown
      (consistent.mem_nodes_of_shown present shown)

theorem subgraph_closed_triangle_iff :
    let topology := (CoreState.empty.run CoreState.triangle).topology
    ((subgraph topology ⟨"db", "default", some 0⟩).Closed ∧
      ∀ (listing : (subgraph topology ⟨"db", "default", some 0⟩).Listing) (node : NodeId),
        (subgraph topology ⟨"db", "default", some 0⟩).Mentions node →
          node.key ∈ (topologySubgraph topology ⟨"db", "default", some 0⟩ listing).nodes) ↔
      ((some 0 : Option UInt32) ≠ some 0 ∨
        ∀ flow ∈ topology.downstream.row ⟨"db", "default"⟩,
          flow.destinationNode = ⟨"db", "default"⟩ ∨
            ∃ incoming ∈ topology.upstream.row ⟨"db", "default"⟩,
              incoming.sourceNode = flow.destinationNode) :=
  subgraph_closed_iff (CoreState.isView_run CoreState.triangle).coherent.consistent
    (by decide +kernel)

theorem exists_subgraph_not_closed :
    ¬∀ topology : Topology, topology.Consistent → ∀ params : SubgraphParams,
      params.root ∈ topology.nodes → (subgraph topology params).Closed := by
  intro closed
  have inside := (Topology.closed_getSubgraph_iff
    (CoreState.isView_run CoreState.triangle).coherent.consistent.toLinked
    (by decide +kernel)).mp
    (closed _ (CoreState.isView_run CoreState.triangle).coherent.consistent
      ⟨"web", "default", some 0⟩ (by decide +kernel))
  rw [Topology.RootFlowsEndInside] at inside
  revert inside
  decide +kernel

end Handler

end Qubit
