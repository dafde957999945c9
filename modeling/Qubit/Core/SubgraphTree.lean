import Qubit.Core.Subgraph

/-!
# The tree below the root

On a topology whose two maps of flows mirror each other, each node of a subgraph
other than the root shows the flows from one parent, which is one hop closer to the
root, and both maps show the same flows. The discoveries of a search are never
revised by further levels, so a larger depth extends every shown list in place, up
to the number of nodes.
-/

namespace Qubit

open LevelSearch (Within AtDistance)

/-- One service calls two others, and one of these calls the other. -/
def CoreState.triangle : List Request :=
  [.sendPodEvent ⟨"10.0.0.1", "default", 0, "web", "web", "ClusterIP"⟩,
    .sendPodEvent ⟨"10.0.0.2", "default", 0, "api", "api", "ClusterIP"⟩,
    .sendPodEvent ⟨"10.0.0.3", "default", 0, "db", "db", "ClusterIP"⟩,
    .sendEbpfNetworkEvent ⟨16777226, 33554442, "GET", "/", "10.0.0.2"⟩,
    .sendEbpfNetworkEvent ⟨16777226, 50331658, "GET", "/", "10.0.0.3"⟩,
    .sendEbpfNetworkEvent ⟨33554442, 50331658, "GET", "/", "10.0.0.3"⟩]

namespace Topology

/-- Both maps store the same flows, each under its own endpoint. -/
structure Linked (topology : Topology) : Prop where
  upstream_keyed : ∀ node, ∀ flow ∈ topology.upstream.row node, flow.destinationNode = node
  downstream_keyed : ∀ node, ∀ flow ∈ topology.downstream.row node, flow.sourceNode = node
  mirrored : ∀ flow, flow ∈ topology.upstream.row flow.destinationNode ↔
    flow ∈ topology.downstream.row flow.sourceNode

/-- A linked topology in which both endpoints of every flow are nodes. -/
structure Consistent (topology : Topology) : Prop extends topology.Linked where
  ends_mem : ∀ flow, topology.Stores flow →
    flow.sourceNode ∈ topology.nodes ∧ flow.destinationNode ∈ topology.nodes

theorem Coherent.consistent {topology : Topology} (coherent : topology.Coherent) :
    topology.Consistent where
  upstream_keyed := coherent.upstream_keyed
  downstream_keyed := coherent.downstream_keyed
  mirrored := by
    intro flow
    rw [← List.count_pos_iff, ← List.count_pos_iff, coherent.mirrored]
  ends_mem := by
    intro flow stored
    exact ⟨(coherent.mem_nodes _).mpr ⟨flow, stored, Or.inl rfl⟩,
      (coherent.mem_nodes _).mpr ⟨flow, stored, Or.inr rfl⟩⟩

namespace Linked

variable {topology : Topology}

theorem mem_downstream_of_stores (linked : topology.Linked) {flow : Flow}
    (stored : topology.Stores flow) : flow ∈ topology.downstream.row flow.sourceNode := by
  rcases stored with ⟨node, listed⟩ | ⟨node, listed⟩
  · rw [← linked.mirrored, linked.upstream_keyed node flow listed]
    exact listed
  · rwa [linked.downstream_keyed node flow listed]

theorem mem_upstream_of_stores (linked : topology.Linked) {flow : Flow}
    (stored : topology.Stores flow) : flow ∈ topology.upstream.row flow.destinationNode :=
  (linked.mirrored flow).mpr (linked.mem_downstream_of_stores stored)

end Linked

variable {topology : Topology}

theorem visited_of_mem_edges {root parent child : NodeId} {depth : ℕ}
    (edge : (parent, child) ∈ (topology.bfs root depth).edges) :
    parent ∈ (topology.bfs root depth).visited ∧ child ∈ (topology.bfs root depth).visited := by
  have explored := topology.explored_bfs root depth
  rcases explored.edge_distance _ edge with ⟨distance, distance_lt, parentAt, childAt⟩
  rw [explored.mem_visited, explored.mem_visited]
  exact ⟨parentAt.within.mono (by omega), childAt.within.mono (by omega)⟩

/-- From depth one on, every node the root calls is discovered from the root. -/
theorem mem_edges_of_mem_callees_root {root child : NodeId} {depth : ℕ} (positive : 1 ≤ depth)
    (called : child ∈ topology.callees root) (ne : child ≠ root) :
    (root, child) ∈ (topology.bfs root depth).edges := by
  have explored := topology.explored_bfs root depth
  have childAt : AtDistance topology.callees root 1 child := by
    rw [LevelSearch.atDistance_succ_iff]
    simp [ne, called]
  have visited : child ∈ (topology.bfs root depth).visited :=
    (explored.mem_visited child).mpr (childAt.within.mono positive)
  rcases explored.exists_edge child visited ne with ⟨⟨parent, other⟩, edgeMem, rfl⟩
  rcases explored.edge_distance _ edgeMem with ⟨distance, -, parentAt, otherAt⟩
  have distance_eq : distance = 0 := by
    have := otherAt.eq childAt
    omega
  subst distance_eq
  have parent_eq : parent = root := LevelSearch.atDistance_zero.mp parentAt
  rwa [parent_eq] at edgeMem

/-- Away from the root, the shown incoming flows are those along discoveries. -/
theorem mem_upstream_getSubgraph {rootApp rootNs : String}
    (present : ⟨rootApp, rootNs⟩ ∈ topology.nodes) {depth : ℕ} {node : NodeId} {flow : Flow}
    (ne : node ≠ ⟨rootApp, rootNs⟩) :
    flow ∈ (topology.getSubgraph rootApp rootNs depth).upstream.row node ↔
      flow ∈ topology.upstream.row node ∧
        (flow.sourceNode, node) ∈ (topology.bfs ⟨rootApp, rootNs⟩ depth).edges := by
  rw [getSubgraph_of_mem present, row_visibleFlows, if_neg ne]
  split
  · simp [List.mem_filter]
  · rename_i unvisited
    simp only [List.not_mem_nil, false_iff, not_and]
    intro _ edge
    exact unvisited (visited_of_mem_edges edge).2

theorem mem_downstream_getSubgraph {rootApp rootNs : String}
    (present : ⟨rootApp, rootNs⟩ ∈ topology.nodes) {depth : ℕ} {node : NodeId} {flow : Flow}
    (ne : node ≠ ⟨rootApp, rootNs⟩) :
    flow ∈ (topology.getSubgraph rootApp rootNs depth).downstream.row node ↔
      flow ∈ topology.downstream.row node ∧
        (node, flow.destinationNode) ∈ (topology.bfs ⟨rootApp, rootNs⟩ depth).edges := by
  rw [getSubgraph_of_mem present, row_visibleFlows, if_neg ne]
  split
  · simp [List.mem_filter]
  · rename_i unvisited
    simp only [List.not_mem_nil, false_iff, not_and]
    intro _ edge
    exact unvisited (visited_of_mem_edges edge).1

theorem upstream_row_root {rootApp rootNs : String}
    (present : ⟨rootApp, rootNs⟩ ∈ topology.nodes) (depth : ℕ) :
    (topology.getSubgraph rootApp rootNs depth).upstream.row ⟨rootApp, rootNs⟩ =
      topology.upstream.row ⟨rootApp, rootNs⟩ := by
  rw [getSubgraph_of_mem present, row_visibleFlows, if_pos rfl]

theorem downstream_row_root {rootApp rootNs : String}
    (present : ⟨rootApp, rootNs⟩ ∈ topology.nodes) (depth : ℕ) :
    (topology.getSubgraph rootApp rootNs depth).downstream.row ⟨rootApp, rootNs⟩ =
      topology.downstream.row ⟨rootApp, rootNs⟩ := by
  rw [getSubgraph_of_mem present, row_visibleFlows, if_pos rfl]

/-- A node of the tree other than the root shows all flows from its parent, and no others. -/
theorem exists_parent (linked : topology.Linked) {rootApp rootNs : String}
    (present : ⟨rootApp, rootNs⟩ ∈ topology.nodes) {depth : ℕ} {node : NodeId}
    (within : Within topology.callees ⟨rootApp, rootNs⟩ depth node)
    (ne : node ≠ ⟨rootApp, rootNs⟩) :
    ∃ parent distance, distance + 1 ≤ depth ∧
      AtDistance topology.callees ⟨rootApp, rootNs⟩ distance parent ∧
      AtDistance topology.callees ⟨rootApp, rootNs⟩ (distance + 1) node ∧
      ∃ flows, (topology.getSubgraph rootApp rootNs depth).upstream.lookup node = some flows ∧
        flows ≠ [] ∧ (∀ flow ∈ flows, flow.sourceNode = parent) ∧
        ∀ flow, topology.Stores flow → flow.sourceNode = parent →
          flow.destinationNode = node → flow ∈ flows := by
  have explored := topology.explored_bfs ⟨rootApp, rootNs⟩ depth
  have visited := (explored.mem_visited node).mpr within
  rcases explored.exists_edge node visited ne with ⟨⟨parent, child⟩, edgeMem, rfl⟩
  rcases explored.edge_distance _ edgeMem with ⟨distance, distance_lt, parentAt, childAt⟩
  have parentFlows : ∀ flow, topology.Stores flow → flow.sourceNode = parent →
      flow.destinationNode = child →
      flow ∈ (topology.getSubgraph rootApp rootNs depth).upstream.row child := by
    intro flow stored source destination
    rw [mem_upstream_getSubgraph present ne, source]
    refine ⟨?_, edgeMem⟩
    rw [← destination]
    exact linked.mem_upstream_of_stores stored
  rcases mem_callees.mp (explored.edge_link _ edgeMem) with ⟨linking, linkingMem, destination⟩
  have linkingShown := parentFlows linking (Or.inr ⟨parent, linkingMem⟩)
    (linked.downstream_keyed parent linking linkingMem) destination
  refine ⟨parent, distance, distance_lt, parentAt, childAt, ?_⟩
  rw [Finmap.row] at linkingShown
  cases found : (topology.getSubgraph rootApp rootNs depth).upstream.lookup child with
  | none => simp [found] at linkingShown
  | some flows =>
      have row_eq : (topology.getSubgraph rootApp rootNs depth).upstream.row child = flows := by
        rw [Finmap.row, found, Option.getD_some]
      rw [row_eq] at parentFlows
      rw [found, Option.getD_some] at linkingShown
      refine ⟨flows, rfl, List.ne_nil_of_mem linkingShown, ?_, parentFlows⟩
      intro flow flowMem
      rw [← row_eq, mem_upstream_getSubgraph present ne] at flowMem
      have sameEdge := explored.edge_unique _ flowMem.2 _ edgeMem rfl
      exact congrArg Prod.fst sameEdge

/-- A flow that does not enter the root is shown in both maps or in neither. -/
theorem shown_upstream_iff_downstream (linked : topology.Linked) {rootApp rootNs : String}
    (present : ⟨rootApp, rootNs⟩ ∈ topology.nodes) {depth : ℕ} (positive : 1 ≤ depth)
    {flow : Flow} (ne : flow.destinationNode ≠ ⟨rootApp, rootNs⟩) :
    flow ∈ (topology.getSubgraph rootApp rootNs depth).upstream.row flow.destinationNode ↔
      flow ∈ (topology.getSubgraph rootApp rootNs depth).downstream.row flow.sourceNode := by
  rw [mem_upstream_getSubgraph present ne, linked.mirrored]
  by_cases fromRoot : flow.sourceNode = ⟨rootApp, rootNs⟩
  · rw [fromRoot, downstream_row_root present]
    constructor
    · exact And.left
    · intro outgoing
      refine ⟨outgoing, mem_edges_of_mem_callees_root positive ?_ ne⟩
      exact mem_callees.mpr ⟨flow, outgoing, rfl⟩
  · rw [mem_downstream_getSubgraph present fromRoot]

/-- Below the root the shown flows form a tree of shortest paths. -/
theorem getSubgraph_isTree (linked : topology.Linked) {rootApp rootNs : String}
    (present : ⟨rootApp, rootNs⟩ ∈ topology.nodes) {depth : ℕ} (positive : 1 ≤ depth) :
    let root : NodeId := { applicationName := rootApp, ns := rootNs }
    let result := topology.getSubgraph rootApp rootNs depth
    (∀ node, Within topology.callees root depth node → node ≠ root →
      ∃ parent distance, distance + 1 ≤ depth ∧
        AtDistance topology.callees root distance parent ∧
        AtDistance topology.callees root (distance + 1) node ∧
        ∃ flows, result.upstream.lookup node = some flows ∧ flows ≠ [] ∧
          (∀ flow ∈ flows, flow.sourceNode = parent) ∧
          ∀ flow, topology.Stores flow → flow.sourceNode = parent →
            flow.destinationNode = node → flow ∈ flows) ∧
      ∀ flow : Flow, flow.destinationNode ≠ root →
        (flow ∈ result.upstream.row flow.destinationNode ↔
          flow ∈ result.downstream.row flow.sourceNode) := by
  intro root result
  refine ⟨?_, ?_⟩
  · intro node within ne
    exact exists_parent linked present within ne
  · intro flow ne
    exact shown_upstream_iff_downstream linked present positive ne

theorem getSubgraph_isTree_triangle :
    let topology := (CoreState.empty.run CoreState.triangle).topology
    let root : NodeId := { applicationName := "web", ns := "default" }
    let result := topology.getSubgraph "web" "default" 2
    (∀ node, Within topology.callees root 2 node → node ≠ root →
      ∃ parent distance, distance + 1 ≤ 2 ∧
        AtDistance topology.callees root distance parent ∧
        AtDistance topology.callees root (distance + 1) node ∧
        ∃ flows, result.upstream.lookup node = some flows ∧ flows ≠ [] ∧
          (∀ flow ∈ flows, flow.sourceNode = parent) ∧
          ∀ flow, topology.Stores flow → flow.sourceNode = parent →
            flow.destinationNode = node → flow ∈ flows) ∧
      ∀ flow : Flow, flow.destinationNode ≠ root →
        (flow ∈ result.upstream.row flow.destinationNode ↔
          flow ∈ result.downstream.row flow.sourceNode) :=
  getSubgraph_isTree (CoreState.isView_run CoreState.triangle).coherent.consistent.toLinked
    (by decide +kernel) (by decide)

/-! ## Larger depths -/

/-- More visited nodes and more tree edges extend every shown list in place. -/
theorem visibleFlows_mono {flows : Finmap fun _ : NodeId => List Flow} {root node : NodeId}
    {visited moreVisited : Finset NodeId} {isTreeEdge isMoreTreeEdge : NodeId → Flow → Bool}
    (visited_subset : visited ⊆ moreVisited)
    (treeEdge_imp : ∀ node flow, isTreeEdge node flow → isMoreTreeEdge node flow)
    {shown : List Flow}
    (found : (visibleFlows flows root visited isTreeEdge).lookup node = some shown) :
    ∃ more, (visibleFlows flows root moreVisited isMoreTreeEdge).lookup node = some more ∧
      shown.Sublist more := by
  rw [lookup_visibleFlows] at found ⊢
  by_cases isRoot : node = root
  · rw [if_pos isRoot] at found ⊢
    exact ⟨shown, found, List.Sublist.refl shown⟩
  · rw [if_neg isRoot] at found ⊢
    split at found
    · rename_i visible
      rw [Option.some.injEq] at found
      subst found
      have extended : ((flows.row node).filter (isTreeEdge node)).Sublist
          ((flows.row node).filter (isMoreTreeEdge node)) :=
        List.monotone_filter_right _ (treeEdge_imp node)
      refine ⟨_, if_pos ⟨visited_subset visible.1, ?_⟩, extended⟩
      intro empty
      rw [empty, List.sublist_nil] at extended
      exact visible.2 extended
    · cases found

/-- Every node within some depth of a node of the topology is a node of the topology. -/
theorem Consistent.mem_nodes_of_within (consistent : topology.Consistent) {root node : NodeId}
    {depth : ℕ} (present : root ∈ topology.nodes)
    (within : Within topology.callees root depth node) : node ∈ topology.nodes := by
  rcases within with ⟨count, -, reached⟩
  cases reached with
  | root => exact present
  | hop _ link =>
      rcases mem_callees.mp link with ⟨flow, flowMem, rfl⟩
      exact (consistent.ends_mem flow (Or.inr ⟨_, flowMem⟩)).2

/-- A larger depth only adds to the subgraph, and none adds once it is the number of nodes. -/
theorem getSubgraph_grows_and_saturates (consistent : topology.Consistent)
    {rootApp rootNs : String} (present : ⟨rootApp, rootNs⟩ ∈ topology.nodes) (depth : ℕ) :
    let result := topology.getSubgraph rootApp rootNs depth
    let deeper := topology.getSubgraph rootApp rootNs (depth + 1)
    (∀ node flows, result.upstream.lookup node = some flows →
      ∃ more, deeper.upstream.lookup node = some more ∧ flows.Sublist more) ∧
      (∀ node flows, result.downstream.lookup node = some flows →
        ∃ more, deeper.downstream.lookup node = some more ∧ flows.Sublist more) ∧
      (topology.nodes.keys.card ≤ depth →
        result = topology.getSubgraph rootApp rootNs topology.nodes.keys.card) := by
  intro result deeper
  have visited_subset : (topology.bfs ⟨rootApp, rootNs⟩ depth).visited ⊆
      (topology.bfs ⟨rootApp, rootNs⟩ (depth + 1)).visited :=
    LevelSearch.visited_subset_succ ..
  have edges_subset : (topology.bfs ⟨rootApp, rootNs⟩ depth).edges ⊆
      (topology.bfs ⟨rootApp, rootNs⟩ (depth + 1)).edges :=
    LevelSearch.edges_subset_succ ..
  simp only [result, deeper, getSubgraph_of_mem present]
  refine ⟨?_, ?_, ?_⟩
  · intro node flows found
    refine visibleFlows_mono visited_subset ?_ found
    intro child flow edge
    simp only [decide_eq_true_eq] at edge ⊢
    exact edges_subset edge
  · intro node flows found
    refine visibleFlows_mono visited_subset ?_ found
    intro parent flow edge
    simp only [decide_eq_true_eq] at edge ⊢
    exact edges_subset edge
  · intro card_le
    have saturated : topology.bfs ⟨rootApp, rootNs⟩ depth =
        topology.bfs ⟨rootApp, rootNs⟩ topology.nodes.keys.card := by
      refine LevelSearch.levels_eq_of_card_le ?_ card_le
      intro deep node within
      exact Finmap.mem_keys.mpr (consistent.mem_nodes_of_within present within)
    rw [saturated]

theorem getSubgraph_saturates_triangle :
    let topology := (CoreState.empty.run CoreState.triangle).topology
    let result := topology.getSubgraph "web" "default" 4
    let deeper := topology.getSubgraph "web" "default" (4 + 1)
    (∀ node flows, result.upstream.lookup node = some flows →
      ∃ more, deeper.upstream.lookup node = some more ∧ flows.Sublist more) ∧
      (∀ node flows, result.downstream.lookup node = some flows →
        ∃ more, deeper.downstream.lookup node = some more ∧ flows.Sublist more) ∧
      (topology.nodes.keys.card ≤ 4 →
        result = topology.getSubgraph "web" "default" topology.nodes.keys.card) :=
  getSubgraph_grows_and_saturates (CoreState.isView_run CoreState.triangle).coherent.consistent
    (by decide +kernel) 4

end Topology

end Qubit
