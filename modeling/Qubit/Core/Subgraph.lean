import Qubit.Core.Coherence
import Qubit.Lib.LevelSearch

/-!
# The subgraph around one service

`get_subgraph` searches level by level along the outgoing flows of a root and shows
a tree: every node found keeps only the flows from the node that discovered it. The
root keeps its whole lists, and its callers are shown as nodes.

The shown nodes are those within the depth, with the callers. On a graph whose two
maps mirror each other the shown flows below the root form a tree of shortest paths,
seen alike from both maps, and a larger depth only adds to it.
-/

namespace Qubit

structure SubgraphResult where
  nodes : Finset NodeId
  /-- By destination; only tree edges for nodes other than the root. -/
  upstream : Finmap fun _ : NodeId => List Flow
  /-- By source; only tree edges for nodes other than the root. -/
  downstream : Finmap fun _ : NodeId => List Flow
deriving DecidableEq

/--
One of the two maps of shown flows: the whole list of the root, and of every other visited node
the tree edges, when there are any. The set of visited nodes is iterated in some order, but no
step depends on another.
-/
def visibleFlows (flows : Finmap fun _ : NodeId => List Flow) (root : NodeId)
    (visited : Finset NodeId) (isTreeEdge : NodeId → Flow → Bool) :
    Finmap fun _ : NodeId => List Flow :=
  let treeFlows := Finmap.tabulate (visited.erase root) fun node =>
    let kept := (flows.row node).filter (isTreeEdge node)
    if kept.isEmpty then none else some kept
  match flows.lookup root with
  | none => treeFlows
  | some rootFlows => treeFlows.insert root rootFlows

namespace Topology

/-- The destinations of the outgoing flows of a node, one for each flow. -/
def callees (topology : Topology) (node : NodeId) : List NodeId :=
  (topology.downstream.row node).map Flow.destinationNode

/-- The search from `root` after at most `depth` levels. -/
def bfs (topology : Topology) (root : NodeId) (depth : ℕ) : LevelSearch.Search NodeId :=
  LevelSearch.levels topology.callees depth (LevelSearch.start root)

def getSubgraph (rootApp rootNs : String) (depth : ℕ) (topology : Topology) : SubgraphResult :=
  let root : NodeId := { applicationName := rootApp, ns := rootNs }
  if root ∉ topology.nodes then { nodes := ∅, upstream := ∅, downstream := ∅ }
  else
    let search := topology.bfs root depth
    { nodes := search.visited ∪ ((topology.upstream.row root).map Flow.sourceNode).toFinset
      upstream := visibleFlows topology.upstream root search.visited fun node flow =>
        (flow.sourceNode, node) ∈ search.edges
      downstream := visibleFlows topology.downstream root search.visited fun node flow =>
        (node, flow.destinationNode) ∈ search.edges }

end Topology

/-! ## What is shown -/

theorem lookup_visibleFlows (flows : Finmap fun _ : NodeId => List Flow) (root : NodeId)
    (visited : Finset NodeId) (isTreeEdge : NodeId → Flow → Bool) (node : NodeId) :
    (visibleFlows flows root visited isTreeEdge).lookup node =
      if node = root then flows.lookup root
      else if node ∈ visited ∧ (flows.row node).filter (isTreeEdge node) ≠ [] then
        some ((flows.row node).filter (isTreeEdge node))
      else none := by
  have below : ∀ other, other ≠ root →
      (Finmap.tabulate (visited.erase root) fun node =>
        if ((flows.row node).filter (isTreeEdge node)).isEmpty then none
        else some ((flows.row node).filter (isTreeEdge node))).lookup other =
      if other ∈ visited ∧ (flows.row other).filter (isTreeEdge other) ≠ [] then
        some ((flows.row other).filter (isTreeEdge other))
      else none := by
    intro other ne
    rw [Finmap.lookup_tabulate]
    by_cases shown : other ∈ visited
    · by_cases none : (flows.row other).filter (isTreeEdge other) = []
      · simp [none]
      · simp [ne, shown, none]
    · simp [shown]
  unfold visibleFlows
  by_cases isRoot : node = root
  · subst isRoot
    cases found : flows.lookup node with
    | none => simp
    | some rootFlows => simp
  · cases found : flows.lookup root with
    | none => simpa [isRoot] using below node isRoot
    | some rootFlows =>
        simpa [isRoot, Finmap.lookup_insert_of_ne] using below node isRoot

theorem row_visibleFlows (flows : Finmap fun _ : NodeId => List Flow) (root : NodeId)
    (visited : Finset NodeId) (isTreeEdge : NodeId → Flow → Bool) (node : NodeId) :
    (visibleFlows flows root visited isTreeEdge).row node =
      if node = root then flows.row root
      else if node ∈ visited then (flows.row node).filter (isTreeEdge node)
      else [] := by
  rw [Finmap.row, lookup_visibleFlows]
  by_cases isRoot : node = root
  · simp [isRoot, Finmap.row]
  · by_cases shown : node ∈ visited
    · by_cases empty : (flows.row node).filter (isTreeEdge node) = []
      · simp [isRoot, shown, empty]
      · simp [isRoot, shown, empty]
    · simp [isRoot, shown]

namespace Topology

theorem explored_bfs (topology : Topology) (root : NodeId) (depth : ℕ) :
    LevelSearch.Explored topology.callees root depth (topology.bfs root depth) :=
  LevelSearch.explored_levels topology.callees root depth

theorem mem_callees {topology : Topology} {node next : NodeId} :
    next ∈ topology.callees node ↔
      ∃ flow ∈ topology.downstream.row node, flow.destinationNode = next :=
  List.mem_map

theorem getSubgraph_of_notMem {rootApp rootNs : String} {topology : Topology}
    (absent : ⟨rootApp, rootNs⟩ ∉ topology.nodes) (depth : ℕ) :
    topology.getSubgraph rootApp rootNs depth =
      { nodes := ∅, upstream := ∅, downstream := ∅ } :=
  if_pos absent

theorem getSubgraph_of_mem {rootApp rootNs : String} {topology : Topology}
    (present : ⟨rootApp, rootNs⟩ ∈ topology.nodes) (depth : ℕ) :
    topology.getSubgraph rootApp rootNs depth =
      { nodes := (topology.bfs ⟨rootApp, rootNs⟩ depth).visited ∪
          ((topology.upstream.row ⟨rootApp, rootNs⟩).map Flow.sourceNode).toFinset
        upstream := visibleFlows topology.upstream ⟨rootApp, rootNs⟩
          (topology.bfs ⟨rootApp, rootNs⟩ depth).visited fun node flow =>
            (flow.sourceNode, node) ∈ (topology.bfs ⟨rootApp, rootNs⟩ depth).edges
        downstream := visibleFlows topology.downstream ⟨rootApp, rootNs⟩
          (topology.bfs ⟨rootApp, rootNs⟩ depth).visited fun node flow =>
            (node, flow.destinationNode) ∈ (topology.bfs ⟨rootApp, rootNs⟩ depth).edges } :=
  if_neg (not_not_intro present)

theorem mem_nodes_getSubgraph {topology : Topology} {rootApp rootNs : String}
    (present : ⟨rootApp, rootNs⟩ ∈ topology.nodes) {depth : ℕ} {node : NodeId} :
    node ∈ (topology.getSubgraph rootApp rootNs depth).nodes ↔
      LevelSearch.Within topology.callees ⟨rootApp, rootNs⟩ depth node ∨
        ∃ flow ∈ topology.upstream.row ⟨rootApp, rootNs⟩, flow.sourceNode = node := by
  rw [getSubgraph_of_mem present, Finset.mem_union, List.mem_toFinset, List.mem_map,
    (topology.explored_bfs ⟨rootApp, rootNs⟩ depth).mem_visited]

/-- The shown nodes are those within the depth, with the callers of the root. -/
theorem nodes_getSubgraph (topology : Topology) (rootApp rootNs : String) :
    let root : NodeId := { applicationName := rootApp, ns := rootNs }
    (root ∈ topology.nodes → ∀ depth node,
      node ∈ (topology.getSubgraph rootApp rootNs depth).nodes ↔
        LevelSearch.Within topology.callees root depth node ∨
          ∃ flow ∈ topology.upstream.row root, flow.sourceNode = node) ∧
      (root ∉ topology.nodes → ∀ depth, topology.getSubgraph rootApp rootNs depth =
        { nodes := ∅, upstream := ∅, downstream := ∅ }) := by
  intro root
  constructor
  · intro present depth node
    rw [getSubgraph_of_mem present, Finset.mem_union, List.mem_toFinset, List.mem_map,
      (topology.explored_bfs root depth).mem_visited]
  · exact getSubgraph_of_notMem

end Topology

end Qubit
