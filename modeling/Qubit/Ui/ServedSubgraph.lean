import Qubit.Core.SubgraphApi
import Qubit.Ui.TopologyView

/-!
# The canvas and the backend

A click on a node asks Core for the subgraph around it. The data that comes back is laid
out as it is: whatever the canvas showed before, and whether unconnected nodes are hidden
or not, it shows what the search in Core has found. The page does not look at the request
that is answered, so the last answer is shown, also if it is about a node that is not the
selected one any more.
-/

namespace Qubit.Ui

open LevelSearch (Within)

namespace SubgraphRequest

def root (request : SubgraphRequest) : NodeId where
  applicationName := request.service
  ns := request.ns

/-- What Core reads; a depth that does not fit into 32 bits is refused. -/
def params? (request : SubgraphRequest) : Option SubgraphParams :=
  if request.depth < 2 ^ 32 then
    some
      { service := request.service
        ns := request.ns
        depth := some (UInt32.ofNat request.depth) }
  else none

/-- The data is the JSON of Core's answer, for some orders of its maps. -/
def Answers (topology : Topology) (request : SubgraphRequest) (data : QubitTopology) : Prop :=
  ∃ params ∈ request.params?, ∃ listing : (Handler.subgraph topology params).Listing,
    ∃ nodes upstream downstream,
      data = { nodes := some nodes, upstream := some upstream, downstream := some downstream } ∧
      nodes.toFinmap = (Handler.topologySubgraph topology params listing).nodes ∧
      upstream.toFinmap = (Handler.topologySubgraph topology params listing).upstream ∧
      downstream.toFinmap = (Handler.topologySubgraph topology params listing).downstream

/-- The node is within the depth of the request, or calls its root. -/
def Covers (topology : Topology) (request : SubgraphRequest) (node : NodeId) : Prop :=
  Within topology.callees request.root request.depth node ∨
    ∃ flow ∈ topology.upstream.row request.root, flow.sourceNode = node

theorem root_of_subgraphRequest? {node : NodeId} (plain : node.Plain) (depth : ℕ∞) :
    ∃ request, subgraphRequest? node.key depth = some request ∧ request.root = node ∧
      request.depth = if depth = ⊤ then 999 else depth.toNat := by
  rw [subgraphRequest?, NodeId.fetchSubgraph_key_iff.mpr plain]
  exact ⟨_, rfl, rfl, rfl⟩

/-- The answer lists the texts of the nodes that the request covers. -/
theorem exists_nodes_of_answers {topology : Topology} (consistent : topology.Consistent)
    {request : SubgraphRequest} (present : request.root ∈ topology.nodes) {data : QubitTopology}
    (answers : Answers topology request data) :
    ∃ nodes, data.nodes = some nodes ∧
      ∀ id, id ∈ nodes.keys ↔ ∃ node, node.key = id ∧ request.Covers topology node := by
  rcases answers with ⟨params, params_eq, listing, nodes, upstream, downstream, rfl, sent, -, -⟩
  refine ⟨nodes, rfl, ?_⟩
  rw [params?] at params_eq
  split at params_eq
  · rename_i fits
    have sameDepth : (params.depth.getD 1).toNat = request.depth := by
      rw [← Option.some.inj params_eq]
      exact UInt32.toNat_ofNat_of_lt' fits
    have covers_iff (node : NodeId) :
        node ∈ (Handler.subgraph topology params).nodes ↔ request.Covers topology node := by
      rw [Handler.subgraph, sameDepth, ← Option.some.inj params_eq]
      exact Topology.mem_nodes_getSubgraph present
    intro id
    have listed : id ∈ nodes.keys ↔
        id ∈ (Handler.topologySubgraph topology params listing).nodes := by
      rw [← sent]
      exact Iff.rfl
    rw [listed, Handler.topologySubgraph]
    constructor
    · intro idMem
      rcases Finmap.mem_iff.mp idMem with ⟨dto, found⟩
      rcases List.mem_filterMap.mp (Finmap.mem_of_lookup_collect found) with
        ⟨node, nodeMem, kept⟩
      rcases Option.map_eq_some_iff.mp kept with ⟨nodeData, -, entry_eq⟩
      refine ⟨node, congrArg Prod.fst entry_eq, (covers_iff node).mp ?_⟩
      rw [← listing.toFinset_nodes]
      exact List.mem_toFinset.mpr nodeMem
    · rintro ⟨node, rfl, covered⟩
      have shown := (covers_iff node).mpr covered
      refine Handler.key_mem_nodes_topologySubgraph listing shown ?_
      rw [Handler.subgraph, ← Option.some.inj params_eq] at shown
      exact consistent.mem_nodes_of_shown present shown
  · cases params_eq

end SubgraphRequest

/-! ## A canvas with new data -/

theorem services_ne_nil {data : QubitTopology} {nodes : AList fun _ : String => NodeDto}
    (received : data.nodes = some nodes) {id : String} (idMem : id ∈ nodes.keys) :
    (transformTopologyData (some data)).services ≠ [] := by
  intro none
  simp only [transformTopologyData, received, List.map_eq_nil_iff] at none
  rw [AList.keys, none] at idMem
  exact List.not_mem_nil idMem

namespace GraphProps

theorem connectedNodeIds_of_isSubgraphMode {browser : Browser} {props : GraphProps}
    (mode : props.isSubgraphMode = true) :
    props.connectedNodeIds browser = props.initialNodeIds browser ∧
      props.reachableNodeIds browser = props.initialNodeIds browser := by
  have reachable : props.reachableNodeIds browser = props.initialNodeIds browser := by
    rw [reachableNodeIds]
    cases truthy props.selectedNodeId with
    | none => rfl
    | some id => exact if_pos mode
  refine ⟨?_, reachable⟩
  rw [connectedNodeIds, reachable, ite_self]

end GraphProps

namespace Graph

variable {Position : Type} {browser : Browser}

/-- New data of a subgraph is shown as a whole. -/
theorem nodes_commit_of_new {graph : Graph Position} {props : GraphProps}
    (new : ¬graph.SameData props) (mode : props.isSubgraphMode = true) :
    (graph.commit browser props).nodes = (props.initialNodes browser).map fun node =>
      { node, position := none,
        isSelected := some node.id = (graph.effective props).selectedNodeId } := by
  have newEffective : ¬graph.SameData (graph.effective props) := new
  have changed : graph.rendered ≠ some (graph.effective props) := by
    intro same
    exact newEffective (by rw [SameData, same]; rfl)
  have modeEffective : (graph.effective props).isSubgraphMode = true := mode
  have all : (graph.effective props).connectedNodeIds browser = props.initialNodeIds browser :=
    (GraphProps.connectedNodeIds_of_isSubgraphMode modeEffective).1
  have initial : (graph.effective props).initialNodes browser = props.initialNodes browser := rfl
  simp only [commit, filterNodes, if_neg changed, resetNodes, if_neg newEffective, all, initial,
    List.filter_map, List.map_map]
  have everywhere : ∀ node ∈ props.initialNodes browser,
      node.id ∈ props.initialNodeIds browser := by
    intro node nodeMem
    exact List.mem_toFinset.mpr (List.mem_map_of_mem nodeMem)
  rw [List.filter_eq_self.mpr]
  · rfl
  · intro node nodeMem
    exact decide_eq_true (everywhere node nodeMem)

/-- The canvas has the nodes with these ids, each once and where the layout puts it. -/
structure ShowsWhole (ids : Set String) (selected : Option String) (graph : Graph Position) :
    Prop where
  nodup : (graph.nodes.map (·.node.id)).Nodup
  mem_iff : ∀ id, id ∈ graph.nodes.map (·.node.id) ↔ id ∈ ids
  laidOut : ∀ canvasNode ∈ graph.nodes, canvasNode.position = none
  marked : ∀ canvasNode ∈ graph.nodes,
    canvasNode.isSelected = true ↔ selected = some canvasNode.node.id
  joined : ∀ edge ∈ graph.edges, edge.source ∈ graph.nodes.map (·.node.id) ∧
    edge.target ∈ graph.nodes.map (·.node.id)

theorem showsWhole_commit {graph : Graph Position} {props : GraphProps}
    (new : ¬graph.SameData props) (mode : props.isSubgraphMode = true)
    {nodes : AList fun _ : String => NodeDto}
    (received : (browser.responses props.identity).nodes = some nodes) {id : String}
    (idMem : id ∈ nodes.keys) :
    (graph.commit browser props).ShowsWhole {id | id ∈ nodes.keys}
      (graph.effective props).selectedNodeId := by
  have nodes_eq : (graph.commit browser props).nodes = (props.initialNodes browser).map fun node =>
      { node, position := none,
        isSelected := some node.id = (graph.effective props).selectedNodeId } :=
    nodes_commit_of_new new mode
  have ids_eq : (graph.commit browser props).nodes.map (·.node.id) =
      (props.initialNodes browser).map (·.id) := by
    rw [nodes_eq, List.map_map]
    rfl
  have drawn := map_id_initialNodes_perm received idMem
  constructor
  · rw [ids_eq]
    exact drawn.nodup_iff.mpr nodes.keys_nodup
  · intro other
    rw [ids_eq]
    exact drawn.mem_iff
  · rw [nodes_eq, List.forall_mem_map]
    exact fun _ _ => rfl
  · rw [nodes_eq, List.forall_mem_map]
    intro node _
    rw [decide_eq_true_eq]
    exact eq_comm
  · intro edge edgeMem
    rcases exists_connection_of_mem_filteredEdges edgeMem with
      ⟨connection, connected, source_eq, target_eq⟩
    rw [ids_eq, source_eq, target_eq, ← List.mem_toFinset, ← List.mem_toFinset]
    exact @ends_mem_initialNodeIds browser props connection connected

end Graph

namespace View

variable {Position : Type} {localeCompare : String → String → Int} {view : View Position}

/-- What is on the canvas has arrived. -/
theorem Reached.rendered_lt (reached : Reached localeCompare view) {graph : Graph Position}
    (mounted : graph ∈ view.graph) :
    ∃ props ∈ graph.rendered, props.identity < view.responses.length := by
  rw [← reached.settled.graph, commitGraph] at mounted
  split at mounted
  · cases mounted
  · rcases Option.mem_map.mp mounted with ⟨identity, displayed, rfl⟩
    refine ⟨_, rfl, ?_⟩
    change identity < _
    rw [displayData] at displayed
    split at displayed
    · exact reached.arrived.subgraphData identity displayed
    · exact reached.arrived.raw identity displayed

/-- A page to which the data of a subgraph has just come, before it is rendered. -/
def answered (view : View Position) (index : ℕ) (data : QubitTopology) : View Position :=
  { view with
    responses := view.responses ++ [data]
    subgraphData := some view.responses.length
    requests := view.requests.eraseIdx index }

theorem step_subgraphArrives {index : ℕ} (inside : index < view.requests.length)
    (selected : truthy view.selectedNodeId ≠ none) (data : QubitTopology) :
    view.step localeCompare (.subgraphArrives index data) =
      (view.answered index data).commit localeCompare := by
  have handled : view.handle (.subgraphArrives index data) = view.answered index data :=
    if_pos inside
  have selectedStill : truthy (view.answered index data).selectedNodeId ≠ none := selected
  have settled : Settled localeCompare ((view.answered index data).commit localeCompare) :=
    settled_of_selected selectedStill
  rw [step, handled, settled.commit]

theorem responses_answered (index : ℕ) (data : QubitTopology) :
    ((view.answered index data).browser localeCompare).responses view.responses.length = data := by
  simp [browser, answered]

theorem displayData_answered (selected : truthy view.selectedNodeId ≠ none) (index : ℕ)
    (data : QubitTopology) :
    (view.answered index data).isSubgraphMode = true ∧
      (view.answered index data).displayData = some view.responses.length := by
  have mode : (view.answered index data).isSubgraphMode = true := by
    rw [isSubgraphMode, Bool.and_eq_true]
    exact ⟨Option.isSome_iff_ne_none.mpr selected, rfl⟩
  exact ⟨mode, by rw [displayData, if_pos mode]; rfl⟩

/-- The data that has just come is not that of the last render. -/
theorem Reached.not_sameData_answered (reached : Reached localeCompare view) (index : ℕ)
    (data : QubitTopology) (rootService : Option String) :
    ¬(view.graph.getD (Graph.mount Position rootService)).SameData
      ((view.answered index data).props view.responses.length) := by
  intro same
  rw [Graph.SameData] at same
  cases mounted : view.graph with
  | none =>
      rw [mounted] at same
      cases same
  | some graph =>
      rcases reached.rendered_lt mounted with ⟨props, rendered, before⟩
      rw [mounted, Option.getD_some, Option.mem_def.mp rendered, Option.map_some,
        Option.some.injEq] at same
      exact before.ne same

/-- The answer to a request comes to the canvas. -/
theorem Reached.showsWhole (reached : Reached localeCompare view) {index : ℕ}
    (inside : index < view.requests.length) (selected : truthy view.selectedNodeId ≠ none)
    {topology : Topology} (consistent : topology.Consistent) {request : SubgraphRequest}
    (present : request.root ∈ topology.nodes) {data : QubitTopology}
    (answers : request.Answers topology data) :
    ∃ graph ∈ (view.step localeCompare (.subgraphArrives index data)).graph,
      graph.ShowsWhole {id | ∃ node, node.key = id ∧ request.Covers topology node}
        view.selectedNodeId := by
  rcases request.exists_nodes_of_answers consistent present answers with
    ⟨nodes, received, mem_keys⟩
  have rootMem : request.root.key ∈ nodes.keys :=
    (mem_keys _).mpr ⟨request.root, rfl, Or.inl ⟨0, Nat.zero_le _, LevelSearch.Hops.root⟩⟩
  rcases displayData_answered selected index data with ⟨mode, displayed⟩
  have response : (((view.answered index data).browser localeCompare).responses
      view.responses.length).nodes = some nodes := by
    rw [responses_answered, received]
  have listed : ((view.answered index data).shown localeCompare).services ≠ [] := by
    rw [shown, displayed]
    exact services_ne_nil response rootMem
  have committed : ((view.answered index data).commit localeCompare).graph =
      (view.answered index data).commitGraph localeCompare := rfl
  rw [step_subgraphArrives inside selected, committed, commitGraph, if_neg listed, displayed]
  refine ⟨_, rfl, ?_⟩
  have whole := Graph.showsWhole_commit (reached.not_sameData_answered index data
    ((view.answered index data).shown localeCompare).rootService) mode response rootMem
  have sameIds : {id | id ∈ nodes.keys} =
      {id | ∃ node, node.key = id ∧ request.Covers topology node} := Set.ext mem_keys
  rw [sameIds] at whole
  have selected_eq : ((view.graph.getD (Graph.mount Position
      ((view.answered index data).shown localeCompare).rootService)).effective
        ((view.answered index data).props view.responses.length)).selectedNodeId =
      view.selectedNodeId := by
    cases known : view.selectedNodeId with
    | none => exact absurd (by rw [known]; rfl) selected
    | some id =>
        rw [Graph.effective, props, answered, known]
        rfl
  rw [selected_eq] at whole
  exact whole

/--
When Core answers the request for a node, the canvas shows the nodes within the depth from it in
the graph that Core has then, and its callers: each once, where the layout puts it, and with every
drawn edge between two of them. This is so whether unconnected nodes are hidden or not, whatever
was shown before, and also when another node has been selected since.
-/
theorem answer_shown (localeCompare : String → String → Int) (actions : List (Action Position))
    {node : NodeId} (plain : node.Plain) {depth : ℕ∞} {index : ℕ} {request : SubgraphRequest}
    (asked : subgraphRequest? node.key depth = some request)
    (pending : (run localeCompare Position actions).requests[index]? = some request)
    (selected : truthy (run localeCompare Position actions).selectedNodeId ≠ none)
    (requests : List Request) (present : node ∈ (CoreState.empty.run requests).topology.nodes)
    {data : QubitTopology}
    (answers : request.Answers (CoreState.empty.run requests).topology data) :
    let topology := (CoreState.empty.run requests).topology
    let before := run localeCompare Position actions
    let after := run localeCompare Position (actions ++ [.subgraphArrives index data])
    (∃ graph ∈ after.graph, graph.ShowsWhole
      {id | ∃ shown : NodeId, shown.key = id ∧
        (Within topology.callees node (if depth = ⊤ then 999 else depth.toNat) shown ∨
          ∃ flow ∈ topology.upstream.row node, flow.sourceNode = shown)}
      before.selectedNodeId) ∧
    after.selectedNodeId = before.selectedNodeId ∧
    after.requests = before.requests.eraseIdx index := by
  intro topology before after
  rcases List.getElem?_eq_some_iff.mp pending with ⟨inside, -⟩
  rcases SubgraphRequest.root_of_subgraphRequest? plain depth with
    ⟨named, asked', root_eq, depth_eq⟩
  rw [asked, Option.some.injEq] at asked'
  subst asked'
  have reached := reached_run localeCompare actions
  have consistent : topology.Consistent := (CoreState.isView_run requests).coherent.consistent
  have stepped : after = (before.answered index data).commit localeCompare := by
    rw [← step_subgraphArrives inside selected]
    exact List.foldl_concat ..
  refine ⟨?_, ?_, ?_⟩
  · rcases reached.showsWhole inside selected consistent (root_eq.symm ▸ present) answers with
      ⟨graph, mounted, whole⟩
    rw [step_subgraphArrives inside selected, ← stepped] at mounted
    simp only [SubgraphRequest.Covers, root_eq, depth_eq] at whole
    exact ⟨graph, mounted, whole⟩
  · have selectedStill : truthy (before.answered index data).selectedNodeId ≠ none := selected
    rw [stepped]
    exact selectedNodeId_commit_of_selected selectedStill
  · have rendered : (before.answered index data).rendered =
        some ((before.answered index data).selectedNodeId, (before.answered index data).depth) :=
      reached.settled.rendered
    rw [stepped]
    exact if_pos rendered

/-- Core's answer about the caller in `oneCall`. -/
def callerAnswer : QubitTopology where
  nodes := some (List.toAList
    [⟨"unknown/db", { applicationName := "db", ns := "unknown", ip := "10.0.0.3" }⟩,
      ⟨"default/web", { applicationName := "web", ns := "default", ip := "10.0.0.1" }⟩])
  upstream := some (List.toAList
    [⟨"unknown/db", { flows := [{ sourceApplication := "web", destinationApplication := "db",
                                  method := "GET", path := "/" }] }⟩])
  downstream := some (List.toAList
    [⟨"default/web", { flows := [{ sourceApplication := "web", destinationApplication := "db",
                                   method := "GET", path := "/" }] }⟩])

/-- The answer about the caller comes when the called service has been selected. -/
theorem answer_shown_oneCall :
    let topology := (CoreState.empty.run oneCall).topology
    let before := run byLength ℕ [.topologyArrives callerAnswer, .click "unknown/db"]
    let after := run byLength ℕ
      ([.topologyArrives callerAnswer, .click "unknown/db"] ++ [.subgraphArrives 0 callerAnswer])
    (∃ graph ∈ after.graph, graph.ShowsWhole
      {id | ∃ shown : NodeId, shown.key = id ∧
        (Within topology.callees ⟨"web", "default"⟩
            (if (1 : ℕ∞) = ⊤ then 999 else (1 : ℕ∞).toNat) shown ∨
          ∃ flow ∈ topology.upstream.row ⟨"web", "default"⟩, flow.sourceNode = shown)}
      before.selectedNodeId) ∧
    after.selectedNodeId = before.selectedNodeId ∧
    after.requests = before.requests.eraseIdx 0 := by
  have plain : NodeId.Plain ⟨"web", "default"⟩ := by decide
  have asked : subgraphRequest? (NodeId.key ⟨"web", "default"⟩) 1 =
      some { service := "web", ns := "default", depth := 1 } := by decide +kernel
  have answers : SubgraphRequest.Answers (CoreState.empty.run oneCall).topology
      { service := "web", ns := "default", depth := 1 } callerAnswer := by
    refine ⟨{ service := "web", ns := "default", depth := some 1 }, if_pos (by decide),
      ⟨[⟨"db", "unknown"⟩, ⟨"web", "default"⟩], ?_,
        List.toAList
          [⟨⟨"db", "unknown"⟩, [⟨⟨"web", "default"⟩, ⟨"db", "unknown"⟩, "/", "GET"⟩]⟩], ?_,
        List.toAList
          [⟨⟨"web", "default"⟩, [⟨⟨"web", "default"⟩, ⟨"db", "unknown"⟩, "/", "GET"⟩]⟩], ?_⟩,
      _, _, _, rfl, ?_, ?_, ?_⟩
    all_goals decide +kernel
  exact answer_shown byLength [.topologyArrives callerAnswer, .click "unknown/db"] plain asked
    (by decide +kernel) (by decide +kernel) oneCall (by decide +kernel) answers

end View

end Qubit.Ui
