import Qubit.Lib.Run
import Qubit.Ui.ConnectedNodes
import Qubit.Ui.FlowData

/-!
# The canvas

`ServiceTopologyGraph` keeps the nodes of the canvas in a state of its own, so that dragged
nodes stay where they are. Its effects run after a render when one of the values they
depend on is another object than before. New data resets the nodes; everything else only
filters them, so a node that was hidden once does not come back before the next data.
The edges are those of the last render, whether their ends are on the canvas or not.
-/

namespace Qubit.Ui

/-- An id that is there and not empty, as a condition in JavaScript has it. -/
def truthy (id : Option String) : Option String :=
  id.filter (· ≠ "")

/-- The order of the locale, and the responses that have been parsed, each an object of its own. -/
structure Browser where
  localeCompare : String → String → Int
  responses : ℕ → QubitTopology

def Browser.transformed (browser : Browser) (identity : ℕ) : TransformedTopology :=
  transformTopologyData (some (browser.responses identity))

/-- A node of the canvas; one that was not dragged stands where the layout put it. -/
structure CanvasNode (Position : Type) where
  node : FlowNode
  position : Option Position
  isSelected : Bool
deriving DecidableEq

/-- The properties of a render; the data is the transformed response with the identity. -/
structure GraphProps where
  identity : ℕ
  depth : ℕ∞
  hideUnconnectedNodes : Bool
  selectedNodeId : Option String
  isSubgraphMode : Bool
deriving DecidableEq

namespace GraphProps

variable (browser : Browser) (props : GraphProps)

def initialNodes : List FlowNode :=
  let shown := browser.transformed props.identity
  (convertToFlowData browser.localeCompare shown.services shown.connections
    shown.rootService).nodes

def initialNodeIds : Finset String :=
  ((props.initialNodes browser).map (·.id)).toFinset

/-- The ids around the selected node; the search is left within so many rounds. -/
def reachableNodeIds : Finset String :=
  let connections := (browser.transformed props.identity).connections
  match truthy props.selectedNodeId with
  | none => props.initialNodeIds browser
  | some id =>
      if props.isSubgraphMode then props.initialNodeIds browser
      else (getConnectedNodeIdsAtDepth id connections props.depth
        ((idsAround id connections).card + 1)).getD ∅

def connectedNodeIds : Finset String :=
  if props.hideUnconnectedNodes = false ∨ truthy props.selectedNodeId = none then
    props.initialNodeIds browser
  else props.reachableNodeIds browser

def filteredEdges : List FlowEdge :=
  ((browser.transformed props.identity).connections.filter fun c =>
      c.source ∈ props.reachableNodeIds browser ∧ c.target ∈ props.reachableNodeIds browser).mapIdx
    fun index c => { c.toFlowEdge index with animated := (truthy props.selectedNodeId).isSome }

/-- The nodes that the render asks for. -/
def nodesWithSelection (Position : Type) : List (CanvasNode Position) :=
  ((props.initialNodes browser).filter fun node => node.id ∈ props.connectedNodeIds browser).map
    fun node => { node, position := none, isSelected := some node.id = props.selectedNodeId }

end GraphProps

/-- The state of the component, and the values that its effects last depended on. -/
structure Graph (Position : Type) where
  internalSelectedNodeId : Option String
  nodes : List (CanvasNode Position)
  edges : List FlowEdge
  rendered : Option GraphProps
deriving DecidableEq

namespace Graph

variable {Position : Type} (browser : Browser)

/-- The component before its effects have run for the first time. -/
def mount (Position : Type) (rootService : Option String) : Graph Position where
  internalSelectedNodeId := rootService
  nodes := []
  edges := []
  rendered := none

/-- The selection of the properties, `propSelectedNodeId ?? internalSelectedNodeId`. -/
def effective (graph : Graph Position) (props : GraphProps) : GraphProps :=
  { props with selectedNodeId := props.selectedNodeId.or graph.internalSelectedNodeId }

/-- The render has the data of the render before. -/
def SameData (graph : Graph Position) (props : GraphProps) : Prop :=
  graph.rendered.map GraphProps.identity = some props.identity

instance (graph : Graph Position) (props : GraphProps) : Decidable (graph.SameData props) :=
  inferInstanceAs (Decidable (_ = _))

/-- The effect on new data. -/
def resetNodes (graph : Graph Position) (now : GraphProps) : List (CanvasNode Position) :=
  if graph.SameData now then graph.nodes
  else (now.initialNodes browser).map fun node =>
    { node, position := none, isSelected := some node.id = now.selectedNodeId }

/-- The effect on the visible nodes and the selection, which follows in the same commit. -/
def filterNodes (graph : Graph Position) (now : GraphProps) : List (CanvasNode Position) :=
  if graph.rendered = some now then graph.resetNodes browser now
  else
    ((graph.resetNodes browser now).filter fun canvasNode =>
        canvasNode.node.id ∈ now.connectedNodeIds browser).map fun canvasNode =>
      { canvasNode with isSelected := some canvasNode.node.id = now.selectedNodeId }

/-- One render with its effects. -/
def commit (props : GraphProps) (graph : Graph Position) : Graph Position where
  internalSelectedNodeId :=
    if truthy props.selectedNodeId = none then (browser.transformed props.identity).rootService
    else graph.internalSelectedNodeId
  nodes := graph.filterNodes browser (graph.effective props)
  edges := (graph.effective props).filteredEdges browser
  rendered := some (graph.effective props)

def drag (id : String) (position : Position) (graph : Graph Position) : Graph Position :=
  { graph with
    nodes := graph.nodes.map fun canvasNode =>
      if canvasNode.node.id = id then { canvasNode with position := some position }
      else canvasNode }

/-- A render looks at no response but the shown one. -/
theorem commit_congr {browser other : Browser} {props : GraphProps}
    (locale : other.localeCompare = browser.localeCompare)
    (response : other.responses props.identity = browser.responses props.identity)
    (graph : Graph Position) : graph.commit other props = graph.commit browser props := by
  have transformed : other.transformed props.identity = browser.transformed props.identity := by
    rw [Browser.transformed, Browser.transformed, response]
  have identity : (graph.effective props).identity = props.identity := rfl
  have nodes : (graph.effective props).initialNodes other =
      (graph.effective props).initialNodes browser := by
    simp only [GraphProps.initialNodes, identity, transformed, locale]
  have ids : (graph.effective props).initialNodeIds other =
      (graph.effective props).initialNodeIds browser := by
    rw [GraphProps.initialNodeIds, GraphProps.initialNodeIds, nodes]
  have reachable : (graph.effective props).reachableNodeIds other =
      (graph.effective props).reachableNodeIds browser := by
    simp only [GraphProps.reachableNodeIds, identity, transformed, ids]
  have connected : (graph.effective props).connectedNodeIds other =
      (graph.effective props).connectedNodeIds browser := by
    rw [GraphProps.connectedNodeIds, GraphProps.connectedNodeIds, ids, reachable]
  simp only [commit, filterNodes, resetNodes, GraphProps.filteredEdges, nodes, reachable, connected,
    identity, transformed]

/-- The state is what a render with the properties leaves. -/
structure UpToDate (props : GraphProps) (graph : Graph Position) : Prop where
  internal : truthy props.selectedNodeId = none →
    graph.internalSelectedNodeId = (browser.transformed props.identity).rootService
  edges : graph.edges = (graph.effective props).filteredEdges browser
  rendered : graph.rendered = some (graph.effective props)

variable {browser} in
theorem UpToDate.commit {props : GraphProps} {graph : Graph Position}
    (upToDate : graph.UpToDate browser props) : graph.commit browser props = graph := by
  have sameData : graph.SameData (graph.effective props) := by
    rw [SameData, upToDate.rendered]
    rfl
  have nodes : graph.filterNodes browser (graph.effective props) = graph.nodes := by
    rw [filterNodes, if_pos upToDate.rendered, resetNodes, if_pos sameData]
  have internal : (if truthy props.selectedNodeId = none then
      (browser.transformed props.identity).rootService else graph.internalSelectedNodeId) =
        graph.internalSelectedNodeId := by
    split
    · rename_i unselected
      exact (upToDate.internal unselected).symm
    · rfl
  rw [Graph.commit, nodes, internal, ← upToDate.edges, ← upToDate.rendered]

theorem upToDate_commit {props : GraphProps} {graph : Graph Position}
    (steady : props.selectedNodeId ≠ none ∨
      graph.internalSelectedNodeId = (browser.transformed props.identity).rootService) :
    (graph.commit browser props).UpToDate browser props := by
  have effective : (graph.commit browser props).effective props = graph.effective props := by
    rw [Graph.effective, Graph.effective]
    cases selected : props.selectedNodeId with
    | none =>
        have internal := steady.resolve_left (not_not_intro selected)
        simp [Graph.commit, selected, internal]
    | some id => rfl
  refine ⟨?_, ?_, ?_⟩
  · intro unselected
    exact if_pos unselected
  · rw [effective]
    rfl
  · rw [effective]
    rfl

/-- What happens to the component while it is mounted. -/
inductive Event (Position : Type) where
  | commit (props : GraphProps)
  | drag (id : String) (position : Position)

def step (graph : Graph Position) : Event Position → Graph Position
  | .commit props => graph.commit browser props
  | .drag id position => graph.drag id position

def run (graph : Graph Position) (events : List (Event Position)) : Graph Position :=
  events.foldl (step browser) graph

/-! ## What is on the canvas -/

/-- The renders since the data came, the last one in front, and where nodes were dragged last. -/
structure Sketch (Position : Type) where
  renders : List GraphProps
  positions : String → Option Position

def Sketch.blank : Sketch Position where
  renders := []
  positions := fun _ => none

/-- The nodes of the data that every render since it came has asked for. -/
def Sketch.nodes (sketch : Sketch Position) : List (CanvasNode Position) :=
  match sketch.renders with
  | [] => []
  | last :: _ =>
      ((last.initialNodes browser).filter fun node =>
          ∀ render ∈ sketch.renders, node.id ∈ render.connectedNodeIds browser).map fun node =>
        { node
          position := sketch.positions node.id
          isSelected := some node.id = last.selectedNodeId }

/-- The sketch is begun anew with new data. -/
def note (graph : Graph Position) (sketch : Sketch Position) : Event Position → Sketch Position
  | .commit props =>
      if graph.SameData props then
        { sketch with renders := graph.effective props :: sketch.renders }
      else { renders := [graph.effective props], positions := fun _ => none }
  | .drag id position =>
      { sketch with positions := Function.update sketch.positions id (some position) }

/-- The component is as the sketch has it. -/
structure Drawn (sketch : Sketch Position) (graph : Graph Position) : Prop where
  rendered : graph.rendered = sketch.renders.head?
  nodes : graph.nodes = sketch.nodes browser
  edges : ∀ last ∈ sketch.renders.head?, graph.edges = last.filteredEdges browser

variable {browser} {sketch : Sketch Position} {graph : Graph Position}

theorem initialNodes_eq {props other : GraphProps} (same : props.identity = other.identity) :
    props.initialNodes browser = other.initialNodes browser := by
  rw [GraphProps.initialNodes, GraphProps.initialNodes, same]

theorem Drawn.drag (drawn : Drawn browser sketch graph) (id : String) (position : Position) :
    Drawn browser (graph.note sketch (.drag id position)) (graph.drag id position) where
  rendered := drawn.rendered
  edges := drawn.edges
  nodes := by
    rw [Graph.drag, drawn.nodes]
    rcases sketch with ⟨renders, positions⟩
    cases renders with
    | nil => rfl
    | cons last earlier =>
        simp only [Sketch.nodes, note, List.map_map]
        apply List.map_congr_left
        intro node _
        by_cases same : node.id = id
        · simp [same]
        · simp [same]

theorem Drawn.commit (drawn : Drawn browser sketch graph) (props : GraphProps) :
    Drawn browser (graph.note sketch (.commit props)) (graph.commit browser props) where
  rendered := by
    simp only [note]
    split <;> rfl
  edges := by
    intro last lastMem
    have last_eq : last = graph.effective props := by
      simp only [note] at lastMem
      split at lastMem <;> exact (Option.some.inj lastMem).symm
    rw [last_eq]
    rfl
  nodes := by
    simp only [Graph.commit, note]
    by_cases same : graph.SameData props
    · rcases sketch with ⟨renders, positions⟩
      cases renders with
      | nil =>
          rw [SameData, drawn.rendered] at same
          cases same
      | cons last earlier =>
          have rendered : graph.rendered = some last := drawn.rendered
          have identity : last.identity = (graph.effective props).identity := by
            rw [SameData, rendered] at same
            exact Option.some.inj same
          have kept : graph.resetNodes browser (graph.effective props) = graph.nodes :=
            if_pos same
          rw [if_pos same, filterNodes, kept, drawn.nodes]
          simp only [Sketch.nodes, rendered, Option.some.injEq, ← initialNodes_eq identity]
          by_cases unchanged : last = graph.effective props
          · rw [if_pos unchanged, ← unchanged]
            simp
          · rw [if_neg unchanged, List.filter_map, List.filter_filter, List.map_map]
            simp [Function.comp_def]
    · have changed : graph.rendered ≠ some (graph.effective props) := by
        intro unchanged
        exact same (by rw [SameData, unchanged]; rfl)
      have reset : graph.resetNodes browser (graph.effective props) =
          ((graph.effective props).initialNodes browser).map fun node =>
            { node, position := none,
              isSelected := some node.id = (graph.effective props).selectedNodeId } :=
        if_neg same
      rw [if_neg same, filterNodes, if_neg changed, reset, List.filter_map, List.map_map]
      simp [Sketch.nodes, Function.comp_def]

theorem Drawn.step (drawn : Drawn browser sketch graph) (event : Event Position) :
    Drawn browser (graph.note sketch event) (graph.step browser event) := by
  cases event with
  | commit props => exact drawn.commit props
  | drag id position => exact drawn.drag id position

/-- The sketch after what has happened since the component was mounted. -/
def sketchOf (browser : Browser) (rootService : Option String) (events : List (Event Position)) :
    Sketch Position :=
  Run.book (step browser) note (mount Position rootService) Sketch.blank events

theorem drawn_run (browser : Browser) (rootService : Option String)
    (events : List (Event Position)) :
    Drawn browser (sketchOf browser rootService events)
      ((mount Position rootService).run browser events) := by
  refine Run.book_correct (fun graph sketch => Drawn browser sketch graph)
    (fun _ _ event drawn => drawn.step event) events ?_
  exact { rendered := rfl, nodes := rfl, edges := by simp [Sketch.blank] }

/--
After any renders and drags the canvas has the nodes of the data that every render since the data
came has asked for: each where it was dragged last since then, and the one of the last selection
marked.
-/
theorem nodes_run (browser : Browser) (rootService : Option String)
    (events : List (Event Position)) :
    ((mount Position rootService).run browser events).nodes =
      (sketchOf browser rootService events).nodes browser :=
  (drawn_run browser rootService events).nodes

/-! ## What a render asks for -/

/-- The initial nodes are the services of the shown data. -/
theorem map_id_initialNodes_perm {props : GraphProps} {nodes : AList fun _ : String => NodeDto}
    (received : (browser.responses props.identity).nodes = some nodes) {id : String}
    (idMem : id ∈ nodes.keys) :
    ((props.initialNodes browser).map (·.id)).Perm nodes.keys := by
  have nonempty : nodes.entries ≠ [] := by
    intro empty
    rw [AList.keys, empty] at idMem
    exact List.not_mem_nil idMem
  have rootKnown : ∃ root ∈ nodes.keys,
      rootId (connectionsOf (browser.responses props.identity) nodes) nodes = some root :=
    exists_rootId nonempty
  rcases rootKnown with ⟨root, rootMem, root_eq⟩
  have target_mem : ∀ connection ∈ connectionsOf (browser.responses props.identity) nodes,
      connection.target ∈ nodes.keys := fun connection member => (ends_mem_keys member).2
  rcases layered_services rootMem target_mem with ⟨rootNode, rfl, layered⟩
  have drawn := layered.convertToFlowData_perm browser.localeCompare
    (connectionsOf (browser.responses props.identity) nodes)
  rw [List.map_map] at drawn
  rw [GraphProps.initialNodes]
  simp only [Browser.transformed, transformTopologyData, received, root_eq, Option.elim_some]
  exact drawn

theorem key_mem_initialNodeIds {props : GraphProps} {nodes : AList fun _ : String => NodeDto}
    (received : (browser.responses props.identity).nodes = some nodes) {id : String}
    (idMem : id ∈ nodes.keys) : id ∈ props.initialNodeIds browser :=
  List.mem_toFinset.mpr ((map_id_initialNodes_perm received idMem).mem_iff.mpr idMem)

/-- Both ends of a connection are initial nodes. -/
theorem ends_mem_initialNodeIds {props : GraphProps} {c : ServiceConnection}
    (connected : c ∈ (browser.transformed props.identity).connections) :
    c.source ∈ props.initialNodeIds browser ∧ c.target ∈ props.initialNodeIds browser := by
  simp only [Browser.transformed, transformTopologyData] at connected
  cases received : (browser.responses props.identity).nodes with
  | none =>
      rw [received] at connected
      cases connected
  | some nodes =>
      rw [received] at connected
      have ends := ends_mem_keys connected
      exact ⟨key_mem_initialNodeIds received ends.1, key_mem_initialNodeIds received ends.2⟩

theorem exists_connection_of_mem_filteredEdges {props : GraphProps} {edge : FlowEdge}
    (edgeMem : edge ∈ props.filteredEdges browser) :
    ∃ c ∈ (browser.transformed props.identity).connections,
      edge.source = c.source ∧ edge.target = c.target := by
  rw [GraphProps.filteredEdges, List.mem_mapIdx] at edgeMem
  rcases edgeMem with ⟨index, inside, rfl⟩
  exact ⟨_, List.mem_of_mem_filter (List.getElem_mem inside), rfl, rfl⟩

theorem mem_nodes_iff {last : GraphProps} {earlier : List GraphProps}
    {positions : String → Option Position} {id : String} :
    id ∈ (Sketch.nodes browser { renders := last :: earlier, positions }).map (·.node.id) ↔
      id ∈ last.initialNodeIds browser ∧
        ∀ render ∈ last :: earlier, id ∈ render.connectedNodeIds browser := by
  simp only [Sketch.nodes, GraphProps.initialNodeIds, List.map_map, List.mem_toFinset,
    List.mem_map, List.mem_filter, Function.comp_def, decide_eq_true_eq]
  constructor
  · rintro ⟨node, ⟨nodeMem, shown⟩, rfl⟩
    exact ⟨⟨node, nodeMem, rfl⟩, shown⟩
  · rintro ⟨⟨node, nodeMem, rfl⟩, shown⟩
    exact ⟨node, ⟨nodeMem, shown⟩, rfl⟩

/-- The renders of the sketch after a commit begin with that commit. -/
theorem exists_renders_commit (sketch : Sketch Position) (graph : Graph Position)
    (props : GraphProps) :
    ∃ earlier, (graph.note sketch (.commit props)).renders = graph.effective props :: earlier := by
  simp only [note]
  split
  · exact ⟨_, rfl⟩
  · exact ⟨[], rfl⟩

theorem map_node_nodes_iff {last : GraphProps} {earlier : List GraphProps}
    {positions : String → Option Position} :
    (Sketch.nodes browser { renders := last :: earlier, positions }).map (·.node) =
        (last.nodesWithSelection browser Position).map (·.node) ↔
      ∀ canvasNode ∈ last.nodesWithSelection browser Position, ∀ render ∈ last :: earlier,
        canvasNode.node.id ∈ render.connectedNodeIds browser := by
  simp only [Sketch.nodes, GraphProps.nodesWithSelection, List.map_map, Function.comp_def,
    List.map_id', List.forall_mem_map]
  constructor
  · intro same node asked render renderMem
    rw [← same, List.mem_filter, decide_eq_true_eq] at asked
    exact asked.2 render renderMem
  · intro shown
    apply List.filter_congr
    intro node nodeMem
    rw [decide_eq_decide]
    constructor
    · exact fun everywhere => everywhere last List.mem_cons_self
    · exact fun asked =>
        shown node (List.mem_filter.mpr ⟨nodeMem, decide_eq_true asked⟩)

/--
After a render the canvas has the nodes that the render asks for exactly when no render since the
data came has hidden one of them; and each drawn edge joins two nodes of the canvas exactly when
none of them has hidden one of its ends.
-/
theorem shows_iff (browser : Browser) (rootService : Option String)
    (events : List (Event Position)) (props : GraphProps) :
    let before := (mount Position rootService).run browser events
    let after := before.commit browser props
    let renders := (sketchOf browser rootService (events ++ [.commit props])).renders
    (after.nodes.map (·.node) =
        ((before.effective props).nodesWithSelection browser Position).map (·.node) ↔
      ∀ canvasNode ∈ (before.effective props).nodesWithSelection browser Position,
        ∀ render ∈ renders, canvasNode.node.id ∈ render.connectedNodeIds browser) ∧
    ((∀ edge ∈ after.edges, edge.source ∈ after.nodes.map (·.node.id) ∧
        edge.target ∈ after.nodes.map (·.node.id)) ↔
      ∀ edge ∈ after.edges, ∀ render ∈ renders,
        edge.source ∈ render.connectedNodeIds browser ∧
          edge.target ∈ render.connectedNodeIds browser) := by
  intro before after renders
  have drawn := (drawn_run browser rootService events).commit props
  have renders_eq : renders =
      (before.note (sketchOf browser rootService events) (.commit props)).renders := by
    simp only [renders, sketchOf, Run.book_append]
    rfl
  rcases exists_renders_commit (sketchOf browser rootService events) before props with
    ⟨earlier, begins⟩
  have nodes_eq : after.nodes = Sketch.nodes browser
      { renders := before.effective props :: earlier
        positions := (before.note (sketchOf browser rootService events)
          (.commit props)).positions } := by
    rw [← begins]
    exact drawn.nodes
  rw [renders_eq, begins, nodes_eq]
  refine ⟨map_node_nodes_iff, ?_⟩
  simp only [mem_nodes_iff]
  refine forall₂_congr fun edge edgeMem => ?_
  rcases exists_connection_of_mem_filteredEdges edgeMem with ⟨c, connected, source, target⟩
  have ends := ends_mem_initialNodeIds connected
  rw [source, target]
  constructor
  · exact fun both render renderMem => ⟨both.1.2 render renderMem, both.2.2 render renderMem⟩
  · exact fun shown => ⟨⟨ends.1, fun render renderMem => (shown render renderMem).1⟩,
      ends.2, fun render renderMem => (shown render renderMem).2⟩

end Graph

end Qubit.Ui
