import Mathlib.Data.ENat.Basic
import Qubit.Ui.NodeKeys
import Qubit.Ui.TopologyGraph

/-!
# The page with the canvas

`TopologyView` shows the whole topology, or, once a node is selected and the backend has
answered, the subgraph around it. Requests for subgraphs are answered in any order, or not
at all. After every event React renders the page until no effect changes its state any
more; two renders are always enough.

The page always selects a node when it can, so the whole topology stays in view only until
the first subgraph arrives, and a refresh, which fetches the whole topology, changes nothing
on the canvas from then on.
-/

namespace Qubit.Ui

/-- The parameters of a request for a subgraph. -/
structure SubgraphRequest where
  service : String
  ns : String
  depth : ℕ
deriving DecidableEq, Repr

/-- The request for a node id, if it has a slash. An unbounded depth is sent as 999. -/
def subgraphRequest? (nodeId : String) (bfsDepth : ℕ∞) : Option SubgraphRequest :=
  (fetchSubgraph nodeId).map fun named =>
    { service := named.2
      ns := named.1
      depth := if bfsDepth = ⊤ then 999 else bfsDepth.toNat }

/-- The states of the page. Responses are referred to by their place in the order of arrival. -/
structure View (Position : Type) where
  responses : List QubitTopology
  raw : Option ℕ
  subgraphData : Option ℕ
  selectedNodeId : Option String
  depth : ℕ∞
  hideUnconnected : Bool
  /-- The requests for subgraphs that have not been answered. -/
  requests : List SubgraphRequest
  graph : Option (Graph Position)
  /-- The selection and depth for which the effect on them last ran. -/
  rendered : Option (Option String × ℕ∞)

namespace View

variable {Position : Type} (localeCompare : String → String → Int)

def blank (Position : Type) : View Position where
  responses := []
  raw := none
  subgraphData := none
  selectedNodeId := none
  depth := 1
  hideUnconnected := false
  requests := []
  graph := none
  rendered := none

def browser (view : View Position) : Browser where
  localeCompare
  responses := fun identity =>
    view.responses.getD identity { nodes := none, upstream := none, downstream := none }

def isSubgraphMode (view : View Position) : Bool :=
  (truthy view.selectedNodeId).isSome && view.subgraphData.isSome

def displayData (view : View Position) : Option ℕ :=
  if view.isSubgraphMode then view.subgraphData else view.raw

def shown (view : View Position) : TransformedTopology :=
  view.displayData.elim (transformTopologyData none) (view.browser localeCompare).transformed

def props (view : View Position) (identity : ℕ) : GraphProps where
  identity
  depth := view.depth
  hideUnconnectedNodes := view.hideUnconnected
  selectedNodeId := view.selectedNodeId
  isSubgraphMode := view.isSubgraphMode

/-- The canvas is there while services are shown. -/
def commitGraph (view : View Position) : Option (Graph Position) :=
  if (view.shown localeCompare).services = [] then none
  else view.displayData.map fun identity =>
    (view.graph.getD (Graph.mount Position (view.shown localeCompare).rootService)).commit
      (view.browser localeCompare) (view.props identity)

/-- One render of the page with its effects. -/
def commit (view : View Position) : View Position :=
  { view with
    graph := view.commitGraph localeCompare
    -- the effect that selects the root when nothing is selected
    selectedNodeId :=
      if truthy view.selectedNodeId = none ∧ truthy (view.shown localeCompare).rootService ≠ none
      then (view.shown localeCompare).rootService else view.selectedNodeId
    -- the effect on the selection and the depth
    subgraphData :=
      if view.rendered ≠ some (view.selectedNodeId, view.depth) ∧
          truthy view.selectedNodeId = none then none
      else view.subgraphData
    requests :=
      if view.rendered = some (view.selectedNodeId, view.depth) then view.requests
      else view.requests ++
        ((truthy view.selectedNodeId).bind fun id => subgraphRequest? id view.depth).toList
    rendered := some (view.selectedNodeId, view.depth) }

/-- What the user does, and what arrives. -/
inductive Action (Position : Type) where
  | topologyArrives (data : QubitTopology)
  | subgraphArrives (index : ℕ) (data : QubitTopology)
  | subgraphFails (index : ℕ)
  | focus (value : String)
  | click (nodeId : String)
  | setDepth (depth : ℕ∞)
  | toggleHide
  | drag (id : String) (position : Position)

def handle (view : View Position) : Action Position → View Position
  | .topologyArrives data =>
      { view with
        responses := view.responses ++ [data]
        raw := some view.responses.length }
  | .subgraphArrives index data =>
      if index < view.requests.length then
        { view with
          responses := view.responses ++ [data]
          subgraphData := some view.responses.length
          requests := view.requests.eraseIdx index }
      else view
  | .subgraphFails index => { view with requests := view.requests.eraseIdx index }
  | .focus value => { view with selectedNodeId := if value = "" then none else some value }
  | .click nodeId => { view with selectedNodeId := some nodeId }
  | .setDepth depth => { view with depth }
  | .toggleHide => { view with hideUnconnected := !view.hideUnconnected }
  | .drag id position => { view with graph := view.graph.map (Graph.drag id position) }

/-- An event, and the renders that follow it. -/
def step (view : View Position) (action : Action Position) : View Position :=
  ((view.handle action).commit localeCompare).commit localeCompare

/-- The page after some events. -/
def run (Position : Type) (actions : List (Action Position)) : View Position :=
  actions.foldl (step localeCompare) (((blank Position).commit localeCompare).commit localeCompare)

/-! ## Two renders are enough -/

variable {localeCompare} {view : View Position}

theorem selectedNodeId_commit_of_selected (selected : truthy view.selectedNodeId ≠ none) :
    (view.commit localeCompare).selectedNodeId = view.selectedNodeId :=
  if_neg fun both => selected both.1

theorem selectedNodeId_commit_of_rootless
    (rootless : truthy (view.shown localeCompare).rootService = none) :
    (view.commit localeCompare).selectedNodeId = view.selectedNodeId :=
  if_neg fun both => both.2 rootless

theorem selectedNodeId_commit_of_unselected (unselected : truthy view.selectedNodeId = none)
    (rooted : truthy (view.shown localeCompare).rootService ≠ none) :
    (view.commit localeCompare).selectedNodeId = (view.shown localeCompare).rootService :=
  if_pos ⟨unselected, rooted⟩

theorem subgraphData_commit_of_selected (selected : truthy view.selectedNodeId ≠ none) :
    (view.commit localeCompare).subgraphData = view.subgraphData :=
  if_neg fun both => selected both.2

/-- Nothing is left for the effects to do. -/
structure Settled (localeCompare : String → String → Int) (view : View Position) : Prop where
  selected : truthy (view.shown localeCompare).rootService ≠ none →
    truthy view.selectedNodeId ≠ none
  rendered : view.rendered = some (view.selectedNodeId, view.depth)
  graph : view.commitGraph localeCompare = view.graph

theorem Settled.commit (settled : Settled localeCompare view) :
    view.commit localeCompare = view := by
  have selects : ¬(truthy view.selectedNodeId = none ∧
      truthy (view.shown localeCompare).rootService ≠ none) :=
    fun both => settled.selected both.2 both.1
  rcases view with ⟨responses, raw, subgraphData, selectedNodeId, depth, hideUnconnected, requests,
    graph, rendered⟩
  have same : rendered = some (selectedNodeId, depth) := settled.rendered
  simp only [View.commit, if_neg selects, settled.graph]
  simp [same]

theorem displayData_of_unselected (unselected : truthy view.selectedNodeId = none) :
    view.displayData = view.raw := by
  rw [displayData, isSubgraphMode, unselected]
  rfl

/-- A render with the data and the properties of the one before leaves the canvas as it is. -/
theorem commitGraph_commit
    (sameProps : (view.commit localeCompare).props = view.props)
    (sameData : (view.commit localeCompare).displayData = view.displayData)
    (steady : ∀ graph ∈ view.graph, view.selectedNodeId ≠ none ∨
      graph.internalSelectedNodeId = (view.shown localeCompare).rootService) :
    (view.commit localeCompare).commitGraph localeCompare = view.commitGraph localeCompare := by
  have sameShown : (view.commit localeCompare).shown localeCompare = view.shown localeCompare := by
    rw [shown, sameData]
    rfl
  have graph_eq : (view.commit localeCompare).graph = view.commitGraph localeCompare := rfl
  rw [commitGraph, sameShown, sameData, sameProps, graph_eq]
  simp only [commitGraph]
  split
  · rfl
  · cases displayed : view.displayData with
    | none => rfl
    | some identity =>
        simp only [Option.map_some, Option.getD_some]
        refine congrArg some (Graph.UpToDate.commit (Graph.upToDate_commit _ ?_))
        have root_eq : (view.shown localeCompare).rootService =
            ((view.browser localeCompare).transformed identity).rootService := by
          rw [shown, displayed]
          rfl
        change _ ∨ _ = ((view.browser localeCompare).transformed identity).rootService
        rw [← root_eq]
        cases mounted : view.graph with
        | none => exact Or.inr rfl
        | some graph => exact steady graph mounted

/-- A render of a page with a selected node leaves nothing to do. -/
theorem settled_of_selected (selected : truthy view.selectedNodeId ≠ none) :
    Settled localeCompare (view.commit localeCompare) := by
  have stays := @selectedNodeId_commit_of_selected _ localeCompare _ selected
  have keeps := @subgraphData_commit_of_selected _ localeCompare _ selected
  have sameMode : (view.commit localeCompare).isSubgraphMode = view.isSubgraphMode := by
    rw [isSubgraphMode, isSubgraphMode, stays, keeps]
  refine ⟨fun _ => ?_, ?_, commitGraph_commit ?_ ?_ ?_⟩
  · rwa [stays]
  · rw [stays]
    rfl
  · funext identity
    rw [props, props, stays, sameMode]
    rfl
  · rw [displayData, displayData, sameMode, keeps]
    rfl
  · intro graph _
    refine Or.inl fun unselected => selected ?_
    rw [unselected]
    rfl

/-- So does a second render of a page on which no node can be selected. -/
theorem settled_of_unselected (unselected : truthy view.selectedNodeId = none)
    (rootless : truthy (view.shown localeCompare).rootService = none)
    (internal : ∀ graph ∈ view.graph,
      graph.internalSelectedNodeId = (view.shown localeCompare).rootService) :
    Settled localeCompare (view.commit localeCompare) := by
  have stays := selectedNodeId_commit_of_rootless rootless
  have unselectedAfter : truthy (view.commit localeCompare).selectedNodeId = none := by
    rwa [stays]
  have sameMode : (view.commit localeCompare).isSubgraphMode = view.isSubgraphMode := by
    rw [isSubgraphMode, isSubgraphMode, unselectedAfter, unselected]
    rfl
  have sameData : (view.commit localeCompare).displayData = view.displayData := by
    rw [displayData_of_unselected unselectedAfter, displayData_of_unselected unselected]
    rfl
  refine ⟨?_, ?_, commitGraph_commit ?_ sameData ?_⟩
  · intro rooted
    rw [shown, sameData] at rooted
    exact absurd rootless rooted
  · rw [stays]
    rfl
  · funext identity
    rw [props, props, stays, sameMode]
    rfl
  · intro graph mounted
    exact Or.inr (internal graph mounted)

/-- Two renders settle any page. -/
theorem settled_commit_commit (localeCompare : String → String → Int) (view : View Position) :
    Settled localeCompare ((view.commit localeCompare).commit localeCompare) := by
  by_cases unselected : truthy view.selectedNodeId = none
  · by_cases rootless : truthy (view.shown localeCompare).rootService = none
    · have stays := selectedNodeId_commit_of_rootless rootless
      have unselectedAfter : truthy (view.commit localeCompare).selectedNodeId = none := by
        rwa [stays]
      have sameShown : (view.commit localeCompare).shown localeCompare =
          view.shown localeCompare := by
        rw [shown, shown, displayData_of_unselected unselectedAfter,
          displayData_of_unselected unselected]
        rfl
      refine settled_of_unselected unselectedAfter (sameShown ▸ rootless) ?_
      intro graph mounted
      rw [sameShown]
      change graph ∈ view.commitGraph localeCompare at mounted
      rw [commitGraph] at mounted
      split at mounted
      · cases mounted
      · rcases Option.mem_map.mp mounted with ⟨identity, displayed, rfl⟩
        rw [shown, displayed]
        exact if_pos unselected
    · refine settled_of_selected ?_
      rwa [selectedNodeId_commit_of_unselected unselected rootless]
  · have settled := @settled_of_selected _ localeCompare _ unselected
    rw [settled.commit]
    exact settled

/-! ## Every reachable page -/

/-- The responses that the page refers to have arrived. -/
structure Arrived (view : View Position) : Prop where
  raw : ∀ identity ∈ view.raw, identity < view.responses.length
  subgraphData : ∀ identity ∈ view.subgraphData, identity < view.responses.length

theorem Arrived.commit (arrived : view.Arrived) : (view.commit localeCompare).Arrived where
  raw := arrived.raw
  subgraphData := by
    intro identity shown
    simp only [View.commit] at shown
    split at shown
    · cases shown
    · exact arrived.subgraphData identity shown

theorem Arrived.handle (arrived : view.Arrived) (action : Action Position) :
    (view.handle action).Arrived := by
  have longer : view.responses.length ≤ (view.responses.length + 1) := Nat.le_succ _
  cases action with
  | topologyArrives data =>
      refine ⟨?_, ?_⟩
      · rintro identity ⟨⟩
        simp [View.handle]
      · intro identity shown
        simp only [View.handle, List.length_append, List.length_singleton]
        exact (arrived.subgraphData identity shown).trans_le longer
  | subgraphArrives index data =>
      rw [View.handle]
      split
      · refine ⟨?_, ?_⟩
        · intro identity shown
          simp only [List.length_append, List.length_singleton]
          exact (arrived.raw identity shown).trans_le longer
        · rintro identity ⟨⟩
          simp
      · exact arrived
  | _ => exact ⟨arrived.raw, arrived.subgraphData⟩

/-- What is true of a page between two events. -/
structure Reached (localeCompare : String → String → Int) (view : View Position) : Prop where
  settled : Settled localeCompare view
  arrived : view.Arrived

theorem reached_run (localeCompare : String → String → Int) (actions : List (Action Position)) :
    Reached localeCompare (run localeCompare Position actions) := by
  have blank : (View.blank Position).Arrived := ⟨by simp [View.blank], by simp [View.blank]⟩
  refine List.foldlRecOn actions (step localeCompare)
    ⟨settled_commit_commit localeCompare _, blank.commit.commit⟩ ?_
  intro view reached action _
  exact ⟨settled_commit_commit localeCompare _, (reached.arrived.handle action).commit.commit⟩

/-- The root of the whole topology, which is selected when nothing else is. -/
def rawRoot (localeCompare : String → String → Int) (view : View Position) : Option String :=
  (view.raw.elim (transformTopologyData none) (view.browser localeCompare).transformed).rootService

theorem rootService_shown_of_unselected (unselected : truthy view.selectedNodeId = none) :
    (view.shown localeCompare).rootService = view.rawRoot localeCompare := by
  rw [shown, displayData_of_unselected unselected, rawRoot]

/--
Focusing on everything does not last: the page selects the root of the whole topology again, and
asks for its subgraph, whatever it was doing before.
-/
theorem focus_all (localeCompare : String → String → Int) (actions : List (Action Position))
    (root : String)
    (rooted : (run localeCompare Position actions).rawRoot localeCompare = some root)
    (named : root ≠ "") :
    let before := run localeCompare Position actions
    let after := run localeCompare Position (actions ++ [.focus ""])
    after.selectedNodeId = some root ∧ after.displayData = before.raw ∧
      after.requests = before.requests ++ (subgraphRequest? root before.depth).toList := by
  intro before after
  have settled := (reached_run localeCompare actions).settled
  have truthy_root : truthy (some root) = some root := by simp [truthy, named]
  have selected : before.selectedNodeId ≠ none := by
    intro none
    refine settled.selected ?_ (by rw [none]; rfl)
    rw [rootService_shown_of_unselected (by rw [none]; rfl), rooted, truthy_root]
    exact Option.some_ne_none root
  have rerun : before.rendered ≠ some (none, before.depth) := by
    rw [settled.rendered]
    intro same
    exact selected (Prod.mk.inj (Option.some.inj same)).1
  have handled : after = ((before.handle (.focus "")).commit localeCompare).commit localeCompare :=
    List.foldl_concat ..
  have first : (before.handle (.focus "")).commit localeCompare =
      { before with
        graph := (before.handle (.focus "")).commitGraph localeCompare
        selectedNodeId := some root
        subgraphData := none
        rendered := some (none, before.depth) } := by
    have shown_root : ((before.handle (.focus "")).shown localeCompare).rootService = some root :=
      (rootService_shown_of_unselected rfl).trans rooted
    rw [commit, shown_root, truthy_root]
    simp [View.handle, rerun, truthy]
  rw [handled, first, commit]
  simp [truthy_root, displayData, isSubgraphMode]

/-- An order for the examples: by length. -/
def byLength (first second : String) : Int :=
  first.length - second.length

/-- A web service calls its database; a job runs beside them. -/
def threeServices : QubitTopology where
  nodes := some (List.toAList
    [⟨"prod/db", { applicationName := "db", ns := "prod", ip := "10.0.0.2" }⟩,
      ⟨"prod/web", { applicationName := "web", ns := "prod", ip := "10.0.0.1" }⟩,
      ⟨"batch/job", { applicationName := "job", ns := "batch", ip := "10.0.0.3" }⟩])
  upstream := none
  downstream := some (List.toAList
    [⟨"prod/web", { flows := [{ sourceApplication := "web", destinationApplication := "db",
                                method := "GET", path := "/" }] }⟩])

theorem focus_all_threeServices :
    let before := run byLength ℕ [.topologyArrives threeServices, .focus "batch/job"]
    let after := run byLength ℕ
      ([.topologyArrives threeServices, .focus "batch/job"] ++ [.focus ""])
    after.selectedNodeId = some "prod/web" ∧ after.displayData = before.raw ∧
      after.requests = before.requests ++ (subgraphRequest? "prod/web" before.depth).toList :=
  focus_all byLength [.topologyArrives threeServices, .focus "batch/job"] "prod/web"
    (by decide +kernel) (by decide)

/-- The arrival of the whole topology while a subgraph is shown. -/
theorem step_topologyArrives (reached : Reached localeCompare view)
    (mode : view.isSubgraphMode = true) (data : QubitTopology) :
    view.step localeCompare (.topologyArrives data) = view.handle (.topologyArrives data) ∧
      (view.handle (.topologyArrives data)).shown localeCompare = view.shown localeCompare := by
  have sameData : (view.handle (.topologyArrives data)).displayData = view.displayData := by
    rw [displayData, displayData, if_pos mode]
    exact if_pos mode
  have sameResponse : ∀ identity ∈ view.displayData,
      ((view.handle (.topologyArrives data)).browser localeCompare).responses identity =
        (view.browser localeCompare).responses identity := by
    intro identity displayed
    rw [displayData, if_pos mode] at displayed
    have arrived := reached.arrived.subgraphData identity displayed
    simp [browser, View.handle, List.getElem?_append_left arrived]
  have sameShown : (view.handle (.topologyArrives data)).shown localeCompare =
      view.shown localeCompare := by
    rw [shown, shown, sameData]
    cases displayed : view.displayData with
    | none => rfl
    | some identity =>
        simp only [Option.elim_some, Browser.transformed, sameResponse identity displayed]
  have sameGraph : (view.handle (.topologyArrives data)).commitGraph localeCompare =
      view.commitGraph localeCompare := by
    rw [commitGraph, commitGraph, sameShown, sameData]
    split
    · rfl
    · cases displayed : view.displayData with
      | none => rfl
      | some identity =>
          have sameCommit : ∀ graph : Graph Position,
              graph.commit ((view.handle (.topologyArrives data)).browser localeCompare)
                  (view.props identity) =
                graph.commit (view.browser localeCompare) (view.props identity) :=
            Graph.commit_congr rfl (sameResponse identity displayed)
          exact congrArg some (sameCommit _)
  have settled : Settled localeCompare (view.handle (.topologyArrives data)) :=
    { selected := fun rooted => reached.settled.selected (sameShown ▸ rooted)
      rendered := reached.settled.rendered
      graph := sameGraph.trans reached.settled.graph }
  refine ⟨?_, sameShown⟩
  rw [step, settled.commit, settled.commit]

/--
While a subgraph is shown, refreshing changes nothing on the page: neither the canvas, nor the
listed services, nor the selection, and it asks for nothing. A service that Core has found since
is not shown before the user selects another node or depth.
-/
theorem refresh_run (localeCompare : String → String → Int) (actions : List (Action Position))
    (arrivals : List QubitTopology)
    (mode : (run localeCompare Position actions).isSubgraphMode = true) :
    let before := run localeCompare Position actions
    let after := run localeCompare Position (actions ++ arrivals.map .topologyArrives)
    after.graph = before.graph ∧ after.shown localeCompare = before.shown localeCompare ∧
      after.selectedNodeId = before.selectedNodeId ∧ after.requests = before.requests := by
  induction arrivals generalizing actions with
  | nil => simp
  | cons data rest ih =>
      intro before after
      rcases step_topologyArrives (reached_run localeCompare actions) mode data with
        ⟨stepped, sameShown⟩
      have next : run localeCompare Position (actions ++ [.topologyArrives data]) =
          before.handle (.topologyArrives data) := by
        rw [← stepped]
        exact List.foldl_concat ..
      have later := ih (actions ++ [.topologyArrives data]) (by rw [next]; exact mode)
      rw [List.append_assoc, List.singleton_append, next] at later
      exact ⟨later.1, later.2.1.trans sameShown, later.2.2⟩

theorem refresh_run_threeServices :
    let before := run byLength ℕ [.topologyArrives threeServices, .subgraphArrives 0 threeServices]
    let after := run byLength ℕ
      ([.topologyArrives threeServices, .subgraphArrives 0 threeServices] ++
        [threeServices].map .topologyArrives)
    after.graph = before.graph ∧ after.shown byLength = before.shown byLength ∧
      after.selectedNodeId = before.selectedNodeId ∧ after.requests = before.requests :=
  refresh_run byLength [.topologyArrives threeServices, .subgraphArrives 0 threeServices]
    [threeServices] (by decide +kernel)

end View

end Qubit.Ui
