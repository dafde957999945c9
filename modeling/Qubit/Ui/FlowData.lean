import Qubit.Lib.Pieces
import Qubit.Ui.RootService

/-!
# The drawn graph

`convertToFlowData` draws the root, and then layer after layer the other services, each
layer in sublayers of at most 70. The layers are walked by number, as many as there are
groups left without that of the root. This draws every service exactly once, because
the root is alone in layer zero and the other layers are numbered from one on without
a gap. The positions on the screen are left out.
-/

namespace Qubit.Ui

structure FlowNodeData where
  name : String
  ns : String
  domain : String
  layer : Nat
deriving DecidableEq, Repr

structure FlowNode where
  id : String
  type : String
  data : FlowNodeData
deriving DecidableEq, Repr

structure FlowEdge where
  id : String
  source : String
  target : String
  type : String
  animated : Bool
deriving DecidableEq, Repr

structure FlowData where
  nodes : List FlowNode
  edges : List FlowEdge
deriving DecidableEq, Repr

def ServiceNode.toFlowNode (service : ServiceNode) : FlowNode where
  id := service.id
  type := "serviceNode"
  data :=
    { name := service.name
      ns := service.ns
      domain := service.domain
      layer := service.layer }

def ServiceConnection.toFlowEdge (index : Nat) (connection : ServiceConnection) : FlowEdge where
  id := "edge-" ++ connection.type.text ++ "-" ++ toString index
  source := connection.source
  target := connection.target
  type := if connection.type = .upstream then "upstreamEdge" else "downstreamEdge"
  animated := false

def hasDownstream (connections : List ServiceConnection) (service : ServiceNode) : Bool :=
  connections.any fun connection =>
    connection.source = service.id ∧ connection.type = .downstream

def hasUpstream (connections : List ServiceConnection) (service : ServiceNode) : Bool :=
  connections.any fun connection =>
    connection.target = service.id ∧ connection.type = .upstream

/-- The order within a layer; names are compared as the locale of the browser has it. -/
def compareServices (localeCompare : String → String → Int)
    (connections : List ServiceConnection) (a b : ServiceNode) : Int :=
  if hasDownstream connections a && !hasDownstream connections b then -1
  else if !hasDownstream connections a && hasDownstream connections b then 1
  else if hasUpstream connections a && !hasUpstream connections b then -1
  else if !hasUpstream connections a && hasUpstream connections b then 1
  else localeCompare a.name b.name

def maxNodesPerSublayer : Nat := 70

/-- The nodes of one layer, in sublayers. -/
def layerFlowNodes (localeCompare : String → String → Int) (connections : List ServiceConnection)
    (layerNodes : List ServiceNode) : List FlowNode :=
  let sortedLayerNodes := layerNodes.mergeSort fun a b =>
    compareServices localeCompare connections a b ≤ 0
  (Pieces.slices maxNodesPerSublayer sortedLayerNodes).flatMap fun sublayerNodes =>
    sublayerNodes.map ServiceNode.toFlowNode

def convertToFlowData (localeCompare : String → String → Int) (services : List ServiceNode)
    (connections : List ServiceConnection) (rootService : Option String) : FlowData :=
  let layerGroups := Pieces.groupBy ServiceNode.layer services
  let rootNode := services.find? fun service => some service.id = rootService
  let layerGroups := rootNode.elim layerGroups fun rootNode => layerGroups.erase rootNode.layer
  { nodes := (rootNode.map ServiceNode.toFlowNode).toList ++
      (List.range layerGroups.keys.card).flatMap fun index =>
        layerFlowNodes localeCompare connections (layerGroups.row (index + 1))
    edges := connections.mapIdx ServiceConnection.toFlowEdge }

/-! ## Every layer is met -/

theorem map_id_layerFlowNodes (localeCompare : String → String → Int)
    (connections : List ServiceConnection) (layerNodes : List ServiceNode) :
    ((layerFlowNodes localeCompare connections layerNodes).map (·.id)).Perm
      (layerNodes.map (·.id)) := by
  have ids : (layerFlowNodes localeCompare connections layerNodes).map (·.id) =
      (layerNodes.mergeSort fun a b =>
        compareServices localeCompare connections a b ≤ 0).map (·.id) := by
    rw [layerFlowNodes, List.flatMap_def, ← List.map_flatten, Pieces.flatten_slices (by decide),
      List.map_map]
    rfl
  rw [ids]
  exact (List.mergeSort_perm _ _).map _

/-- A root alone in its layer zero, and further layers without a gap. -/
structure Layered (services : List ServiceNode) (root : ServiceNode) : Prop where
  find_root : services.find? (fun service => some service.id = some root.id) = some root
  layer_root : root.layer = 0
  filter_zero : (services.filter fun service => service.layer = 0) = [root]
  noGap : ∀ service ∈ services, ∀ layer, service.layer = layer + 2 →
    ∃ other ∈ services, other.layer = layer + 1

namespace Layered

variable {services : List ServiceNode} {root : ServiceNode}

/-- The layers that are left when the root has been taken out. -/
theorem mem_otherLayers {layer : Nat} :
    layer ∈ ((Pieces.groupBy ServiceNode.layer services).erase 0).keys ↔
      layer ≠ 0 ∧ ∃ service ∈ services, service.layer = layer := by
  rw [Finmap.mem_keys, Finmap.mem_erase, Pieces.mem_groupBy]

theorem otherLayers_eq (layered : Layered services root) :
    ((Pieces.groupBy ServiceNode.layer services).erase 0).keys =
      Finset.Icc 1 ((Pieces.groupBy ServiceNode.layer services).erase 0).keys.card := by
  apply Pieces.eq_Icc_card
  · simp
  · intro layer present
    rcases mem_otherLayers.mp present with ⟨-, service, member, layer_eq⟩
    rcases layered.noGap service member layer layer_eq with ⟨other, otherMem, other_eq⟩
    exact mem_otherLayers.mpr ⟨Nat.succ_ne_zero layer, other, otherMem, other_eq⟩

/-- Walking the layers by number collects the services outside layer zero. -/
theorem walked_perm (layered : Layered services root) :
    ((List.range ((Pieces.groupBy ServiceNode.layer services).erase 0).keys.card).flatMap
      fun index => services.filter fun service => service.layer = index + 1).Perm
        (services.filter fun service => service.layer ≠ 0) := by
  apply Pieces.flatMap_range_filter_perm
  intro service member
  rw [← Finset.mem_Icc, ← layered.otherLayers_eq, mem_otherLayers]
  exact and_iff_left ⟨service, member, rfl⟩

theorem root_cons_perm (layered : Layered services root) :
    (root :: services.filter fun service => service.layer ≠ 0).Perm services := by
  have split := List.filter_append_perm (fun service : ServiceNode => service.layer = 0) services
  rw [layered.filter_zero] at split
  simpa using split

theorem convertToFlowData_perm (layered : Layered services root)
    (localeCompare : String → String → Int) (connections : List ServiceConnection) :
    ((convertToFlowData localeCompare services connections (some root.id)).nodes.map
      (·.id)).Perm (services.map (·.id)) := by
  let others := (Pieces.groupBy ServiceNode.layer services).erase 0
  have row_others : ∀ layer, others.row (layer + 1) =
      services.filter fun service => service.layer = layer + 1 := by
    intro layer
    rw [Finmap.row_erase_of_ne (Nat.succ_ne_zero layer), Pieces.row_groupBy]
  have drawn : (convertToFlowData localeCompare services connections (some root.id)).nodes =
      root.toFlowNode :: (List.range others.keys.card).flatMap fun index =>
        layerFlowNodes localeCompare connections (others.row (index + 1)) := by
    simp only [convertToFlowData, layered.find_root, Option.elim_some, layered.layer_root,
      Option.map_some, Option.toList_some, List.singleton_append, others]
  have layers : ((List.range others.keys.card).flatMap fun index =>
      (layerFlowNodes localeCompare connections (others.row (index + 1))).map (·.id)).Perm
        ((services.filter fun service => service.layer ≠ 0).map (·.id)) := by
    refine List.Perm.trans ?_ (layered.walked_perm.map _)
    rw [List.map_flatMap]
    refine List.Perm.flatMap_left _ ?_
    intro index _
    rw [← row_others]
    exact map_id_layerFlowNodes ..
  rw [drawn, List.map_cons, List.map_flatMap]
  exact (layers.cons _).trans (layered.root_cons_perm.map ServiceNode.id)

end Layered

theorem nodes_convertToFlowData_nil (localeCompare : String → String → Int)
    (connections : List ServiceConnection) (rootService : Option String) :
    (convertToFlowData localeCompare [] connections rootService).nodes = [] := by
  simp [convertToFlowData, Pieces.groupBy]

/-! ## The layers of the transformed topology -/

section Transformed

variable {data : QubitTopology} {nodes : AList fun _ : String => NodeDto}

theorem layer_serviceOf_eq_zero_iff {connections : List ServiceConnection} {root : String}
    {entry : Sigma fun _ : String => NodeDto} :
    (serviceOf (layersFrom connections root) entry).layer = 0 ↔ entry.1 = root := by
  have distance_zero : (layersFrom connections root).lookup entry.1 = some 0 ↔
      entry.1 = root := by
    rw [lookup_layersFrom_iff, LevelSearch.atDistance_zero]
  rw [serviceOf, ← distance_zero]
  cases (layersFrom connections root).lookup entry.1 with
  | none => simp
  | some layer => simp

theorem atDistance_of_layer_serviceOf {connections : List ServiceConnection} {root : String}
    {entry : Sigma fun _ : String => NodeDto} {layer : Nat}
    (layer_eq : (serviceOf (layersFrom connections root) entry).layer = layer + 2) :
    LevelSearch.AtDistance (targetsOf connections) root (layer + 2) entry.1 := by
  rw [serviceOf] at layer_eq
  rw [← lookup_layersFrom_iff]
  cases known : (layersFrom connections root).lookup entry.1 with
  | none => simp [known] at layer_eq
  | some distance => simpa [known] using layer_eq

/-- What is found behind the root is the target of a connection. -/
theorem exists_target_of_atDistance {connections : List ServiceConnection} {root id : String}
    {distance : Nat}
    (atDistance : LevelSearch.AtDistance (targetsOf connections) root (distance + 1) id) :
    ∃ connection ∈ connections, connection.target = id := by
  rcases (LevelSearch.atDistance_succ_iff.mp atDistance).2 with ⟨before, -, link⟩
  rcases List.mem_map.mp link with ⟨connection, followed, target_eq⟩
  exact ⟨connection, List.mem_of_mem_filter followed, target_eq⟩

theorem layered_services {root : String} (rootMem : root ∈ nodes.keys)
    {connections : List ServiceConnection}
    (target_mem : ∀ connection ∈ connections, connection.target ∈ nodes.keys) :
    ∃ rootNode, rootNode.id = root ∧
      Layered (nodes.entries.map (serviceOf (layersFrom connections root))) rootNode := by
  rcases List.mem_map.mp rootMem with ⟨rootEntry, rootListed, rootEntry_eq⟩
  have unique : ∀ service ∈ nodes.entries.map (serviceOf (layersFrom connections root)),
      service.id = root → service = serviceOf (layersFrom connections root) rootEntry := by
    intro service member same
    rcases List.mem_map.mp member with ⟨entry, listed, rfl⟩
    have sameKey : entry.1 = rootEntry.1 := same.trans rootEntry_eq.symm
    rw [List.NodupKeys.eq_of_fst_eq nodes.nodupKeys listed rootListed sameKey]
  have onlyRoot : ∀ service ∈ nodes.entries.map (serviceOf (layersFrom connections root)),
      service.layer = 0 ↔ service = serviceOf (layersFrom connections root) rootEntry := by
    intro service member
    rcases List.mem_map.mp member with ⟨entry, -, rfl⟩
    rw [layer_serviceOf_eq_zero_iff]
    constructor
    · exact unique _ member
    · exact fun same => (congrArg ServiceNode.id same).trans rootEntry_eq
  have rootMember : serviceOf (layersFrom connections root) rootEntry ∈
      nodes.entries.map (serviceOf (layersFrom connections root)) :=
    List.mem_map_of_mem rootListed
  have nodup : (nodes.entries.map (serviceOf (layersFrom connections root))).Nodup := by
    refine List.Nodup.of_map ServiceNode.id ?_
    rw [List.map_map]
    exact nodes.keys_nodup
  refine ⟨serviceOf (layersFrom connections root) rootEntry, rootEntry_eq, ?_, ?_, ?_, ?_⟩
  · cases found : (nodes.entries.map (serviceOf (layersFrom connections root))).find?
        fun service => some service.id =
          some (serviceOf (layersFrom connections root) rootEntry).id with
    | none =>
        have missed := List.find?_eq_none.mp found _ rootMember
        simp at missed
    | some service =>
        have same := List.find?_some found
        simp only [Option.some.injEq, decide_eq_true_eq] at same
        rw [unique service (List.mem_of_find?_eq_some found) (same.trans rootEntry_eq)]
  · exact layer_serviceOf_eq_zero_iff.mpr rootEntry_eq
  · rw [List.filter_congr fun service member => decide_eq_decide.mpr (onlyRoot service member),
      List.filter_eq, List.count_eq_one_of_mem nodup rootMember, List.replicate_one]
  · intro service member layer layer_eq
    rcases List.mem_map.mp member with ⟨entry, -, rfl⟩
    have found := atDistance_of_layer_serviceOf layer_eq
    rcases (LevelSearch.atDistance_succ_iff.mp found).2 with ⟨parent, parentAt, -⟩
    -- The parent is itself a target, and therefore a listed node.
    rcases exists_target_of_atDistance parentAt with ⟨connection, followed, rfl⟩
    rcases List.mem_map.mp (target_mem connection followed) with ⟨parentEntry, listed, same⟩
    refine ⟨_, List.mem_map_of_mem listed, ?_⟩
    rw [← same] at parentAt
    rw [serviceOf, lookup_layersFrom_iff.mpr parentAt, Option.getD_some]

end Transformed

/-- Every node of the response is drawn exactly once. -/
theorem drawn_perm_keys (localeCompare : String → String → Int) (data : QubitTopology) :
    let shown := transformTopologyData (some data)
    ((convertToFlowData localeCompare shown.services shown.connections
      shown.rootService).nodes.map (·.id)).Perm (data.nodes.elim [] AList.keys) := by
  intro shown
  cases received : data.nodes with
  | none => simp [shown, transformTopologyData, received, nodes_convertToFlowData_nil]
  | some nodes =>
      have services_eq : shown.services = nodes.entries.map
          (serviceOf ((rootId (connectionsOf data nodes) nodes).elim ∅
            (layersFrom (connectionsOf data nodes)))) := by
        simp only [shown, transformTopologyData, received]
        rfl
      have ids : shown.services.map (·.id) = nodes.keys := by
        rw [services_eq, List.map_map]
        rfl
      by_cases nonempty : nodes.entries = []
      · have noServices : shown.services = [] := by rw [services_eq, nonempty, List.map_nil]
        rw [Option.elim_some, ← ids, noServices, nodes_convertToFlowData_nil]
        exact List.Perm.nil
      · have rootKnown : ∃ root ∈ nodes.keys,
            rootId (connectionsOf data nodes) nodes = some root := exists_rootId nonempty
        have target_mem : ∀ connection ∈ connectionsOf data nodes,
            connection.target ∈ nodes.keys := by
          intro connection member
          exact (ends_mem_keys member).2
        rcases rootKnown with ⟨root, rootMem, root_eq⟩
        rcases layered_services rootMem target_mem with ⟨rootNode, rootNode_eq, layered⟩
        have rootService_eq : shown.rootService = some rootNode.id := by
          simp only [shown, transformTopologyData, received, root_eq, rootNode_eq]
        rw [root_eq, Option.elim_some] at services_eq
        rw [← services_eq] at layered
        rw [rootService_eq, Option.elim_some, ← ids]
        exact layered.convertToFlowData_perm localeCompare shown.connections

end Qubit.Ui
