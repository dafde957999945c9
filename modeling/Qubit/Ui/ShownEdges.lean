import Qubit.Core.Coherence
import Qubit.Ui.TopologyUtils

/-!
# The edges shown and the edges stored

Core sends a flow with the bare application names of its ends, and the UI finds the
node of a name in a map that keeps one node for each name. Both sides agree on the
edges, whatever the orders in which the maps are listed, exactly when every end of a
flow is the only node of its application name and no two edges have the same text:
otherwise some listing makes the UI draw an edge to the other node of the name.
-/

namespace Qubit

namespace Topology

def edgeKeys (topology : Topology) : Set (String × String) :=
  {edge | ∃ node, ∃ flow ∈ topology.downstream.row node,
    (flow.sourceNode.key, flow.destinationNode.key) = edge}

/-- Both maps store the same flows, and the ends of the flows are nodes. -/
structure Mirrored (topology : Topology) : Prop where
  stored_iff : ∀ flow, (∃ node, flow ∈ topology.upstream.row node) ↔
    ∃ node, flow ∈ topology.downstream.row node
  mem_nodes : ∀ node, ∀ flow ∈ topology.downstream.row node,
    flow.sourceNode ∈ topology.nodes ∧ flow.destinationNode ∈ topology.nodes

def entryNodes (topology : Topology) : Finset NodeId :=
  topology.nodes.keys ∪ (topology.upstream.keys ∪ topology.downstream.keys)

theorem mem_entryNodes {topology : Topology} {id : NodeId} :
    id ∈ topology.entryNodes ↔
      id ∈ topology.nodes ∨ id ∈ topology.upstream ∨ id ∈ topology.downstream := by
  simp only [entryNodes, Finset.mem_union, Finmap.mem_keys]

def DistinctKeys (topology : Topology) : Prop :=
  ∀ id ∈ topology.entryNodes, ∀ other ∈ topology.entryNodes, id.key = other.key → id = other

instance (topology : Topology) : Decidable topology.DistinctKeys :=
  inferInstanceAs (Decidable (∀ _ ∈ _, ∀ _ ∈ _, _ → _))

theorem DistinctKeys.eq_of_mem_nodes {topology : Topology} (distinct : topology.DistinctKeys)
    {id other : NodeId} (idMem : id ∈ topology.nodes) (otherMem : other ∈ topology.nodes)
    (sameText : id.key = other.key) : id = other :=
  distinct id (mem_entryNodes.mpr (Or.inl idMem)) other (mem_entryNodes.mpr (Or.inl otherMem))
    sameText

/-- Every end of a flow is the only node with its application name. -/
def EndsNamedApart (topology : Topology) : Prop :=
  ∀ node, ∀ flow ∈ topology.downstream.row node, ∀ other ∈ topology.nodes,
    (other.applicationName = flow.sourceNode.applicationName → other = flow.sourceNode) ∧
      (other.applicationName = flow.destinationNode.applicationName →
        other = flow.destinationNode)

def EdgeTextsApart (topology : Topology) : Prop :=
  ∀ edge ∈ topology.edgeKeys, ∀ other ∈ topology.edgeKeys,
    edge.1 ++ "→" ++ edge.2 = other.1 ++ "→" ++ other.2 → edge = other

theorem Coherent.isMirrored {topology : Topology} (coherent : topology.Coherent) :
    topology.Mirrored where
  stored_iff := by
    intro flow
    constructor
    · rintro ⟨node, stored⟩
      have here := coherent.upstream_keyed node flow stored
      subst here
      refine ⟨flow.sourceNode, List.count_pos_iff.mp ?_⟩
      rw [← coherent.mirrored]
      exact List.count_pos_iff.mpr stored
    · rintro ⟨node, stored⟩
      have here := coherent.downstream_keyed node flow stored
      subst here
      refine ⟨flow.destinationNode, List.count_pos_iff.mp ?_⟩
      rw [coherent.mirrored]
      exact List.count_pos_iff.mpr stored
  mem_nodes := by
    intro node flow stored
    rw [coherent.mem_nodes, coherent.mem_nodes]
    exact ⟨⟨flow, Or.inr ⟨node, stored⟩, Or.inl rfl⟩, ⟨flow, Or.inr ⟨node, stored⟩, Or.inr rfl⟩⟩

end Topology

theorem CoreState.IsView.isMirrored {state : CoreState} (view : state.IsView) :
    state.topology.Mirrored := by
  rcases view with ⟨calls, represents⟩
  exact represents.coherent.isMirrored

theorem NodeId.key_ne_empty (id : NodeId) : id.key ≠ "" := by
  intro empty
  have length := congrArg String.length empty
  simp only [key, String.length_append] at length
  have slash : "/".length = 1 := rfl
  have nothing : "".length = 0 := rfl
  omega

namespace Ui

def TransformedTopology.edges (type : ConnectionType) (shown : TransformedTopology) :
    Set (String × String) :=
  {edge | { source := edge.1, target := edge.2, type } ∈ shown.connections}

/-- The data is the JSON of the response for some listings of the maps. -/
def Serves (topology : Topology) (data : QubitTopology) : Prop :=
  ∃ nodes upstream downstream, nodes.toFinmap = topology.nodes ∧
    upstream.toFinmap = topology.upstream ∧ downstream.toFinmap = topology.downstream ∧
    ∃ dataNodes dataUpstream dataDownstream,
      data = { nodes := some dataNodes, upstream := some dataUpstream,
               downstream := some dataDownstream } ∧
      dataNodes.toFinmap = (Handler.topology nodes upstream downstream).nodes ∧
      dataUpstream.toFinmap = (Handler.topology nodes upstream downstream).upstream ∧
      dataDownstream.toFinmap = (Handler.topology nodes upstream downstream).downstream

/-! ## What the loop over the flows keeps -/

def connection? (ids : Finmap fun _ : String => String) (type : ConnectionType) (flow : FlowDto) :
    Option ServiceConnection :=
  match (ids.lookup flow.sourceApplication).filter (· ≠ ""),
      (ids.lookup flow.destinationApplication).filter (· ≠ "") with
  | some source, some target => some { source, target, type }
  | _, _ => none

def flowsOf (lists : Option (AList fun _ : String => FlowList)) : List FlowDto :=
  lists.elim [] fun lists => lists.entries.flatMap (·.2.flows)

theorem addConnection_eq (ids : Finmap fun _ : String => String) (type : ConnectionType)
    (built : Connections) (flow : FlowDto) :
    addConnection ids type built flow =
      match connection? ids type flow with
      | some connection => built.push ServiceConnection.key connection
      | none => built := by
  unfold addConnection connection?
  cases (ids.lookup flow.sourceApplication).filter (· ≠ "") with
  | none => rfl
  | some source =>
      cases (ids.lookup flow.destinationApplication).filter (· ≠ "") with
      | none => rfl
      | some target => rfl

theorem foldl_addConnection (ids : Finmap fun _ : String => String) (type : ConnectionType)
    (flows : List FlowDto) (built : Connections) :
    flows.foldl (addConnection ids type) built =
      (flows.filterMap (connection? ids type)).foldl
        (KeepFirst.Progress.push ServiceConnection.key) built := by
  induction flows generalizing built with
  | nil => rfl
  | cons flow rest ih =>
      rw [List.foldl_cons, ih, addConnection_eq, List.filterMap_cons]
      cases connection? ids type flow with
      | none => rfl
      | some connection => rfl

theorem addConnections_eq (ids : Finmap fun _ : String => String) (type : ConnectionType)
    (lists : Option (AList fun _ : String => FlowList)) (built : Connections) :
    addConnections ids type lists built =
      ((flowsOf lists).filterMap (connection? ids type)).foldl
        (KeepFirst.Progress.push ServiceConnection.key) built := by
  cases lists with
  | none => rfl
  | some lists =>
      rw [← foldl_addConnection, flowsOf, Option.elim_some, List.foldl_flatMap]
      rfl

/-- The connections that the loop meets, in order. -/
def metConnections (data : QubitTopology) (nodes : AList fun _ : String => NodeDto) :
    List ServiceConnection :=
  (flowsOf data.downstream).filterMap (connection? (nameToId nodes) .downstream) ++
    (flowsOf data.upstream).filterMap (connection? (nameToId nodes) .upstream)

theorem connectionsOf_eq (data : QubitTopology) (nodes : AList fun _ : String => NodeDto) :
    connectionsOf data nodes =
      KeepFirst.keep ServiceConnection.key ∅ (metConnections data nodes) := by
  rw [connectionsOf, addConnections_eq, addConnections_eq, ← List.foldl_append,
    KeepFirst.kept_foldl_push]
  rfl

theorem key_eq_iff {connection other : ServiceConnection} :
    connection.key = other.key ↔ connection.type = other.type ∧
      connection.source ++ "→" ++ connection.target = other.source ++ "→" ++ other.target := by
  simp only [ServiceConnection.key, ← String.toList_inj, String.toList_append]
  cases connection.type with
  | upstream =>
      cases other.type with
      | upstream => simp [ConnectionType.text]
      | downstream => simp [ConnectionType.text]
  | downstream =>
      cases other.type with
      | upstream => simp [ConnectionType.text]
      | downstream => simp [ConnectionType.text]

/-! ## Data served by Core -/

/-- What the UI receives of a topology. -/
structure Received (topology : Topology) (data : QubitTopology)
    (nodes : AList fun _ : String => NodeDto) : Prop where
  nodes_eq : data.nodes = some nodes
  mem_entries : ∀ text dto, ⟨text, dto⟩ ∈ nodes.entries ↔
    ∃ id nodeData, topology.nodes.lookup id = some nodeData ∧ id.key = text ∧
      id.toDto nodeData = dto
  mem_downstream : ∀ dto, dto ∈ flowsOf data.downstream ↔
    ∃ node, ∃ flow ∈ topology.downstream.row node, flow.toDto = dto
  mem_upstream : ∀ dto, dto ∈ flowsOf data.upstream ↔
    ∃ node, ∃ flow ∈ topology.upstream.row node, flow.toDto = dto

theorem mem_flowsOf {lists : AList fun _ : String => FlowList} {dto : FlowDto} :
    dto ∈ flowsOf (some lists) ↔
      ∃ text list, lists.toFinmap.lookup text = some list ∧ dto ∈ list.flows := by
  simp only [flowsOf, Option.elim_some, List.mem_flatMap]
  constructor
  · rintro ⟨⟨text, list⟩, listed, member⟩
    exact ⟨text, list, Finmap.mem_entries_iff_lookup.mp listed, member⟩
  · rintro ⟨text, list, found, member⟩
    exact ⟨⟨text, list⟩, Finmap.mem_entries_iff_lookup.mpr found, member⟩

theorem Serves.exists_received {topology : Topology} {data : QubitTopology}
    (distinct : topology.DistinctKeys) (serves : Serves topology data) :
    ∃ nodes, Received topology data nodes := by
  rcases serves with ⟨nodes, upstream, downstream, nodesListed, upstreamListed, downstreamListed,
    dataNodes, dataUpstream, dataDownstream, rfl, nodesSent, upstreamSent, downstreamSent⟩
  refine ⟨dataNodes, rfl, ?_, ?_, ?_⟩
  · intro text dto
    rw [Finmap.mem_entries_iff_lookup, nodesSent, Handler.topology, Handler.lookup_collect_key,
      nodesListed]
    rw [nodesListed]
    intro id idMem other otherMem sameText
    exact distinct.eq_of_mem_nodes idMem otherMem sameText
  · intro dto
    rw [mem_flowsOf, downstreamSent, Handler.topology, Handler.mem_flowLists, downstreamListed]
    rw [downstreamListed]
    intro id idMem other otherMem sameText
    exact distinct id (Topology.mem_entryNodes.mpr (Or.inr (Or.inr idMem))) other
      (Topology.mem_entryNodes.mpr (Or.inr (Or.inr otherMem))) sameText
  · intro dto
    rw [mem_flowsOf, upstreamSent, Handler.topology, Handler.mem_flowLists, upstreamListed]
    rw [upstreamListed]
    intro id idMem other otherMem sameText
    exact distinct id (Topology.mem_entryNodes.mpr (Or.inr (Or.inl idMem))) other
      (Topology.mem_entryNodes.mpr (Or.inr (Or.inl otherMem))) sameText

namespace Received

variable {topology : Topology} {data : QubitTopology} {nodes : AList fun _ : String => NodeDto}

theorem exists_node (received : Received topology data nodes) {name text : String}
    (found : (nameToId nodes).lookup name = some text) :
    ∃ id ∈ topology.nodes, id.key = text ∧ id.applicationName = name := by
  rcases List.mem_map.mp (Finmap.mem_of_lookup_collect found) with ⟨⟨listedText, dto⟩, listed, same⟩
  rcases (received.mem_entries listedText dto).mp listed with ⟨id, nodeData, stored, key, rfl⟩
  rw [Prod.mk.injEq] at same
  exact ⟨id, Finmap.mem_of_lookup_eq_some stored, key.trans same.2, same.1⟩

theorem exists_lookup (received : Received topology data nodes) {id : NodeId}
    (node : id ∈ topology.nodes) :
    ∃ text, (nameToId nodes).lookup id.applicationName = some text := by
  rcases Finmap.mem_iff.mp node with ⟨nodeData, stored⟩
  have listed : ⟨id.key, id.toDto nodeData⟩ ∈ nodes.entries :=
    (received.mem_entries _ _).mpr ⟨id, nodeData, stored, rfl, rfl⟩
  exact Finmap.exists_lookup_collect (List.mem_map_of_mem (f := fun entry =>
    (entry.2.applicationName, entry.1)) listed)

theorem lookup_of_unique (received : Received topology data nodes) {id : NodeId}
    (node : id ∈ topology.nodes)
    (unique : ∀ other ∈ topology.nodes, other.applicationName = id.applicationName → other = id) :
    (nameToId nodes).lookup id.applicationName = some id.key := by
  rcases received.exists_lookup node with ⟨text, found⟩
  rcases received.exists_node found with ⟨other, otherMem, key, name⟩
  rw [found, ← key, unique other otherMem name]

theorem filter_lookup (received : Received topology data nodes) (name : String) :
    ((nameToId nodes).lookup name).filter (· ≠ "") = (nameToId nodes).lookup name := by
  cases found : (nameToId nodes).lookup name with
  | none => rfl
  | some text =>
      rcases received.exists_node found with ⟨id, -, rfl, -⟩
      simp [Option.filter_some, id.key_ne_empty]

theorem connection?_eq_some (received : Received topology data nodes) {type : ConnectionType}
    {flow : FlowDto} {connection : ServiceConnection} :
    connection? (nameToId nodes) type flow = some connection ↔
      (nameToId nodes).lookup flow.sourceApplication = some connection.source ∧
        (nameToId nodes).lookup flow.destinationApplication = some connection.target ∧
        connection.type = type := by
  simp only [connection?, received.filter_lookup]
  cases (nameToId nodes).lookup flow.sourceApplication with
  | none => simp
  | some source =>
      cases (nameToId nodes).lookup flow.destinationApplication with
      | none => simp
      | some target =>
          rcases connection with ⟨otherSource, otherTarget, otherType⟩
          simp only [Option.some.injEq, ServiceConnection.mk.injEq]
          tauto

theorem mem_edges (received : Received topology data nodes) {type : ConnectionType}
    {edge : String × String} :
    edge ∈ (transformTopologyData (some data)).edges type ↔
      { source := edge.1, target := edge.2, type } ∈
        KeepFirst.keep ServiceConnection.key ∅ (metConnections data nodes) := by
  rw [← connectionsOf_eq]
  simp only [TransformedTopology.edges, transformTopologyData, received.nodes_eq,
    Set.mem_ofPred_eq]

theorem mem_met (received : Received topology data nodes) (mirrored : topology.Mirrored)
    {connection : ServiceConnection} :
    connection ∈ metConnections data nodes ↔
      ∃ node, ∃ flow ∈ topology.downstream.row node,
        (nameToId nodes).lookup flow.sourceNode.applicationName = some connection.source ∧
          (nameToId nodes).lookup flow.destinationNode.applicationName =
            some connection.target := by
  simp only [metConnections, List.mem_append, List.mem_filterMap, received.mem_downstream,
    received.mem_upstream, received.connection?_eq_some]
  constructor
  · rintro (⟨_, ⟨node, flow, stored, rfl⟩, source, target, -⟩ |
      ⟨_, ⟨node, flow, stored, rfl⟩, source, target, -⟩)
    · exact ⟨node, flow, stored, source, target⟩
    · rcases (mirrored.stored_iff flow).mp ⟨node, stored⟩ with ⟨node', stored'⟩
      exact ⟨node', flow, stored', source, target⟩
  · rintro ⟨node, flow, stored, source, target⟩
    cases type : connection.type with
    | downstream =>
        exact Or.inl ⟨flow.toDto, ⟨node, flow, stored, rfl⟩, source, target, rfl⟩
    | upstream =>
        rcases (mirrored.stored_iff flow).mpr ⟨node, stored⟩ with ⟨node', stored'⟩
        exact Or.inr ⟨flow.toDto, ⟨node', flow, stored', rfl⟩, source, target, rfl⟩

/-- When the edges agree, the ends of every flow are found under their own keys. -/
theorem lookup_of_edges_eq (received : Received topology data nodes)
    (mirrored : topology.Mirrored) (distinct : topology.DistinctKeys) {type : ConnectionType}
    (agree : (transformTopologyData (some data)).edges type = topology.edgeKeys)
    {node : NodeId} {flow : Flow} (stored : flow ∈ topology.downstream.row node) :
    (nameToId nodes).lookup flow.sourceNode.applicationName = some flow.sourceNode.key ∧
      (nameToId nodes).lookup flow.destinationNode.applicationName =
        some flow.destinationNode.key := by
  have ownKey : ∀ end' ∈ topology.nodes, ∀ name,
      (nameToId nodes).lookup name = some end'.key →
        (nameToId nodes).lookup end'.applicationName = some end'.key := by
    intro end' endMem name found
    rcases received.exists_node found with ⟨id, idMem, key, idName⟩
    have same : id = end' := distinct.eq_of_mem_nodes idMem endMem key
    rwa [← same, idName, same]
  have edge : (flow.sourceNode.key, flow.destinationNode.key) ∈ topology.edgeKeys :=
    ⟨node, flow, stored, rfl⟩
  rw [← agree, received.mem_edges] at edge
  rcases (received.mem_met mirrored).mp (KeepFirst.mem_of_mem_keep edge).1 with
    ⟨_, shown, -, source, target⟩
  have ends := mirrored.mem_nodes node flow stored
  exact ⟨ownKey _ ends.1 _ source, ownKey _ ends.2 _ target⟩

/-- When every end has a name of its own, the loop meets the edges of the graph. -/
theorem mem_met_of_endsNamedApart (received : Received topology data nodes)
    (mirrored : topology.Mirrored) (namedApart : topology.EndsNamedApart)
    {connection : ServiceConnection} :
    connection ∈ metConnections data nodes ↔
      (connection.source, connection.target) ∈ topology.edgeKeys := by
  have keys : ∀ node, ∀ flow ∈ topology.downstream.row node,
      (nameToId nodes).lookup flow.sourceNode.applicationName = some flow.sourceNode.key ∧
        (nameToId nodes).lookup flow.destinationNode.applicationName =
          some flow.destinationNode.key := by
    intro node flow stored
    have ends := mirrored.mem_nodes node flow stored
    exact ⟨received.lookup_of_unique ends.1 fun other otherMem =>
        (namedApart node flow stored other otherMem).1,
      received.lookup_of_unique ends.2 fun other otherMem =>
        (namedApart node flow stored other otherMem).2⟩
  rw [received.mem_met mirrored]
  constructor
  · rintro ⟨node, flow, stored, source, target⟩
    have own := keys node flow stored
    rw [own.1, Option.some.injEq] at source
    rw [own.2, Option.some.injEq] at target
    exact ⟨node, flow, stored, Prod.ext source target⟩
  · rintro ⟨node, flow, stored, same⟩
    rw [Prod.mk.injEq] at same
    rw [← same.1, ← same.2]
    exact ⟨node, flow, stored, keys node flow stored⟩

/-- When moreover the edges have texts of their own, the edges shown are those of the graph. -/
theorem edges_eq (received : Received topology data nodes) (mirrored : topology.Mirrored)
    (namedApart : topology.EndsNamedApart) (textsApart : topology.EdgeTextsApart)
    (type : ConnectionType) :
    (transformTopologyData (some data)).edges type = topology.edgeKeys := by
  have met : ∀ connection : ServiceConnection, connection ∈ metConnections data nodes ↔
      (connection.source, connection.target) ∈ topology.edgeKeys :=
    fun _ => received.mem_met_of_endsNamedApart mirrored namedApart
  ext edge
  rw [received.mem_edges]
  constructor
  · intro shown
    exact (met _).mp (KeepFirst.mem_of_mem_keep shown).1
  · intro stored
    refine KeepFirst.mem_keep_of_injOn ((met _).mpr stored) fun other otherMet sameKey => ?_
    rcases key_eq_iff.mp sameKey with ⟨sameType, sameText⟩
    have sameEdge := textsApart _ ((met other).mp otherMet) edge stored sameText
    rw [Prod.ext_iff] at sameEdge
    rcases other with ⟨source, target, otherType⟩
    simp only at sameEdge sameType
    rw [sameEdge.1, sameEdge.2, sameType]

/-- Edges that are all shown have texts of their own. -/
theorem edgeTextsApart_of_edges_eq (received : Received topology data nodes)
    {type : ConnectionType}
    (agree : (transformTopologyData (some data)).edges type = topology.edgeKeys) :
    topology.EdgeTextsApart := by
  intro edge edgeMem other otherMem sameText
  rw [← agree, received.mem_edges] at edgeMem otherMem
  have same := KeepFirst.eq_of_mem_keep edgeMem otherMem (key_eq_iff.mpr ⟨rfl, sameText⟩)
  rw [ServiceConnection.mk.injEq] at same
  exact Prod.ext same.1 same.2.1

end Received

/-- Some served data lists a given node last. -/
theorem exists_serves_last {topology : Topology} (distinct : topology.DistinctKeys) {id : NodeId}
    (node : id ∈ topology.nodes) :
    ∃ data nodes, Serves topology data ∧ data.nodes = some nodes ∧
      (nameToId nodes).lookup id.applicationName = some id.key := by
  rcases Finmap.mem_iff.mp node with ⟨nodeData, stored⟩
  rcases Finmap.exists_listing topology.nodes with ⟨nodes, nodesListed⟩
  rcases Finmap.exists_listing topology.upstream with ⟨upstream, upstreamListed⟩
  rcases Finmap.exists_listing topology.downstream with ⟨downstream, downstreamListed⟩
  have sent : (Handler.topology nodes upstream downstream).nodes.lookup id.key =
      some (id.toDto nodeData) := by
    rw [Handler.topology, Handler.lookup_collect_key]
    · exact ⟨id, nodeData, by rw [nodesListed, stored], rfl, rfl⟩
    · rw [nodesListed]
      intro other otherMem another anotherMem sameText
      exact distinct.eq_of_mem_nodes otherMem anotherMem sameText
  rcases Finmap.exists_listing_last sent with ⟨dataNodes, before, nodesSent, last⟩
  rcases Finmap.exists_listing (Handler.topology nodes upstream downstream).upstream with
    ⟨dataUpstream, upstreamSent⟩
  rcases Finmap.exists_listing (Handler.topology nodes upstream downstream).downstream with
    ⟨dataDownstream, downstreamSent⟩
  refine ⟨⟨some dataNodes, some dataUpstream, some dataDownstream⟩, dataNodes,
    ⟨nodes, upstream, downstream, nodesListed, upstreamListed, downstreamListed, dataNodes,
      dataUpstream, dataDownstream, rfl, nodesSent, upstreamSent, downstreamSent⟩, rfl, ?_⟩
  rw [nameToId, last, List.map_append, List.map_singleton, Finmap.lookup_collect_concat]
  exact if_pos rfl

/-- When the edges agree for every listing, every end has a name of its own. -/
theorem endsNamedApart_of_edges_eq {topology : Topology} (mirrored : topology.Mirrored)
    (distinct : topology.DistinctKeys) {type : ConnectionType}
    (agree : ∀ data, Serves topology data →
      (transformTopologyData (some data)).edges type = topology.edgeKeys) :
    topology.EndsNamedApart := by
  intro node flow stored id idMem
  rcases exists_serves_last distinct idMem with ⟨data, last, serves, isNodes, lastFound⟩
  rcases serves.exists_received distinct with ⟨nodes, received⟩
  have same : nodes = last := by
    rw [received.nodes_eq, Option.some.injEq] at isNodes
    exact isNodes
  subst same
  have ownKeys := received.lookup_of_edges_eq mirrored distinct (agree data serves) stored
  have ends := mirrored.mem_nodes node flow stored
  constructor
  · intro sameName
    rw [sameName, ownKeys.1, Option.some.injEq] at lastFound
    exact distinct.eq_of_mem_nodes idMem ends.1 lastFound.symm
  · intro sameName
    rw [sameName, ownKeys.2, Option.some.injEq] at lastFound
    exact distinct.eq_of_mem_nodes idMem ends.2 lastFound.symm

/--
For every mirrored topology whose nodes have different texts, the UI shows the edges of Core's
graph for every listing of the maps, exactly when each end of a flow is the only node of its
application name and different edges have different texts.
-/
theorem edges_eq_iff (topology : Topology) (mirrored : topology.Mirrored)
    (distinct : topology.DistinctKeys) :
    (∀ data, Serves topology data →
        ∀ type, (transformTopologyData (some data)).edges type = topology.edgeKeys) ↔
      topology.EndsNamedApart ∧ topology.EdgeTextsApart := by
  constructor
  · intro agree
    refine ⟨endsNamedApart_of_edges_eq mirrored distinct fun data serves =>
      agree data serves .downstream, ?_⟩
    intro edge edgeMem
    have ⟨node, flow, stored, _⟩ := edgeMem
    rcases exists_serves_last distinct (mirrored.mem_nodes node flow stored).1 with
      ⟨data, _, serves, -, -⟩
    rcases serves.exists_received distinct with ⟨nodes, received⟩
    exact received.edgeTextsApart_of_edges_eq (agree data serves .downstream) edge edgeMem
  · rintro ⟨namedApart, textsApart⟩ data serves type
    rcases serves.exists_received distinct with ⟨nodes, received⟩
    exact received.edges_eq mirrored namedApart textsApart type

/-- A service calls a name that is not resolved, and the pod of that name in its namespace. -/
def sameNameTwice : List Request :=
  [.sendPodEvent
      { podIp := "10.0.0.1", ns := "default", eventType := 0, applicationName := "web",
        serviceName := "web", serviceType := "ClusterIP" },
    .sendEbpfNetworkEvent
      { srcIp := 16777226, dstIp := 50331658, method := "GET", path := "/", host := "db" },
    .sendPodEvent
      { podIp := "10.0.0.2", ns := "default", eventType := 0, applicationName := "db",
        serviceName := "db", serviceType := "ClusterIP" },
    .sendEbpfNetworkEvent
      { srcIp := 16777226, dstIp := 33554442, method := "GET", path := "/", host := "db" }]

def oneCall : List Request :=
  [.sendPodEvent
      { podIp := "10.0.0.1", ns := "default", eventType := 0, applicationName := "web",
        serviceName := "web", serviceType := "ClusterIP" },
    .sendEbpfNetworkEvent
      { srcIp := 16777226, dstIp := 50331658, method := "GET", path := "/", host := "db" }]

theorem edges_oneCall_iff :
    (∀ data, Serves (CoreState.empty.run oneCall).topology data →
        ∀ type, (transformTopologyData (some data)).edges type =
          (CoreState.empty.run oneCall).topology.edgeKeys) ↔
      (CoreState.empty.run oneCall).topology.EndsNamedApart ∧
        (CoreState.empty.run oneCall).topology.EdgeTextsApart :=
  edges_eq_iff (CoreState.empty.run oneCall).topology
    (CoreState.isView_run oneCall).isMirrored (by decide +kernel)

/-- A listing of the three maps after `sameNameTwice`. -/
def sameNameListing : QubitTopology where
  nodes := some (List.toAList
    [⟨"default/web", { applicationName := "web", ns := "default", ip := "10.0.0.1" }⟩,
      ⟨"unknown/db", { applicationName := "db", ns := "unknown", ip := "10.0.0.3" }⟩,
      ⟨"default/db", { applicationName := "db", ns := "default", ip := "10.0.0.2" }⟩])
  upstream := some (List.toAList
    [⟨"unknown/db", { flows := [{ sourceApplication := "web", destinationApplication := "db",
                                  method := "GET", path := "/" }] }⟩,
      ⟨"default/db", { flows := [{ sourceApplication := "web", destinationApplication := "db",
                                   method := "GET", path := "/" }] }⟩])
  downstream := some (List.toAList
    [⟨"default/web", { flows := [{ sourceApplication := "web", destinationApplication := "db",
                                   method := "GET", path := "/" },
                                 { sourceApplication := "web", destinationApplication := "db",
                                   method := "GET", path := "/" }] }⟩])

theorem exists_edge_not_shown :
    ∃ (topology : Topology) (data : QubitTopology), topology.Mirrored ∧ topology.DistinctKeys ∧
      Serves topology data ∧
      (transformTopologyData (some data)).edges .downstream ≠ topology.edgeKeys := by
  refine ⟨(CoreState.empty.run sameNameTwice).topology, sameNameListing,
    (CoreState.isView_run sameNameTwice).isMirrored, by decide +kernel, ?_, ?_⟩
  · refine ⟨List.toAList
        [⟨⟨"web", "default"⟩, { ip := "10.0.0.1" }⟩, ⟨⟨"db", "unknown"⟩, { ip := "10.0.0.3" }⟩,
          ⟨⟨"db", "default"⟩, { ip := "10.0.0.2" }⟩],
      List.toAList
        [⟨⟨"db", "unknown"⟩, [⟨⟨"web", "default"⟩, ⟨"db", "unknown"⟩, "/", "GET"⟩]⟩,
          ⟨⟨"db", "default"⟩, [⟨⟨"web", "default"⟩, ⟨"db", "default"⟩, "/", "GET"⟩]⟩],
      List.toAList
        [⟨⟨"web", "default"⟩, [⟨⟨"web", "default"⟩, ⟨"db", "unknown"⟩, "/", "GET"⟩,
          ⟨⟨"web", "default"⟩, ⟨"db", "default"⟩, "/", "GET"⟩]⟩],
      by decide +kernel, by decide +kernel, by decide +kernel, _, _, _, rfl, by decide +kernel,
      by decide +kernel, by decide +kernel⟩
  · intro agree
    have stored : ("default/web", "unknown/db") ∈
        (CoreState.empty.run sameNameTwice).topology.edgeKeys :=
      ⟨⟨"web", "default"⟩, ⟨⟨"web", "default"⟩, ⟨"db", "unknown"⟩, "/", "GET"⟩,
        by decide +kernel, by decide +kernel⟩
    have missing : ¬({ source := "default/web", target := "unknown/db", type := .downstream } ∈
        (transformTopologyData (some sameNameListing)).connections) := by
      decide +kernel
    rw [← agree] at stored
    exact missing stored

end Ui

end Qubit
