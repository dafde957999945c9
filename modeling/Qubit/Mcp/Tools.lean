import Mathlib.Data.String.Basic
import Qubit.Core.Coherence
import Qubit.Lib.Pieces
import Qubit.Lib.Text
import Qubit.Ui.NodeKeys

/-!
# What the MCP server tells about the graph

Two tools print the answer of `GetTopology` as text: the whole graph, and the callers and
callees of one service. The answer is made of hash maps, but the first text lists the
services in the order of their keys, so it is a text about the graph alone, with a line
for each flow. A name or a path with a line break would add lines of its own.
-/

namespace Qubit.Mcp

open QueryServer

namespace Tools

/-! ## The texts -/

def callLine (edge : TopologyEdge) : String :=
  "    → " ++ edge.method ++ " " ++ edge.path ++ " → " ++ edge.destinationNamespace ++ "/" ++
    edge.destinationApplication

def callerLine (edge : TopologyEdge) : String :=
  "    ← " ++ edge.sourceNamespace ++ "/" ++ edge.sourceApplication ++ " (" ++ edge.method ++ " " ++
    edge.path ++ ")"

def calleeLine (edge : TopologyEdge) : String :=
  "    → " ++ edge.destinationNamespace ++ "/" ++ edge.destinationApplication ++ " (" ++
    edge.method ++ " " ++ edge.path ++ ")"

/-- The loop over the flows of a service. -/
def pushFlows (line : TopologyEdge → String) (flows : List TopologyEdge) (out : String) : String :=
  flows.foldl (fun out edge => out ++ (line edge ++ "\n")) out

/-- One round of the loop over the sorted keys; indexing panics at a key that is not there. -/
def pushService (topo : GetTopologyResponse) (out key : String) : Option String := do
  let node ← topo.nodes.lookup key
  let out := out ++ ("\n  " ++ node.ns ++ "/" ++ node.applicationName)
  let out := if node.ip ≠ "" then out ++ ("  (ip: " ++ node.ip ++ ")") else out
  let out := out ++ "\n"
  match topo.downstream.lookup key with
  | none => return out
  | some flowList => return pushFlows callLine flowList.flows out

/-- `get_topology`, for a listing of the nodes of the answer. -/
def getTopology (topo : GetTopologyResponse) (nodes : AList fun _ : String => TopologyNode) :
    Option String :=
  if nodes.keys = [] then
    some "No services discovered yet. The cluster may not have traffic flowing."
  else
    (nodes.keys.mergeSort (fun first second => decide (first ≤ second))).foldlM (pushService topo)
      ("Service Topology (" ++ toString nodes.keys.length ++ " services):\n")

/-- One of the two sections of `get_service_dependencies`. -/
def pushSection (title : String) (line : TopologyEdge → String)
    (flows : Option QueryServer.FlowList) (out : String) : String :=
  let out := out ++ ("\n  " ++ title ++ ":\n")
  match flows with
  | none => out ++ "    (none)\n"
  | some flowList =>
      if flowList.flows = [] then out ++ "    (none)\n"
      else pushFlows line flowList.flows out

def getServiceDependencies (topo : GetTopologyResponse)
    (nodes : AList fun _ : String => TopologyNode) (service ns : String) : String :=
  let key := ns ++ "/" ++ service
  if key ∈ topo.nodes then
    let out := "Dependencies for " ++ key ++ ":\n"
    let out := pushSection "Upstream (callers)" callerLine (topo.upstream.lookup key) out
    pushSection "Downstream (dependencies)" calleeLine (topo.downstream.lookup key) out
  else
    "Service '" ++ key ++ "' not found in topology. Known services: " ++
      ", ".intercalate nodes.keys

/-! ## The lines about a graph -/

def heading (node : NodeId) (ip : String) : String :=
  "  " ++ node.key ++ if ip ≠ "" then "  (ip: " ++ ip ++ ")" else ""

/-- The heading of a service and its calls. -/
def serviceLines (topology : Topology) (node : NodeId) : List String :=
  "" :: heading node ((topology.nodes.lookup node).elim "" NodeData.ip) ::
    (toFlowList (topology.downstream.row node)).flows.map callLine

def topologyLines (topology : Topology) (listed : List NodeId) : List String :=
  ("Service Topology (" ++ toString listed.length ++ " services):") ::
    listed.flatMap (serviceLines topology)

def sectionLines (title : String) (lines : List String) : List String :=
  "" :: ("  " ++ title ++ ":") :: if lines = [] then ["    (none)"] else lines

def dependencyLines (topology : Topology) (node : NodeId) : List String :=
  ("Dependencies for " ++ node.key ++ ":") ::
    (sectionLines "Upstream (callers)"
        ((toFlowList (topology.upstream.row node)).flows.map callerLine) ++
      sectionLines "Downstream (dependencies)"
        ((toFlowList (topology.downstream.row node)).flows.map calleeLine))

/-! ## Printing the lines -/

theorem pushFlows_eq (line : TopologyEdge → String) (flows : List TopologyEdge) (out : String) :
    pushFlows line flows out = out ++ Text.unlines (flows.map line) := by
  induction flows generalizing out with
  | nil => simp [pushFlows]
  | cons first rest ih =>
      rw [pushFlows, List.foldl_cons, ← pushFlows, ih, List.map_cons, Text.unlines_cons,
        String.append_assoc]

theorem pushSection_eq (title : String) (line : TopologyEdge → String)
    (flows : Option QueryServer.FlowList) (out : String) :
    pushSection title line flows out =
      out ++ Text.unlines (sectionLines title
        ((flows.elim [] QueryServer.FlowList.flows).map line)) := by
  have heading (lines : List String) : Text.unlines ("" :: ("  " ++ title ++ ":") :: lines) =
      "\n  " ++ title ++ ":\n" ++ Text.unlines lines := by
    apply String.toList_inj.mp
    simp [Text.unlines_cons]
  rw [sectionLines, heading]
  cases flows with
  | none => simp [pushSection, Text.unlines_cons, String.append_assoc]
  | some flowList =>
      by_cases none : flowList.flows = []
      · simp [pushSection, none, Text.unlines_cons, String.append_assoc]
      · simp [pushSection, none, pushFlows_eq, String.append_assoc]

/-! ## The answer about a graph -/

/-- The answer has an entry for every node when different nodes have different keys. -/
theorem shows_getTopology {topology : Topology} (keyed : topology.KeyedByNodes)
    (distinct : ∀ node ∈ topology.nodes, ∀ other ∈ topology.nodes,
      node.key = other.key → node = other)
    {nodes : AList fun _ : NodeId => NodeData}
    {upstream downstream : AList fun _ : NodeId => List Flow}
    (isNodes : nodes.toFinmap = topology.nodes) (isUpstream : upstream.toFinmap = topology.upstream)
    (isDownstream : downstream.toFinmap = topology.downstream) :
    (QueryServer.getTopology nodes upstream downstream).Shows topology where
  nodes := by
    rw [← isNodes] at distinct ⊢
    exact fun _ _ => Handler.lookup_collect_key distinct toTopologyNode
  upstream := by
    have distinctUpstream : ∀ node ∈ upstream.toFinmap, ∀ other ∈ upstream.toFinmap,
        node.key = other.key → node = other := by
      rw [isUpstream]
      exact fun node nodeMem other otherMem =>
        distinct node (keyed.upstream node nodeMem) other (keyed.upstream other otherMem)
    rw [← isUpstream]
    exact fun _ _ => Handler.lookup_collect_key distinctUpstream fun _ => toFlowList
  downstream := by
    have distinctDownstream : ∀ node ∈ downstream.toFinmap, ∀ other ∈ downstream.toFinmap,
        node.key = other.key → node = other := by
      rw [isDownstream]
      exact fun node nodeMem other otherMem =>
        distinct node (keyed.downstream node nodeMem) other (keyed.downstream other otherMem)
    rw [← isDownstream]
    exact fun _ _ => Handler.lookup_collect_key distinctDownstream fun _ => toFlowList

section

variable {topology : Topology} {topo : GetTopologyResponse} (shows : topo.Shows topology)
  (keyed : topology.KeyedByNodes)
  (distinct : ∀ node ∈ topology.nodes, ∀ other ∈ topology.nodes,
    node.key = other.key → node = other)

include distinct

/-- The flows that are shown under the key of a node are the flows of its list. -/
theorem flows_lookup_key {shown : Finmap fun _ : String => QueryServer.FlowList}
    {lists : Finmap fun _ : NodeId => List Flow}
    (isShown : ∀ text list, shown.lookup text = some list ↔
      ∃ nodeId flows, lists.lookup nodeId = some flows ∧ nodeId.key = text ∧
        toFlowList flows = list)
    (keyed : ∀ node ∈ lists, node ∈ topology.nodes) {node : NodeId}
    (nodeMem : node ∈ topology.nodes) :
    (shown.lookup node.key).elim [] QueryServer.FlowList.flows =
      (toFlowList (lists.row node)).flows := by
  rw [Finmap.row]
  cases found : lists.lookup node with
  | some flows => rw [(isShown _ _).mpr ⟨node, flows, found, rfl, rfl⟩]; rfl
  | none =>
      cases listed : shown.lookup node.key with
      | none => rfl
      | some list =>
          rcases (isShown _ _).mp listed with ⟨other, flows, otherFound, sameKey, -⟩
          have otherMem := keyed other (Finmap.mem_of_lookup_eq_some otherFound)
          rw [distinct other otherMem node nodeMem sameKey, found] at otherFound
          cases otherFound

include shows keyed

theorem pushService_key {node : NodeId} (nodeMem : node ∈ topology.nodes) (out : String) :
    pushService topo out node.key = some (out ++ Text.unlines (serviceLines topology node)) := by
  rcases Finmap.mem_iff.mp nodeMem with ⟨nodeData, found⟩
  have told : topo.nodes.lookup node.key = some (toTopologyNode node nodeData) :=
    (shows.nodes _ _).mpr ⟨node, nodeData, found, rfl, rfl⟩
  have flows := flows_lookup_key distinct shows.downstream keyed.downstream nodeMem
  rw [pushService, told, serviceLines, found, ← flows]
  simp only [Option.bind_eq_bind, Option.bind_some, toTopologyNode, Option.elim_some]
  have headed (lines : List String) :
      (if nodeData.ip ≠ "" then
          out ++ ("\n  " ++ node.ns ++ "/" ++ node.applicationName) ++
            ("  (ip: " ++ nodeData.ip ++ ")")
        else out ++ ("\n  " ++ node.ns ++ "/" ++ node.applicationName)) ++ "\n" ++
          Text.unlines lines =
        out ++ Text.unlines ("" :: heading node nodeData.ip :: lines) := by
    apply String.toList_inj.mp
    rw [heading]
    split <;> simp [Text.unlines_cons, NodeId.key]
  cases topo.downstream.lookup node.key with
  | none => exact congrArg some ((String.append_empty).symm.trans (headed []))
  | some flowList => exact congrArg some ((pushFlows_eq callLine _ _).trans (headed _))

theorem foldlM_pushService {listed : List NodeId} (mem : ∀ node ∈ listed, node ∈ topology.nodes)
    (out : String) :
    (listed.map NodeId.key).foldlM (pushService topo) out =
      some (out ++ Text.unlines (listed.flatMap (serviceLines topology))) := by
  induction listed generalizing out with
  | nil => simp
  | cons first rest ih =>
      rw [List.forall_mem_cons] at mem
      rw [List.map_cons, List.foldlM_cons, pushService_key shows keyed distinct mem.1,
        Option.bind_eq_bind, Option.bind_some, ih mem.2, List.flatMap_cons, Text.unlines_append,
        String.append_assoc]

theorem getServiceDependencies_key {node : NodeId} (nodeMem : node ∈ topology.nodes)
    {service ns : String} (isKey : node.key = ns ++ "/" ++ service)
    (nodes : AList fun _ : String => TopologyNode) :
    getServiceDependencies topo nodes service ns =
      Text.unlines (dependencyLines topology node) := by
  rcases Finmap.mem_iff.mp nodeMem with ⟨nodeData, found⟩
  have told : node.key ∈ topo.nodes := Finmap.mem_of_lookup_eq_some
    ((shows.nodes _ _).mpr ⟨node, nodeData, found, rfl, rfl⟩)
  rw [getServiceDependencies, ← isKey, if_pos told]
  simp only [pushSection_eq, flows_lookup_key distinct shows.upstream keyed.upstream nodeMem,
    flows_lookup_key distinct shows.downstream keyed.downstream nodeMem]
  rw [dependencyLines, Text.unlines_cons, Text.unlines_append]
  apply String.toList_inj.mp
  simp

end

end Tools

/-! ## The tools on a reachable graph -/

/-- Different nodes have different keys. -/
def KeysApart (topology : Topology) : Prop :=
  ∀ node ∈ topology.nodes, ∀ other ∈ topology.nodes, node.key = other.key → node = other

/-- An answer of `GetTopology` about a graph. -/
def IsAnswer (topo : GetTopologyResponse) (topology : Topology) : Prop :=
  ∃ nodes upstream downstream, nodes.toFinmap = topology.nodes ∧
    upstream.toFinmap = topology.upstream ∧ downstream.toFinmap = topology.downstream ∧
      QueryServer.getTopology nodes upstream downstream = topo

theorem exists_map_eq {A B : Type} {f : A → B} {p : A → Prop} {values : List B}
    (reached : ∀ value ∈ values, ∃ item, p item ∧ f item = value) :
    ∃ items : List A, (∀ item ∈ items, p item) ∧ items.map f = values := by
  induction values with
  | nil => exact ⟨[], by simp⟩
  | cons first rest ih =>
      rw [List.forall_mem_cons] at reached
      rcases reached.1 with ⟨item, holds, rfl⟩
      rcases ih reached.2 with ⟨items, allHold, rfl⟩
      exact ⟨item :: items, List.forall_mem_cons.mpr ⟨holds, allHold⟩, rfl⟩

theorem mem_keys_iff {topology : Topology} {topo : GetTopologyResponse}
    (shows : topo.Shows topology) {nodes : AList fun _ : String => TopologyNode}
    (listing : nodes.toFinmap = topo.nodes) {text : String} :
    text ∈ nodes.keys ↔ ∃ node ∈ topology.nodes, node.key = text := by
  rw [← AList.mem_keys, ← Finmap.mem_toFinmap, listing, Finmap.mem_iff]
  constructor
  · rintro ⟨shown, told⟩
    rcases (shows.nodes _ _).mp told with ⟨node, nodeData, found, rfl, -⟩
    exact ⟨node, Finmap.mem_of_lookup_eq_some found, rfl⟩
  · rintro ⟨node, nodeMem, rfl⟩
    rcases Finmap.mem_iff.mp nodeMem with ⟨nodeData, found⟩
    exact ⟨_, (shows.nodes _ _).mpr ⟨node, nodeData, found, rfl, rfl⟩⟩

/-- The sorted keys of an answer are those of the nodes in some order. -/
theorem exists_listed {topology : Topology} (apart : KeysApart topology)
    {topo : GetTopologyResponse} (shows : topo.Shows topology)
    {nodes : AList fun _ : String => TopologyNode} (listing : nodes.toFinmap = topo.nodes) :
    ∃ listed : List NodeId, listed.Nodup ∧ (∀ node, node ∈ listed ↔ node ∈ topology.nodes) ∧
      (listed.map NodeId.key).Pairwise (· ≤ ·) ∧
      listed.map NodeId.key =
        nodes.keys.mergeSort (fun first second => decide (first ≤ second)) := by
  have perm := List.mergeSort_perm nodes.keys fun first second => decide (first ≤ second)
  have reached : ∀ text ∈ nodes.keys.mergeSort (fun first second => decide (first ≤ second)),
      ∃ node, node ∈ topology.nodes ∧ node.key = text := fun text textMem =>
    (mem_keys_iff shows listing).mp (perm.mem_iff.mp textMem)
  rcases exists_map_eq reached with ⟨listed, listedMem, listed_eq⟩
  rw [← listed_eq] at perm
  refine ⟨listed, (perm.nodup_iff.mpr nodes.keys_nodup).of_map _, ?_, ?_, listed_eq⟩
  · intro node
    refine ⟨listedMem node, fun nodeMem => ?_⟩
    have listedKey := perm.mem_iff.mpr ((mem_keys_iff shows listing).mpr ⟨node, nodeMem, rfl⟩)
    rcases List.mem_map.mp listedKey with ⟨other, otherMem, sameKey⟩
    exact apart other (listedMem other otherMem) node nodeMem sameKey ▸ otherMem
  · have ordered := @List.pairwise_mergeSort String (fun first second => decide (first ≤ second))
      (by simpa using fun _ _ _ => le_trans) (by simpa using le_total) nodes.keys
    rw [← listed_eq] at ordered
    simpa using ordered

theorem getTopology_listed {topology : Topology} (keyed : topology.KeyedByNodes)
    (apart : KeysApart topology) {topo : GetTopologyResponse}
    {nodes : AList fun _ : String => TopologyNode} (answered : IsAnswer topo topology)
    (listing : nodes.toFinmap = topo.nodes) (discovered : ∃ node, node ∈ topology.nodes) :
    ∃ listed : List NodeId, listed.Nodup ∧ (∀ node, node ∈ listed ↔ node ∈ topology.nodes) ∧
      (listed.map NodeId.key).Pairwise (· ≤ ·) ∧
      Tools.getTopology topo nodes =
        some (Text.unlines (Tools.topologyLines topology listed)) := by
  rcases answered with ⟨nodeOrder, upstream, downstream, isNodes, isUpstream, isDownstream, rfl⟩
  have shows := Tools.shows_getTopology keyed apart isNodes isUpstream isDownstream
  rcases exists_listed apart shows listing with ⟨listed, nodup, mem_listed, ordered, listed_eq⟩
  have length_eq : listed.length = nodes.keys.length := by
    rw [← List.length_map NodeId.key, listed_eq, List.length_mergeSort]
  have keyed_ne : nodes.keys ≠ [] := by
    rcases discovered with ⟨node, nodeMem⟩
    exact List.ne_nil_of_mem ((mem_keys_iff shows listing).mpr ⟨node, nodeMem, rfl⟩)
  refine ⟨listed, nodup, mem_listed, ordered, ?_⟩
  rw [Tools.getTopology, if_neg keyed_ne, ← listed_eq,
    Tools.foldlM_pushService shows keyed apart fun node => (mem_listed node).mp,
    Tools.topologyLines, Text.unlines_cons, length_eq]
  congr 1
  apply String.toList_inj.mp
  simp

/--
The tool lists every node once, in the order of the keys, each with its calls, whatever the orders
of the hash maps on the way: no flow of the graph is left out or listed twice.
-/
theorem getTopology_eq_lines (requests : List Request) (topo : GetTopologyResponse)
    (nodes : AList fun _ : String => TopologyNode)
    (apart : KeysApart (CoreState.empty.run requests).topology)
    (answered : IsAnswer topo (CoreState.empty.run requests).topology)
    (listing : nodes.toFinmap = topo.nodes)
    (discovered : ∃ node, node ∈ (CoreState.empty.run requests).topology.nodes) :
    let topology := (CoreState.empty.run requests).topology
    ∃ listed : List NodeId, listed.Nodup ∧ (∀ node, node ∈ listed ↔ node ∈ topology.nodes) ∧
      (listed.map NodeId.key).Pairwise (· ≤ ·) ∧
      Tools.getTopology topo nodes =
        some (Text.unlines (Tools.topologyLines topology listed)) ∧
      ∀ flow, (listed.flatMap topology.downstream.row).count flow =
        (topology.downstream.row flow.sourceNode).count flow := by
  intro topology
  rcases CoreState.isView_run requests with ⟨calls, represents⟩
  have coherent := represents.coherent
  rcases getTopology_listed (CoreState.keyedByNodes_run requests) apart answered listing
    discovered with ⟨listed, nodup, mem_listed, ordered, printed⟩
  refine ⟨listed, nodup, mem_listed, ordered, printed, ?_⟩
  intro flow
  rw [Pieces.count_flatMap_of_keyed coherent.downstream_keyed nodup]
  split
  · rfl
  · rename_i absent
    symm
    rw [List.count_eq_zero]
    intro flowMem
    exact absent ((mem_listed _).mpr
      ((coherent.mem_nodes _).mpr ⟨flow, Or.inr ⟨_, flowMem⟩, Or.inl rfl⟩))

/--
The callers and callees that are told of a service are the stored flows to it and from it, and a
service is not found only when no node has its key.
-/
theorem getServiceDependencies_eq_lines (requests : List Request) (topo : GetTopologyResponse)
    (nodes : AList fun _ : String => TopologyNode)
    (apart : KeysApart (CoreState.empty.run requests).topology)
    (answered : IsAnswer topo (CoreState.empty.run requests).topology) (service ns : String) :
    let topology := (CoreState.empty.run requests).topology
    (∃ node ∈ topology.nodes, node.key = ns ++ "/" ++ service ∧
      Tools.getServiceDependencies topo nodes service ns =
        Text.unlines (Tools.dependencyLines topology node) ∧
      ∀ flow, (flow ∈ topology.upstream.row node ↔
          topology.Stores flow ∧ flow.destinationNode = node) ∧
        (flow ∈ topology.downstream.row node ↔
          topology.Stores flow ∧ flow.sourceNode = node)) ∨
    (∀ node ∈ topology.nodes, node.key ≠ ns ++ "/" ++ service) ∧
      Tools.getServiceDependencies topo nodes service ns =
        "Service '" ++ (ns ++ "/" ++ service) ++ "' not found in topology. Known services: " ++
          ", ".intercalate nodes.keys := by
  intro topology
  have keyed := CoreState.keyedByNodes_run requests
  rcases CoreState.isView_run requests with ⟨calls, represents⟩
  rcases answered with ⟨nodeOrder, upstream, downstream, isNodes, isUpstream, isDownstream, rfl⟩
  have shows := Tools.shows_getTopology keyed apart isNodes isUpstream isDownstream
  by_cases known : ∃ node ∈ topology.nodes, node.key = ns ++ "/" ++ service
  · rcases known with ⟨node, nodeMem, isKey⟩
    refine Or.inl ⟨node, nodeMem, isKey,
      Tools.getServiceDependencies_key shows keyed apart nodeMem isKey nodes, ?_⟩
    intro flow
    rw [represents.stores_iff, represents.upstream.mem_row_iff, represents.downstream.mem_row_iff]
    exact ⟨Iff.rfl, Iff.rfl⟩
  · have unknown : ∀ node ∈ topology.nodes, node.key ≠ ns ++ "/" ++ service :=
      fun node nodeMem isKey => known ⟨node, nodeMem, isKey⟩
    refine Or.inr ⟨unknown, ?_⟩
    rw [Tools.getServiceDependencies, if_neg]
    intro told
    rcases Finmap.mem_iff.mp told with ⟨shown, told⟩
    rcases (shows.nodes _ _).mp told with ⟨node, nodeData, found, isKey, -⟩
    exact unknown node (Finmap.mem_of_lookup_eq_some found) isKey

/-! ## Reading the lines back -/

/-- No name, no address, no method and no path of the graph has a line break. -/
structure Unbroken (topology : Topology) : Prop where
  names : ∀ node ∈ topology.nodes, '\n' ∉ node.key.toList
  ips : ∀ node, ∀ nodeData ∈ topology.nodes.lookup node, '\n' ∉ nodeData.ip.toList
  flows : ∀ flow, topology.Stores flow →
    '\n' ∉ flow.method.toList ∧ '\n' ∉ flow.path.toList

theorem break_notMem_toString (n : ℕ) : '\n' ∉ (toString n).toList := by
  intro breakMem
  have digits : (toString n).toList = Nat.toDigits 10 n := by simp
  rw [digits] at breakMem
  exact absurd (Nat.isDigit_of_mem_toDigits (by omega) (by omega) breakMem) (by decide)

/-- The line breaks in what is printed of a service and its calls. -/
def breaksOf (topology : Topology) (node : NodeId) : ℕ :=
  Text.breaks node.key + Text.breaks ((topology.nodes.lookup node).elim "" NodeData.ip) +
    ((topology.downstream.row node).map fun flow =>
      Text.breaks flow.method + Text.breaks flow.path +
        Text.breaks flow.destinationNode.key).sum

theorem breaks_key (node : NodeId) :
    Text.breaks node.key = Text.breaks node.ns + Text.breaks node.applicationName := by
  have slash : Text.breaks "/" = 0 := rfl
  rw [NodeId.key, Text.breaks_append, Text.breaks_append, slash, Nat.add_zero]

theorem breaks_callLine (edge : TopologyEdge) :
    Text.breaks (Tools.callLine edge) =
      Text.breaks edge.method + Text.breaks edge.path +
        (Text.breaks edge.destinationNamespace + Text.breaks edge.destinationApplication) := by
  have start : Text.breaks "    → " = 0 := rfl
  have space : Text.breaks " " = 0 := rfl
  have arrow : Text.breaks " → " = 0 := rfl
  have slash : Text.breaks "/" = 0 := rfl
  simp only [Tools.callLine, Text.breaks_append, start, space, arrow, slash]
  omega

theorem breaks_heading (node : NodeId) (ip : String) :
    Text.breaks (Tools.heading node ip) = Text.breaks node.key + Text.breaks ip := by
  have indent : Text.breaks "  " = 0 := rfl
  have opening : Text.breaks "  (ip: " = 0 := rfl
  have closing : Text.breaks ")" = 0 := rfl
  have empty : Text.breaks "" = 0 := rfl
  rw [Tools.heading, Text.breaks_append, Text.breaks_append, indent, Nat.zero_add]
  split
  · rw [Text.breaks_append, Text.breaks_append, opening, closing, Nat.zero_add, Nat.add_zero]
  · rename_i unset
    rw [not_not.mp unset]

theorem breaks_serviceLines (topology : Topology) (node : NodeId) :
    ((Tools.serviceLines topology node).map Text.breaks).sum = breaksOf topology node := by
  have blank : Text.breaks "" = 0 := rfl
  rw [Tools.serviceLines, List.map_cons, List.map_cons, List.sum_cons, List.sum_cons, blank,
    Nat.zero_add, breaks_heading, breaksOf, toFlowList, List.map_map, List.map_map]
  congr 2
  refine List.map_congr_left fun flow _ => ?_
  rw [breaks_key]
  exact breaks_callLine _

theorem breaks_topologyLines (topology : Topology) (listed : List NodeId) :
    ((Tools.topologyLines topology listed).map Text.breaks).sum =
      (listed.map (breaksOf topology)).sum := by
  have services : ((listed.flatMap (Tools.serviceLines topology)).map Text.breaks).sum =
      (listed.map (breaksOf topology)).sum := by
    induction listed with
    | nil => rfl
    | cons node rest ih =>
        rw [List.flatMap_cons, List.map_append, List.sum_append, breaks_serviceLines, ih,
          List.map_cons, List.sum_cons]
  have heading :
      Text.breaks ("Service Topology (" ++ toString listed.length ++ " services):") = 0 := by
    have opening : Text.breaks "Service Topology (" = 0 := rfl
    have closing : Text.breaks " services):" = 0 := rfl
    have count : Text.breaks (toString listed.length) = 0 :=
      List.count_eq_zero.mpr (break_notMem_toString _)
    rw [Text.breaks_append, Text.breaks_append, opening, closing, count]
  rw [Tools.topologyLines, List.map_cons, List.sum_cons, heading, services, Nat.zero_add]

theorem breaksOf_eq_zero_iff {topology : Topology} {node : NodeId} {nodeData : NodeData}
    (found : topology.nodes.lookup node = some nodeData) :
    breaksOf topology node = 0 ↔
      ('\n' ∉ node.key.toList ∧ '\n' ∉ nodeData.ip.toList) ∧
        ∀ flow ∈ topology.downstream.row node,
          ('\n' ∉ flow.method.toList ∧ '\n' ∉ flow.path.toList) ∧
            '\n' ∉ flow.destinationNode.key.toList := by
  rw [breaksOf, found, Option.elim_some]
  simp only [Nat.add_eq_zero_iff, List.sum_eq_zero_iff_forall_eq_nat, List.forall_mem_map,
    Text.breaks_eq_zero_iff]

/-- Nothing that is printed has a line break exactly when nothing in the graph has one. -/
theorem sum_breaksOf_eq_zero_iff {topology : Topology} {calls : CallGraph}
    (represents : topology.Represents calls) {listed : List NodeId}
    (mem_listed : ∀ node, node ∈ listed ↔ node ∈ topology.nodes) :
    (listed.map (breaksOf topology)).sum = 0 ↔ Unbroken topology := by
  have coherent := represents.coherent
  rw [List.sum_eq_zero_iff_forall_eq_nat, List.forall_mem_map]
  constructor
  · intro unbroken
    have service {node : NodeId} {nodeData : NodeData}
        (found : topology.nodes.lookup node = some nodeData) :=
      (breaksOf_eq_zero_iff found).mp
        (unbroken node ((mem_listed node).mpr (Finmap.mem_of_lookup_eq_some found)))
    constructor
    · intro node nodeMem
      rcases Finmap.mem_iff.mp nodeMem with ⟨nodeData, found⟩
      exact (service found).1.1
    · intro node nodeData found
      exact (service found).1.2
    · intro flow stored
      have sourceMem := (coherent.mem_nodes flow.sourceNode).mpr ⟨flow, stored, Or.inl rfl⟩
      rcases Finmap.mem_iff.mp sourceMem with ⟨nodeData, found⟩
      have flowMem : flow ∈ topology.downstream.row flow.sourceNode :=
        represents.downstream.mem_row_iff.mpr ⟨represents.stores_iff.mp stored, rfl⟩
      exact ((service found).2 flow flowMem).1
  · intro unbroken node nodeListed
    have nodeMem := (mem_listed node).mp nodeListed
    rcases Finmap.mem_iff.mp nodeMem with ⟨nodeData, found⟩
    refine (breaksOf_eq_zero_iff found).mpr
      ⟨⟨unbroken.names node nodeMem, unbroken.ips node nodeData found⟩, ?_⟩
    intro flow flowMem
    have stored : topology.Stores flow := Or.inr ⟨node, flowMem⟩
    exact ⟨unbroken.flows flow stored, unbroken.names _
      ((coherent.mem_nodes _).mpr ⟨flow, stored, Or.inr rfl⟩)⟩

/--
The lines of the topology can be told apart exactly when nothing in them has a line break, and
otherwise each line break in a printed name, address, method or path adds one line.
-/
theorem getTopology_readable_iff (requests : List Request) (topo : GetTopologyResponse)
    (nodes : AList fun _ : String => TopologyNode)
    (apart : KeysApart (CoreState.empty.run requests).topology)
    (answered : IsAnswer topo (CoreState.empty.run requests).topology)
    (listing : nodes.toFinmap = topo.nodes)
    (discovered : ∃ node, node ∈ (CoreState.empty.run requests).topology.nodes) :
    let topology := (CoreState.empty.run requests).topology
    ∃ listed text, listed.Nodup ∧ (∀ node, node ∈ listed ↔ node ∈ topology.nodes) ∧
      (listed.map NodeId.key).Pairwise (· ≤ ·) ∧
      Tools.getTopology topo nodes = some text ∧
      (Text.split '\n' text = Tools.topologyLines topology listed ++ [""] ↔
        Unbroken topology) ∧
      (Text.split '\n' text).length =
        (Tools.topologyLines topology listed ++ [""]).length +
          (listed.map (breaksOf topology)).sum := by
  intro topology
  have keyed := CoreState.keyedByNodes_run requests
  rcases CoreState.isView_run requests with ⟨calls, represents⟩
  rcases getTopology_listed keyed apart answered listing discovered with
    ⟨listed, nodup, mem_listed, ordered, printed⟩
  refine ⟨listed, _, nodup, mem_listed, ordered, printed, ?_, ?_⟩
  · rw [Text.split_unlines_iff, breaks_topologyLines]
    exact sum_breaksOf_eq_zero_iff represents mem_listed
  · rw [Text.length_split_unlines, breaks_topologyLines]

/-! ## One call -/

def webCallsApi : List Request :=
  [.sendPodEvent ⟨"10.0.0.1", "default", 0, "web", "web", "ClusterIP"⟩,
    .sendEbpfNetworkEvent ⟨16777226, 33554442, "GET", "/", "api.prod.svc"⟩]

theorem keysApart_webCallsApi : KeysApart (CoreState.empty.run webCallsApi).topology := by
  have onKeys : ∀ node ∈ (CoreState.empty.run webCallsApi).topology.nodes.keys,
      ∀ other ∈ (CoreState.empty.run webCallsApi).topology.nodes.keys,
        node.key = other.key → node = other := by
    decide +kernel
  simpa only [KeysApart, Finmap.mem_keys] using onKeys

theorem exists_answer (topology : Topology) :
    ∃ topo : GetTopologyResponse, ∃ nodes : AList fun _ : String => TopologyNode,
      IsAnswer topo topology ∧ nodes.toFinmap = topo.nodes := by
  rcases Finmap.exists_listing topology.nodes with ⟨nodes, isNodes⟩
  rcases Finmap.exists_listing topology.upstream with ⟨upstream, isUpstream⟩
  rcases Finmap.exists_listing topology.downstream with ⟨downstream, isDownstream⟩
  rcases Finmap.exists_listing (QueryServer.getTopology nodes upstream downstream).nodes with
    ⟨shown, isShown⟩
  exact ⟨_, shown, ⟨nodes, upstream, downstream, isNodes, isUpstream, isDownstream, rfl⟩, isShown⟩

theorem getTopology_eq_lines_webCallsApi :
    let topology := (CoreState.empty.run webCallsApi).topology
    ∃ (topo : GetTopologyResponse) (nodes : AList fun _ : String => TopologyNode)
      (listed : List NodeId), listed.Nodup ∧ (∀ node, node ∈ listed ↔ node ∈ topology.nodes) ∧
        (listed.map NodeId.key).Pairwise (· ≤ ·) ∧
        Tools.getTopology topo nodes =
          some (Text.unlines (Tools.topologyLines topology listed)) ∧
        ∀ flow, (listed.flatMap topology.downstream.row).count flow =
          (topology.downstream.row flow.sourceNode).count flow := by
  rcases exists_answer (CoreState.empty.run webCallsApi).topology with
    ⟨topo, nodes, answered, listing⟩
  exact ⟨topo, nodes, getTopology_eq_lines webCallsApi topo nodes keysApart_webCallsApi answered
    listing ⟨⟨"web", "default"⟩, by decide +kernel⟩⟩

theorem getServiceDependencies_eq_lines_webCallsApi :
    let topology := (CoreState.empty.run webCallsApi).topology
    ∃ (topo : GetTopologyResponse) (nodes : AList fun _ : String => TopologyNode),
      (∃ node ∈ topology.nodes, node.key = "prod" ++ "/" ++ "api" ∧
        Tools.getServiceDependencies topo nodes "api" "prod" =
          Text.unlines (Tools.dependencyLines topology node) ∧
        ∀ flow, (flow ∈ topology.upstream.row node ↔
            topology.Stores flow ∧ flow.destinationNode = node) ∧
          (flow ∈ topology.downstream.row node ↔
            topology.Stores flow ∧ flow.sourceNode = node)) ∨
      (∀ node ∈ topology.nodes, node.key ≠ "prod" ++ "/" ++ "api") ∧
        Tools.getServiceDependencies topo nodes "api" "prod" =
          "Service '" ++ ("prod" ++ "/" ++ "api") ++
            "' not found in topology. Known services: " ++ ", ".intercalate nodes.keys := by
  rcases exists_answer (CoreState.empty.run webCallsApi).topology with
    ⟨topo, nodes, answered, -⟩
  exact ⟨topo, nodes, getServiceDependencies_eq_lines webCallsApi topo nodes keysApart_webCallsApi
    answered "api" "prod"⟩

theorem getTopology_readable_webCallsApi_iff :
    let topology := (CoreState.empty.run webCallsApi).topology
    ∃ (topo : GetTopologyResponse) (nodes : AList fun _ : String => TopologyNode),
      ∃ listed text, listed.Nodup ∧ (∀ node, node ∈ listed ↔ node ∈ topology.nodes) ∧
        (listed.map NodeId.key).Pairwise (· ≤ ·) ∧
        Tools.getTopology topo nodes = some text ∧
        (Text.split '\n' text = Tools.topologyLines topology listed ++ [""] ↔
          Unbroken topology) ∧
        (Text.split '\n' text).length =
          (Tools.topologyLines topology listed ++ [""]).length +
            (listed.map (breaksOf topology)).sum := by
  rcases exists_answer (CoreState.empty.run webCallsApi).topology with
    ⟨topo, nodes, answered, listing⟩
  exact ⟨topo, nodes, getTopology_readable_iff webCallsApi topo nodes keysApart_webCallsApi answered
    listing ⟨⟨"web", "default"⟩, by decide +kernel⟩⟩

end Qubit.Mcp
