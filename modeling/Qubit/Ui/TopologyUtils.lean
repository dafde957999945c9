import Qubit.Core.RestApi
import Qubit.Lib.KeepFirst

/-!
# The graph model of the UI

`transformTopologyData` turns the response of `/api/topology` into services and
connections. A JavaScript object that was parsed from JSON is an association list:
`Object.entries` lists its fields in the order of the text, since none of the field
names, which contain a slash, is an integer. A `Map` or `Set` of JavaScript is a finite map or
set, except for the out-degrees, which are read in insertion order.
-/

namespace Qubit.Ui

/-- The parsed response; each of the three fields may be missing. -/
structure QubitTopology where
  nodes : Option (AList fun _ : String => NodeDto)
  upstream : Option (AList fun _ : String => FlowList)
  downstream : Option (AList fun _ : String => FlowList)

inductive ConnectionType where
  | upstream
  | downstream
deriving DecidableEq, Repr

def ConnectionType.text : ConnectionType → String
  | .upstream => "upstream"
  | .downstream => "downstream"

structure ServiceConnection where
  source : String
  target : String
  type : ConnectionType
deriving DecidableEq, Repr

structure ServiceNode where
  id : String
  name : String
  ns : String
  domain : String
  layer : Nat
deriving DecidableEq, Repr

structure TransformedTopology where
  services : List ServiceNode
  connections : List ServiceConnection
  rootService : Option String
deriving DecidableEq, Repr

/-- The text under which a connection is remembered as seen. -/
def ServiceConnection.key (connection : ServiceConnection) : String :=
  connection.type.text ++ ":" ++ connection.source ++ "→" ++ connection.target

/-- The id of the last node listed under each application name. -/
def nameToId (nodes : AList fun _ : String => NodeDto) : Finmap fun _ : String => String :=
  Finmap.collect (nodes.entries.map fun entry => (entry.2.applicationName, entry.1))

abbrev Connections := KeepFirst.Progress ServiceConnection String

/-- Add the connection of a flow, unless an end is unknown or the connection was seen. -/
def addConnection (ids : Finmap fun _ : String => String) (type : ConnectionType)
    (built : Connections) (flow : FlowDto) : Connections :=
  -- an empty id is as falsy as a missing one
  match (ids.lookup flow.sourceApplication).filter (· ≠ ""),
      (ids.lookup flow.destinationApplication).filter (· ≠ "") with
  | some source, some target =>
      let connection : ServiceConnection := { source, target, type }
      if connection.key ∈ built.seen then built
      else
        { kept := built.kept ++ [connection]
          seen := insert connection.key built.seen }
  | _, _ => built

def addConnections (ids : Finmap fun _ : String => String) (type : ConnectionType)
    (lists : Option (AList fun _ : String => FlowList)) (built : Connections) : Connections :=
  match lists with
  | none => built
  | some lists =>
      lists.entries.foldl (fun built entry =>
        entry.2.flows.foldl (addConnection ids type) built) built

/-- The connections: those of the downstream flows, then those of the upstream flows. -/
def connectionsOf (data : QubitTopology) (nodes : AList fun _ : String => NodeDto) :
    List ServiceConnection :=
  (addConnections (nameToId nodes) .upstream data.upstream
    (addConnections (nameToId nodes) .downstream data.downstream KeepFirst.Progress.start)).kept

/-! ## Root and layers -/

/-- Count one more connection of a source; a new source comes last. -/
def countSource (source : String) : List (String × Nat) → List (String × Nat)
  | [] => [(source, 1)]
  | (known, degree) :: rest =>
      if known = source then (known, degree + 1) :: rest
      else (known, degree) :: countSource source rest

/-- The out-degrees over downstream connections, in insertion order. -/
def outDegree (connections : List ServiceConnection) : List (String × Nat) :=
  (connections.filter (·.type = .downstream)).foldl
    (fun degrees connection => countSource connection.source degrees) []

/-- The UTF-16 code units of a text, by which JavaScript sorts. -/
def utf16 (text : String) : List Nat :=
  text.toList.flatMap fun char =>
    if char.toNat < 0x10000 then [char.toNat]
    else [0xD800 + (char.toNat - 0x10000) / 0x400, 0xDC00 + (char.toNat - 0x10000) % 0x400]

/-- The source of most downstream connections, else the first node id in sorted order. -/
def rootId (connections : List ServiceConnection) (nodes : AList fun _ : String => NodeDto) :
    Option String :=
  match ((outDegree connections).mergeSort fun entry other => other.2 ≤ entry.2).head? with
  | some entry => some entry.1
  | none => ((nodes.entries.map (·.1)).mergeSort fun id other => utf16 id ≤ utf16 other).head?

/-- The layers assigned so far, and the ids whose connections are still to be followed. -/
structure Layering where
  layerMap : Finmap fun _ : String => Nat
  queue : List String

def Layering.visit (currentLayer : Nat) (layering : Layering) (connection : ServiceConnection) :
    Layering :=
  if connection.target ∈ layering.layerMap then layering
  else
    { layerMap := layering.layerMap.insert connection.target (currentLayer + 1)
      queue := layering.queue ++ [connection.target] }

/-- One round of the search: follow the connections of the first id of the queue. -/
def Layering.round (connections : List ServiceConnection) (layering : Layering) : Layering :=
  match layering.queue with
  | [] => layering
  | current :: queue =>
      let currentLayer := (layering.layerMap.lookup current).getD 0
      (connections.filter fun connection =>
          connection.source = current ∧ connection.type = .downstream).foldl
        (Layering.visit currentLayer) { layering with queue }

/-- Breadth-first layers from the root; each connection feeds the queue at most once. -/
def layersFrom (connections : List ServiceConnection) (root : String) :
    Finmap fun _ : String => Nat :=
  ((Layering.round connections)^[connections.length + 1]
    { layerMap := Finmap.singleton root 0, queue := [root] }).layerMap

/-- How much is left to search: the targets without a layer, and the ids in the queue. -/
def Layering.pending (connections : List ServiceConnection) (layering : Layering) : Nat :=
  ((connections.map (·.target)).toFinset.filter (· ∉ layering.layerMap)).card +
    layering.queue.length

theorem Layering.pending_visit {connections : List ServiceConnection} (currentLayer : Nat)
    (layering : Layering) {connection : ServiceConnection} (member : connection ∈ connections) :
    (layering.visit currentLayer connection).pending connections =
      layering.pending connections := by
  unfold visit
  split
  · rfl
  · rename_i unvisited
    have target : connection.target ∈
        (connections.map (·.target)).toFinset.filter (· ∉ layering.layerMap) := by
      rw [Finset.mem_filter, List.mem_toFinset]
      exact ⟨List.mem_map_of_mem member, unvisited⟩
    have fewer : (connections.map (·.target)).toFinset.filter
          (· ∉ layering.layerMap.insert connection.target (currentLayer + 1)) =
        ((connections.map (·.target)).toFinset.filter
          (· ∉ layering.layerMap)).erase connection.target := by
      ext id
      simp only [Finset.mem_filter, Finset.mem_erase, Finmap.mem_insert, not_or]
      tauto
    have card := Finset.card_erase_add_one target
    simp only [pending, fewer, List.length_append, List.length_singleton]
    omega

theorem Layering.pending_foldl_visit {connections : List ServiceConnection} (currentLayer : Nat)
    {followed : List ServiceConnection} (subset : ∀ connection ∈ followed, connection ∈ connections)
    (layering : Layering) :
    (followed.foldl (visit currentLayer) layering).pending connections =
      layering.pending connections := by
  induction followed generalizing layering with
  | nil => rfl
  | cons connection rest ih =>
      rw [List.forall_mem_cons] at subset
      rw [List.foldl_cons, ih subset.2, pending_visit currentLayer layering subset.1]

theorem Layering.pending_round {connections : List ServiceConnection} {layering : Layering}
    (unfinished : layering.queue ≠ []) :
    (layering.round connections).pending connections + 1 = layering.pending connections := by
  unfold round
  cases waiting : layering.queue with
  | nil => exact absurd waiting unfinished
  | cons current queue =>
      dsimp only
      rw [pending_foldl_visit]
      · simp only [pending, waiting, List.length_cons]
        omega
      · intro connection followed
        exact List.mem_of_mem_filter followed

theorem Layering.queue_iterate_round {connections : List ServiceConnection} (rounds : Nat)
    {layering : Layering} (enough : layering.pending connections ≤ rounds) :
    ((round connections)^[rounds] layering).queue = [] := by
  induction rounds generalizing layering with
  | zero =>
      have none : layering.queue.length = 0 := by
        unfold pending at enough
        omega
      exact List.length_eq_zero_iff.mp none
  | succ rounds ih =>
      by_cases finished : layering.queue = []
      · have idle : layering.round connections = layering := by
          simp only [round, finished]
        rw [Function.iterate_fixed idle]
        exact finished
      · rw [Function.iterate_succ_apply]
        apply ih
        have less : (layering.round connections).pending connections + 1 =
            layering.pending connections := pending_round finished
        omega

/-- The search for layers has ended: no id is left in the queue. -/
theorem queue_layersFrom (connections : List ServiceConnection) (root : String) :
    ((Layering.round connections)^[connections.length + 1]
      { layerMap := Finmap.singleton root 0, queue := [root] }).queue = [] := by
  apply Layering.queue_iterate_round
  have targets : (connections.map (·.target)).toFinset.card ≤ connections.length := by
    exact (List.toFinset_card_le _).trans_eq (List.length_map _)
  have unvisited := (Finset.card_filter_le (connections.map (·.target)).toFinset
    (· ∉ (Finmap.singleton root 0 : Finmap fun _ : String => Nat))).trans targets
  simp only [Layering.pending, List.length_singleton]
  exact Nat.add_le_add_right unvisited 1

def transformTopologyData (data : Option QubitTopology) : TransformedTopology :=
  match data with
  | none => { services := [], connections := [], rootService := none }
  | some data =>
      match data.nodes with
      | none => { services := [], connections := [], rootService := none }
      | some nodes =>
          let connections := connectionsOf data nodes
          let rootService := rootId connections nodes
          let layerMap := rootService.elim ∅ (layersFrom connections)
          { services := nodes.entries.map fun entry =>
              { id := entry.1
                name := entry.2.applicationName
                ns := entry.2.ns
                domain := entry.2.ns
                layer := (layerMap.lookup entry.1).getD 1 }
            connections
            rootService }

end Qubit.Ui
