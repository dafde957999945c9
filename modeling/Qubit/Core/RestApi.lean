import Qubit.Core.Topology

/-!
# The REST view of the topology

`GET /api/topology` serialises the three maps of the topology, with the nodes under
the text `namespace/application_name`. A flow is sent with the bare application
names of its two ends. The handler iterates over the maps of the topology in some
order and collects into new maps; when different nodes have different texts, the
result does not depend on that order.
-/

namespace Qubit

structure NodeDto where
  applicationName : String
  ns : String
  ip : String
deriving DecidableEq, Repr

structure FlowDto where
  sourceApplication : String
  destinationApplication : String
  method : String
  path : String
deriving DecidableEq, Repr

structure FlowList where
  flows : List FlowDto
deriving DecidableEq, Repr

structure TopologyResponse where
  nodes : Finmap fun _ : String => NodeDto
  upstream : Finmap fun _ : String => FlowList
  downstream : Finmap fun _ : String => FlowList

def Flow.toDto (flow : Flow) : FlowDto where
  sourceApplication := flow.sourceNode.applicationName
  destinationApplication := flow.destinationNode.applicationName
  method := flow.method
  path := flow.path

def NodeId.toDto (id : NodeId) (data : NodeData) : NodeDto where
  applicationName := id.applicationName
  ns := id.ns
  ip := data.ip

namespace Handler

def flowLists (order : AList fun _ : NodeId => List Flow) : Finmap fun _ : String => FlowList :=
  Finmap.collect (order.entries.map fun entry =>
    (entry.1.key, { flows := entry.2.map Flow.toDto }))

/-- `GET /api/topology`, for listings of the three maps. -/
def topology (nodes : AList fun _ : NodeId => NodeData)
    (upstream downstream : AList fun _ : NodeId => List Flow) : TopologyResponse where
  nodes := Finmap.collect (nodes.entries.map fun entry =>
    (entry.1.key, entry.1.toDto entry.2))
  upstream := flowLists upstream
  downstream := flowLists downstream

/-- Collecting under the texts of the nodes keeps every entry when the texts are different. -/
theorem lookup_collect_key {V W : Type} {order : AList fun _ : NodeId => V}
    (distinct : ∀ id ∈ order.toFinmap, ∀ other ∈ order.toFinmap, id.key = other.key → id = other)
    (toDto : NodeId → V → W) {text : String} {dto : W} :
    (Finmap.collect (order.entries.map fun entry =>
        (entry.1.key, toDto entry.1 entry.2))).lookup text = some dto ↔
      ∃ id value, order.toFinmap.lookup id = some value ∧ id.key = text ∧
        toDto id value = dto := by
  have present : ∀ entry ∈ order.entries, order.toFinmap.lookup entry.1 = some entry.2 :=
    fun entry member => Finmap.mem_entries_iff_lookup.mp member
  rw [Finmap.lookup_collect_iff]
  · simp only [List.mem_map, Prod.mk.injEq]
    constructor
    · rintro ⟨entry, member, sameText, sameDto⟩
      exact ⟨entry.1, entry.2, present entry member, sameText, sameDto⟩
    · rintro ⟨id, value, found, sameText, sameDto⟩
      exact ⟨⟨id, value⟩, Finmap.mem_entries_iff_lookup.mpr found, sameText, sameDto⟩
  · simp only [List.mem_map]
    rintro _ ⟨entry, member, rfl⟩ _ ⟨other, otherMem, rfl⟩ sameText
    have entryFound := present entry member
    have otherFound := present other otherMem
    have sameId : entry.1 = other.1 :=
      distinct _ (Finmap.mem_of_lookup_eq_some entryFound) _
        (Finmap.mem_of_lookup_eq_some otherFound) sameText
    rw [sameId, otherFound, Option.some.injEq] at entryFound
    rw [sameId, entryFound]

theorem mem_flowLists {order : AList fun _ : NodeId => List Flow}
    (distinct : ∀ id ∈ order.toFinmap, ∀ other ∈ order.toFinmap, id.key = other.key → id = other)
    {dto : FlowDto} :
    (∃ text list, (flowLists order).lookup text = some list ∧ dto ∈ list.flows) ↔
      ∃ node, ∃ flow ∈ order.toFinmap.row node, flow.toDto = dto := by
  have found : ∀ text list, (flowLists order).lookup text = some list ↔
      ∃ id flows, order.toFinmap.lookup id = some flows ∧ id.key = text ∧
        FlowList.mk (flows.map Flow.toDto) = list :=
    fun _ _ => lookup_collect_key distinct fun _ flows => FlowList.mk (flows.map Flow.toDto)
  constructor
  · rintro ⟨text, list, listed, member⟩
    rcases (found text list).mp listed with ⟨node, flows, stored, -, rfl⟩
    rcases List.mem_map.mp member with ⟨flow, flowMem, rfl⟩
    refine ⟨node, flow, ?_, rfl⟩
    rw [Finmap.row, stored]
    exact flowMem
  · rintro ⟨node, flow, flowMem, rfl⟩
    rw [Finmap.row] at flowMem
    cases stored : order.toFinmap.lookup node with
    | none => simp [stored] at flowMem
    | some flows =>
        rw [stored] at flowMem
        exact ⟨node.key, _, (found _ _).mpr ⟨node, flows, stored, rfl, rfl⟩,
          List.mem_map_of_mem flowMem⟩

end Handler

end Qubit
