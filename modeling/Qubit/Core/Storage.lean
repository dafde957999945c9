import Mathlib.Data.Finset.Image
import Qubit.Core.Topology

/-!
# The ClickHouse sync

A background task takes a snapshot of the flows of the topology at every tick and
passes it to `DAO::add_events`, which asks for the edge keys that the table already
has and inserts the other events. The table is the list of its rows; rows are only
appended, and the query for the distinct keys returns each key that occurs.

The edge key names the two applications, the path and the destination port, but
neither a namespace nor the method, so an old row can hide a flow that the table
does not have. A tick records every flow exactly when no flow is hidden in this way.
-/

namespace Qubit

structure EbpfNetworkEvent where
  timestampNs : UInt64
  srcService : String
  srcNamespace : String
  srcApplication : String
  dstService : String
  dstNamespace : String
  dstApplication : String
  srcPort : UInt16
  dstPort : UInt16
  method : String
  path : String
  host : String
deriving DecidableEq, Repr

/-- The columns by which an event is recognised as already stored. -/
structure EdgeKey where
  srcApplication : String
  dstApplication : String
  path : String
  dstPort : UInt16
deriving DecidableEq, Repr

namespace EbpfNetworkEvent

def edgeKey (event : EbpfNetworkEvent) : EdgeKey where
  srcApplication := event.srcApplication
  dstApplication := event.dstApplication
  path := event.path
  dstPort := event.dstPort

/-- The row is about the flow: both ends with their namespaces, the method and the path. -/
def Records (event : EbpfNetworkEvent) (flow : Flow) : Prop :=
  event.srcApplication = flow.sourceNode.applicationName ∧
    event.srcNamespace = flow.sourceNode.ns ∧
    event.dstApplication = flow.destinationNode.applicationName ∧
    event.dstNamespace = flow.destinationNode.ns ∧
    event.method = flow.method ∧ event.path = flow.path

instance (event : EbpfNetworkEvent) (flow : Flow) : Decidable (event.Records flow) :=
  inferInstanceAs (Decidable (_ ∧ _))

end EbpfNetworkEvent

/-- The row written for a flow. The topology does not know the ports. -/
def Flow.toEvent (nowNs : UInt64) (flow : Flow) : EbpfNetworkEvent where
  timestampNs := nowNs
  srcService := flow.sourceNode.applicationName
  srcNamespace := flow.sourceNode.ns
  srcApplication := flow.sourceNode.applicationName
  dstService := flow.destinationNode.applicationName
  dstNamespace := flow.destinationNode.ns
  dstApplication := flow.destinationNode.applicationName
  srcPort := 0
  dstPort := 0
  method := flow.method
  path := flow.path
  host := flow.destinationNode.applicationName

def Flow.edgeKey (flow : Flow) : EdgeKey where
  srcApplication := flow.sourceNode.applicationName
  dstApplication := flow.destinationNode.applicationName
  path := flow.path
  dstPort := 0

theorem Flow.records_toEvent (nowNs : UInt64) (flow : Flow) :
    (flow.toEvent nowNs).Records flow :=
  ⟨rfl, rfl, rfl, rfl, rfl, rfl⟩

namespace DAO

/-- `SELECT DISTINCT src_application, dst_application, path, dst_port`, as a set. -/
def existing (table : List EbpfNetworkEvent) : Finset EdgeKey :=
  (table.map EbpfNetworkEvent.edgeKey).toFinset

/-- Insert the events whose edge key the table does not have. -/
def addEvents (events table : List EbpfNetworkEvent) : List EbpfNetworkEvent :=
  if events.isEmpty then table
  else
    let newEvents := events.filter fun event => event.edgeKey ∉ existing table
    if newEvents.isEmpty then table else table ++ newEvents

theorem mem_existing {table : List EbpfNetworkEvent} {key : EdgeKey} :
    key ∈ existing table ↔ ∃ row ∈ table, row.edgeKey = key := by
  simp [existing]

/-- The rows after a batch: the old ones, and the events whose key is new to the table. -/
theorem mem_addEvents {events table : List EbpfNetworkEvent} {row : EbpfNetworkEvent} :
    row ∈ addEvents events table ↔
      row ∈ table ∨ (row ∈ events ∧ ∀ old ∈ table, old.edgeKey ≠ row.edgeKey) := by
  have fresh : row ∈ (events.filter fun event => event.edgeKey ∉ existing table) ↔
      row ∈ events ∧ ∀ old ∈ table, old.edgeKey ≠ row.edgeKey := by
    simp [mem_existing]
  rw [← fresh]
  unfold addEvents
  split
  · rename_i noEvents
    simp [List.isEmpty_iff.mp noEvents]
  · dsimp only
    split
    · rename_i nothingNew
      rw [List.isEmpty_iff.mp nothingNew]
      simp
    · exact List.mem_append

end DAO

/-- The events of one tick, for a listing of the outgoing flows. -/
def flushSnapshot (nowNs : UInt64) (downstream : AList fun _ : NodeId => List Flow) :
    List EbpfNetworkEvent :=
  (downstream.entries.flatMap (·.2)).map (Flow.toEvent nowNs)

def flushTick (nowNs : UInt64) (downstream : AList fun _ : NodeId => List Flow)
    (table : List EbpfNetworkEvent) : List EbpfNetworkEvent :=
  let events := flushSnapshot nowNs downstream
  if events.isEmpty then table else DAO.addEvents events table

theorem mem_flushTick {nowNs : UInt64} {downstream : AList fun _ : NodeId => List Flow}
    {table : List EbpfNetworkEvent} {row : EbpfNetworkEvent} :
    row ∈ flushTick nowNs downstream table ↔
      row ∈ table ∨
        ∃ key, ∃ flow ∈ downstream.toFinmap.row key, flow.toEvent nowNs = row ∧
          ∀ old ∈ table, old.edgeKey ≠ flow.edgeKey := by
  have tick : row ∈ flushTick nowNs downstream table ↔
      row ∈ DAO.addEvents (flushSnapshot nowNs downstream) table := by
    unfold flushTick
    dsimp only
    split
    · rename_i noEvents
      simp [List.isEmpty_iff.mp noEvents, DAO.addEvents]
    · rfl
  rw [tick, DAO.mem_addEvents, flushSnapshot, List.mem_map]
  refine or_congr_right ?_
  constructor
  · rintro ⟨⟨flow, flowMem, rfl⟩, fresh⟩
    rcases Finmap.mem_flatMap_entries_iff.mp flowMem with ⟨key, stored⟩
    exact ⟨key, flow, stored, rfl, fresh⟩
  · rintro ⟨key, flow, stored, rfl, fresh⟩
    exact ⟨⟨flow, Finmap.mem_flatMap_entries_iff.mpr ⟨key, stored⟩, rfl⟩, fresh⟩

theorem Flow.edgeKey_eq_of_records {nowNs : UInt64} {flow other : Flow}
    (records : (other.toEvent nowNs).Records flow) : other.edgeKey = flow.edgeKey := by
  rcases records with ⟨source, -, destination, -, -, path⟩
  simp only [toEvent] at source destination path
  simp [edgeKey, source, destination, path]

/--
After a tick the table has a row for every outgoing flow, exactly when each flow whose edge key
the table already had already had a row there.
-/
theorem records_flushTick_iff (nowNs : UInt64) (topology : Topology)
    (downstream : AList fun _ : NodeId => List Flow)
    (listing : downstream.toFinmap = topology.downstream) (table : List EbpfNetworkEvent) :
    (∀ key, ∀ flow ∈ topology.downstream.row key,
        ∃ row ∈ flushTick nowNs downstream table, row.Records flow) ↔
      ∀ key, ∀ flow ∈ topology.downstream.row key,
        (∃ row ∈ table, row.edgeKey = flow.edgeKey) → ∃ row ∈ table, row.Records flow := by
  constructor
  · intro complete key flow stored ⟨old, oldMem, sameKey⟩
    rcases complete key flow stored with ⟨row, rowMem, records⟩
    rcases mem_flushTick.mp rowMem with inTable | ⟨_, other, -, rfl, fresh⟩
    · exact ⟨row, inTable, records⟩
    · have otherKey : other.edgeKey = flow.edgeKey := Flow.edgeKey_eq_of_records records
      exact absurd (sameKey.trans otherKey.symm) (fresh old oldMem)
  · intro unhidden key flow stored
    by_cases known : ∃ row ∈ table, row.edgeKey = flow.edgeKey
    · rcases unhidden key flow stored known with ⟨row, rowMem, records⟩
      exact ⟨row, mem_flushTick.mpr (Or.inl rowMem), records⟩
    · push Not at known
      refine ⟨flow.toEvent nowNs, ?_, flow.records_toEvent nowNs⟩
      rw [mem_flushTick, listing]
      exact Or.inr ⟨key, flow, stored, rfl, known⟩

namespace Storage

/-- A service of the namespace `team-a` calls its database. -/
def callInTeamA : Flow where
  sourceNode := { applicationName := "web", ns := "team-a" }
  destinationNode := { applicationName := "db", ns := "team-a" }
  path := "/query"
  method := "GET"

/-- The same names in another namespace. -/
def callInTeamB : Flow where
  sourceNode := { applicationName := "web", ns := "team-b" }
  destinationNode := { applicationName := "db", ns := "team-b" }
  path := "/query"
  method := "GET"

/-- The outgoing flows when only the call in `team-b` is observed. -/
def onlyTeamB : AList fun _ : NodeId => List Flow :=
  AList.singleton callInTeamB.sourceNode [callInTeamB]

theorem records_flushTick_onlyTeamB_iff :
    (∀ key, ∀ flow ∈ (Topology.new.addFlow callInTeamB).downstream.row key,
        ∃ row ∈ flushTick 2 onlyTeamB [callInTeamB.toEvent 1], row.Records flow) ↔
      ∀ key, ∀ flow ∈ (Topology.new.addFlow callInTeamB).downstream.row key,
        (∃ row ∈ [callInTeamB.toEvent 1], row.edgeKey = flow.edgeKey) →
          ∃ row ∈ [callInTeamB.toEvent 1], row.Records flow :=
  records_flushTick_iff 2 (Topology.new.addFlow callInTeamB) onlyTeamB (by decide +kernel)
    [callInTeamB.toEvent 1]

theorem exists_hidden_flow :
    ∃ (nowNs : UInt64) (topology : Topology) (downstream : AList fun _ : NodeId => List Flow)
      (table : List EbpfNetworkEvent) (key : NodeId), ∃ flow ∈ topology.downstream.row key,
        downstream.toFinmap = topology.downstream ∧
          ∀ row ∈ flushTick nowNs downstream table, ¬row.Records flow :=
  ⟨2, Topology.new.addFlow callInTeamB, onlyTeamB, [callInTeamA.toEvent 1],
    callInTeamB.sourceNode, callInTeamB, by decide +kernel, by decide +kernel, by decide +kernel⟩

end Storage

end Qubit
