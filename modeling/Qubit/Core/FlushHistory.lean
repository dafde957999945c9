import Qubit.Core.Storage
import Qubit.Lib.NewKeys

/-!
# The table after many ticks

A tick appends the flows whose edge key the table does not have, all of them when several
have one key. So after any ticks the table has the keys that it had and those of all
snapshots, each as often as at first.
-/

namespace Qubit

/-- The time and the outgoing flows of one tick, in the order in which the map lists them. -/
structure FlushTick where
  nowNs : UInt64
  downstream : AList fun _ : NodeId => List Flow

namespace FlushTick

variable (tick : FlushTick)

def flows : List Flow :=
  tick.downstream.entries.flatMap (·.2)

def snapshot : List EbpfNetworkEvent :=
  flushSnapshot tick.nowNs tick.downstream

end FlushTick

/-- The table after the ticks of the flush timer. -/
def flushHistory (ticks : List FlushTick) (table : List EbpfNetworkEvent) :
    List EbpfNetworkEvent :=
  ticks.foldl (fun table tick => flushTick tick.nowNs tick.downstream table) table

namespace DAO

open NewKeys (Has)

theorem mem_existing_iff_has {table : List EbpfNetworkEvent} {key : EdgeKey} :
    key ∈ existing table ↔ Has EbpfNetworkEvent.edgeKey key table :=
  mem_existing

theorem addEvents_eq (events table : List EbpfNetworkEvent) :
    addEvents events table = NewKeys.append EbpfNetworkEvent.edgeKey table events := by
  simp only [addEvents, NewKeys.append, mem_existing_iff_has]
  split
  · rename_i noEvents
    simp [List.isEmpty_iff.mp noEvents]
  · split
    · rename_i nothingNew
      rw [List.isEmpty_iff.mp nothingNew, List.append_nil]
    · rfl

end DAO

open NewKeys (Has count)

theorem flushTick_eq (tick : FlushTick) (table : List EbpfNetworkEvent) :
    flushTick tick.nowNs tick.downstream table =
      NewKeys.append EbpfNetworkEvent.edgeKey table tick.snapshot := by
  simp only [flushTick, DAO.addEvents_eq]
  split
  · rename_i noEvents
    rw [FlushTick.snapshot, List.isEmpty_iff.mp noEvents]
    simp [NewKeys.append]
  · rfl

theorem flushHistory_eq (ticks : List FlushTick) (table : List EbpfNetworkEvent) :
    flushHistory ticks table =
      NewKeys.appendAll EbpfNetworkEvent.edgeKey table (ticks.map FlushTick.snapshot) := by
  simp only [flushHistory, NewKeys.appendAll, List.foldl_map, flushTick_eq]

theorem has_snapshot {tick : FlushTick} {key : EdgeKey} :
    Has EbpfNetworkEvent.edgeKey key tick.snapshot ↔ Has Flow.edgeKey key tick.flows := by
  simp only [Has, FlushTick.snapshot, flushSnapshot, List.mem_map, exists_exists_and_eq_and]
  rfl

theorem count_snapshot (tick : FlushTick) (key : EdgeKey) :
    count EbpfNetworkEvent.edgeKey key tick.snapshot = count Flow.edgeKey key tick.flows := by
  rw [count, FlushTick.snapshot, flushSnapshot, List.countP_map]
  rfl

/--
After any ticks, the table has the edge keys it had and those of the flows of all snapshots. Each
key has as many rows as at the beginning, if it was there, else as many as there are flows with it
in the first snapshot that has it.
-/
theorem flushHistory_rows (ticks : List FlushTick) (table : List EbpfNetworkEvent)
    (key : EdgeKey) :
    (Has EbpfNetworkEvent.edgeKey key (flushHistory ticks table) ↔
        Has EbpfNetworkEvent.edgeKey key table ∨
          ∃ tick ∈ ticks, Has Flow.edgeKey key tick.flows) ∧
      count EbpfNetworkEvent.edgeKey key (flushHistory ticks table) =
        if Has EbpfNetworkEvent.edgeKey key table then count EbpfNetworkEvent.edgeKey key table
        else (ticks.find? fun tick => Has Flow.edgeKey key tick.flows).elim 0 fun tick =>
          count Flow.edgeKey key tick.flows := by
  rw [flushHistory_eq]
  constructor
  · simp [NewKeys.has_appendAll, has_snapshot]
  · rw [NewKeys.count_appendAll, List.find?_map]
    simp only [Function.comp_def, has_snapshot]
    cases ticks.find? fun tick => decide (Has Flow.edgeKey key tick.flows) with
    | none => rfl
    | some tick => simp [count_snapshot]

end Qubit
