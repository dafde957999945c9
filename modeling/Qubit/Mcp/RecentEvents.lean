import Qubit.Core.Backend
import Qubit.Core.Pages

/-!
# Recent network events

The tool `get_network_events` asks for the rows of the last minutes. A row has the time of the
flush that found its edge key new, and while it is in the table no later flush writes another one
for this key. So a call is recent for some minutes after it has been seen for the first time, and
not any more however often it is made from then on.
-/

namespace Qubit.Mcp

namespace ChClient

/-- The first nanosecond of the window, by a clock in seconds; the length may wrap. -/
def networkCutoff (now : ℕ) (lastMinutes : UInt32) : ℤ :=
  ((now : ℤ) - (lastMinutes * 60).toNat) * 1000000000

def InWindow (now : ℕ) (lastMinutes : UInt32) (row : EbpfNetworkEvent) : Prop :=
  networkCutoff now lastMinutes ≤ row.timestampNs.toNat

instance (now : ℕ) (lastMinutes : UInt32) : DecidablePred (InWindow now lastMinutes) :=
  fun _ => inferInstanceAs (Decidable (_ ≤ _))

/-- The rows of the answer: the conditions select them, and the newest hundred come back. -/
def networkEvents (now : ℕ) (lastMinutes : UInt32) (selected : EbpfNetworkEvent → Bool)
    (order : List EbpfNetworkEvent) : List EbpfNetworkEvent :=
  (order.filter fun row => InWindow now lastMinutes row ∧ selected row).take 100

end ChClient

open ChClient Backend

/-- Rows with one edge key have one time, unless both were there at the start. -/
theorem timestampNs_eq {table : List EbpfNetworkEvent} {actions : List Backend.Action}
    (keeps : ∀ action ∈ actions, action.Keeps) {row other : EbpfNetworkEvent}
    (fresh : row ∉ table) (rowMem : row ∈ ((start table).run actions).events.table)
    (otherMem : other ∈ ((start table).run actions).events.table)
    (sameKey : row.edgeKey = other.edgeKey) : row.timestampNs = other.timestampNs := by
  rcases host.same_batch (start table) rfl (asks_keeps keeps) rowMem otherMem sameKey with
    ⟨old, -⟩ | ⟨batch, begun, inBatch, otherInBatch⟩
  · exact absurd old fresh
  · rcases exists_tick_of_begunIn begun with ⟨before, tick, after, -, rows⟩
    rcases rows row inBatch with ⟨flow, -, rfl⟩
    rcases rows other otherInBatch with ⟨flow, -, rfl⟩
    rfl

/--
Once a call has a row, it is among the recent network events only as long as the time of this row is
in the window, whatever traffic, flushes, failures and restarts follow; and as long as it is, and no
more than a hundred rows are asked for, it is among them.
-/
theorem recent_of_row (table : List EbpfNetworkEvent) (before after : List Backend.Action)
    (keeps : ∀ action ∈ before ++ after, action.Keeps) {row : EbpfNetworkEvent}
    (fresh : row ∉ table) (rowMem : row ∈ ((start table).run before).events.table)
    {order : List EbpfNetworkEvent}
    (ordering : Pages.IsOrdering (fun row : EbpfNetworkEvent => row.timestampNs.toNat)
      ((start table).run (before ++ after)).events.table order)
    (now : ℕ) (lastMinutes : UInt32) (selected : EbpfNetworkEvent → Bool) :
    ((∃ other ∈ networkEvents now lastMinutes selected order, other.edgeKey = row.edgeKey) →
      InWindow now lastMinutes row) ∧
    (InWindow now lastMinutes row → selected row →
      (order.countP fun other => InWindow now lastMinutes other ∧ selected other) ≤ 100 →
      row ∈ networkEvents now lastMinutes selected order) := by
  have stays : row ∈ ((start table).run (before ++ after)).events.table := by
    rw [run_append]
    refine host.mem_run _ (asks_keeps ?_) rowMem
    exact fun action actionMem => keeps action (List.mem_append_right _ actionMem)
  constructor
  · rintro ⟨other, otherMem, sameKey⟩
    rcases List.mem_filter.mp (List.mem_of_mem_take otherMem) with ⟨listed, chosen⟩
    have stored := ordering.perm.mem_iff.mp listed
    rw [InWindow, timestampNs_eq keeps fresh stays stored sameKey.symm]
    exact (of_decide_eq_true chosen).1
  · intro inWindow chosen few
    rw [networkEvents, List.take_of_length_le]
    · exact List.mem_filter.mpr ⟨ordering.perm.mem_iff.mpr stays,
        decide_eq_true ⟨inWindow, chosen⟩⟩
    · rwa [← List.countP_eq_length_filter]

/-- The calls are stored, and are still in the graph at the tick that comes two hours later. -/
def storedCalls : List Backend.Action :=
  callsRecorded ++ [.tick (callTick 7), .fetched, .inserted]

def twoHoursLater : List Backend.Action :=
  [.tick (callTick 7200000000000), .fetched]

theorem recent_of_row_twoHoursLater :
    let order := ((start []).run (storedCalls ++ twoHoursLater)).events.table
    ((∃ other ∈ networkEvents 7200 60 (fun _ => true) order,
        other.edgeKey = ((callFrom "team-a").toEvent 7).edgeKey) →
      InWindow 7200 60 ((callFrom "team-a").toEvent 7)) ∧
    (InWindow 7200 60 ((callFrom "team-a").toEvent 7) → true →
      (order.countP fun other => InWindow 7200 60 other ∧ true) ≤ 100 →
      (callFrom "team-a").toEvent 7 ∈ networkEvents 7200 60 (fun _ => true) order) :=
  recent_of_row [] storedCalls twoHoursLater
    (by simp [storedCalls, twoHoursLater, callsRecorded, callRecorded, Action.Keeps])
    List.not_mem_nil (by decide +kernel) ⟨List.Perm.refl _, by decide +kernel⟩ 7200 60 _

end Qubit.Mcp
