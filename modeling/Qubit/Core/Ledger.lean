import Qubit.Core.History
import Qubit.Core.Coherence
import Qubit.Core.Interleaving

/-!
# What interleaved tasks have written

The check of the edge key and the update of the graph are two atomic steps of a task,
and between them any other task can run. A ledger notes each successful check with the
flow that its task is about to write, who is to write it, and, once it is written, every
renaming that the graph goes through. In every state that the system reaches, in
whatever order its tasks take their steps, the seen keys are those of the ledger, each
noted once, the flows of the graph are the written ones, and the flows not yet written
are in the hands of their tasks: no update is lost, and none is made twice.
-/

namespace Qubit

/-- A flow whose edge key was new, under its present names, and the task that is to write it. -/
structure LedgerEntry where
  key : String
  flow : Flow
  writer : Option ℕ
deriving DecidableEq, Repr

namespace LedgerEntry

def write (index : ℕ) (entry : LedgerEntry) : LedgerEntry :=
  if entry.writer = some index then { entry with writer := none } else entry

/-- A renaming of the graph reaches the written flows only. -/
def rename (stale resolved : NodeId) (entry : LedgerEntry) : LedgerEntry :=
  if entry.writer = none then { entry with flow := entry.flow.rewire stale resolved } else entry

@[simp]
theorem key_write (index : ℕ) (entry : LedgerEntry) : (entry.write index).key = entry.key := by
  simp [write, apply_ite key]

@[simp]
theorem flow_write (index : ℕ) (entry : LedgerEntry) : (entry.write index).flow = entry.flow := by
  simp [write, apply_ite flow]

theorem writer_write (index : ℕ) (entry : LedgerEntry) :
    (entry.write index).writer = if entry.writer = some index then none else entry.writer := by
  simp [write, apply_ite writer]

@[simp]
theorem key_rename (stale resolved : NodeId) (entry : LedgerEntry) :
    (entry.rename stale resolved).key = entry.key := by
  simp [rename, apply_ite key]

@[simp]
theorem writer_rename (stale resolved : NodeId) (entry : LedgerEntry) :
    (entry.rename stale resolved).writer = entry.writer := by
  simp [rename, apply_ite writer]

theorem flow_rename (stale resolved : NodeId) (entry : LedgerEntry) :
    (entry.rename stale resolved).flow =
      if entry.writer = none then entry.flow.rewire stale resolved else entry.flow := by
  simp [rename, apply_ite flow]

end LedgerEntry

namespace System

/-- How the ledger continues when the task at `index` advances in its phase. -/
def noteAdvance (state : CoreState) (ledger : List LedgerEntry) (index : ℕ) :
    Phase → List LedgerEntry
  | .insertEdge input src destination dstService =>
      let key := edgeKey src.ns src.serviceName destination.ns dstService
      if key ∈ state.seenEdges then ledger
      else
        ledger ++ [{ key
                     flow := { sourceNode := src.node, destinationNode := destination,
                               path := input.path, method := input.method }
                     writer := some index }]
  | .updateTopology _ _ => ledger.map (LedgerEntry.write index)
  | .resolve podIp info => ledger.map (LedgerEntry.rename (NodeId.unresolved podIp) info.node)
  | _ => ledger

def note (system : System) (ledger : List LedgerEntry) : Action → List LedgerEntry
  | .arrive _ => ledger
  | .advance index =>
      match system.tasks[index]? with
      | some (.running (some phase) _) => noteAdvance system.state ledger index phase
      | _ => ledger

def ledgerOf (actions : List Action) : List LedgerEntry :=
  Run.book step note initial [] actions

end System

/-- The task stands before its update of the graph by the flow. -/
def Task.Writes (flow : Flow) (task : Task) : Prop :=
  ∃ input rest, task = .running (some (.updateTopology input flow)) rest

namespace System

def Writes (system : System) (index : ℕ) (flow : Flow) : Prop :=
  ∃ task, system.tasks[index]? = some task ∧ task.Writes flow

/-- The flows that have been written, as often as they have been. -/
def writtenFlows (ledger : List LedgerEntry) : Multiset Flow :=
  (ledger.filter fun entry => entry.writer = none).map LedgerEntry.flow

/-- The graph has the written flows, and none more often than it was written. -/
def Written (ledger : List LedgerEntry) (calls : CallGraph) : Prop :=
  calls ≤ writtenFlows ledger ∧ ∀ flow ∈ writtenFlows ledger, flow ∈ calls

/-- The ledger says what was checked, what was written, and what is still to be written. -/
structure Accounts (system : System) (ledger : List LedgerEntry) : Prop where
  seenEdges : ∀ key, key ∈ system.state.seenEdges ↔ ∃ entry ∈ ledger, entry.key = key
  nodup : (ledger.map LedgerEntry.key).Nodup
  calls : ∃ calls, system.state.topology.Represents calls ∧ Written ledger calls
  writes : ∀ index flow, system.Writes index flow ↔
    ∃ entry ∈ ledger, entry.writer = some index ∧ entry.flow = flow

theorem accounts_initial : initial.Accounts [] where
  seenEdges := by simp [initial, CoreState.empty]
  nodup := List.nodup_nil
  calls := ⟨0, Topology.represents_new, by simp [Written, writtenFlows]⟩
  writes := by simp [initial, Writes]

end System

/-! ## Steps of one task -/

namespace Operation

/-- The first step of an operation leaves the calls and the seen keys as they are. -/
theorem represents_start {state : CoreState} {calls : CallGraph}
    (represents : state.topology.Represents calls) (operation : Operation) :
    (operation.start state).1.topology.Represents calls := by
  cases operation with
  | ebpfEvent input =>
      simp only [start]
      split
      · exact represents
      · split <;> exact represents
  | resourceEvent now resourceType name ns eventType resourceData =>
      exact represents.addK8sEvent _ _
  | _ => exact represents

theorem seenEdges_start (state : CoreState) (operation : Operation) :
    (operation.start state).1.seenEdges = state.seenEdges := by
  cases operation with
  | ebpfEvent input =>
      simp only [start]
      split
      · rfl
      · split <;> rfl
  | _ => rfl

/-- No operation begins with an update of the graph. -/
theorem not_writes_start (state : CoreState) (operation : Operation) (rest : List Operation)
    (flow : Flow) : ¬(Task.running (operation.start state).2 rest).Writes flow := by
  rintro ⟨input, others, same⟩
  cases operation with
  | ebpfEvent input =>
      simp only [start] at same
      split at same
      · cases same
      · split at same
        · cases same
        · cases same
  | podApplied podIp info =>
      simp only [start] at same
      split at same
      · cases same
      · cases same
  | _ => cases same

end Operation

namespace Task

theorem represents_next {state : CoreState} {calls : CallGraph}
    (represents : state.topology.Represents calls) (operations : List Operation) :
    (next state operations).1.topology.Represents calls := by
  cases operations with
  | nil => exact represents
  | cons operation rest => exact operation.represents_start represents

theorem seenEdges_next (state : CoreState) (operations : List Operation) :
    (next state operations).1.seenEdges = state.seenEdges := by
  cases operations with
  | nil => rfl
  | cons operation rest => exact operation.seenEdges_start state

theorem not_writes_next (state : CoreState) (operations : List Operation) (flow : Flow) :
    ¬(next state operations).2.Writes flow := by
  cases operations with
  | nil =>
      rintro ⟨input, rest, same⟩
      cases same
  | cons operation rest => exact operation.not_writes_start state rest flow

@[simp]
theorem writes_running {phase : Option Phase} {rest : List Operation} {flow : Flow} :
    (running phase rest).Writes flow ↔ ∃ input, phase = some (.updateTopology input flow) := by
  simp [Writes]

@[simp]
theorem not_writes_waiting {operations : List Operation} {flow : Flow} :
    ¬(waiting operations).Writes flow := by
  simp [Writes]

end Task

namespace System

/-- What the tasks are about to write after one of them has advanced. -/
theorem writes_set_iff {system : System} {index : ℕ} {task task' : Task} {state : CoreState}
    (position : system.tasks[index]? = some task) {place : ℕ} {flow : Flow} :
    ({ state, tasks := system.tasks.set index task' } : System).Writes place flow ↔
      if place = index then task'.Writes flow else system.Writes place flow := by
  have inside := (List.getElem?_eq_some_iff.mp position).1
  by_cases same : place = index
  · subst same
    simp [Writes, inside]
  · simp [Writes, List.getElem?_set_ne (Ne.symm same), same]

theorem writes_iff {system : System} {index : ℕ} {task : Task}
    (position : system.tasks[index]? = some task) {flow : Flow} :
    system.Writes index flow ↔ task.Writes flow := by
  simp [Writes, position]

/-- A request that has just arrived is not about to write. -/
theorem writes_arrive_iff {system : System} {request : Request} {place : ℕ} {flow : Flow} :
    (system.step (.arrive request)).Writes place flow ↔ system.Writes place flow := by
  simp only [Writes, step, List.getElem?_append]
  split
  · rfl
  · rename_i outside
    rw [List.getElem?_eq_none (not_lt.mp outside)]
    constructor
    · rintro ⟨task, arrived, writes⟩
      rw [List.getElem?_singleton, Option.ite_none_right_eq_some] at arrived
      rw [← Option.some.inj arrived.2] at writes
      exact (Task.not_writes_waiting writes).elim
    · rintro ⟨task, absent, -⟩
      cases absent

theorem mem_writtenFlows {ledger : List LedgerEntry} {flow : Flow} :
    flow ∈ writtenFlows ledger ↔ ∃ entry ∈ ledger, entry.writer = none ∧ entry.flow = flow := by
  simp [writtenFlows, and_assoc]

theorem mem_writtenFlows_write {index : ℕ} {ledger : List LedgerEntry} {flow : Flow} :
    flow ∈ writtenFlows (ledger.map (LedgerEntry.write index)) ↔
      flow ∈ writtenFlows ledger ∨
        ∃ entry ∈ ledger, entry.writer = some index ∧ entry.flow = flow := by
  simp only [mem_writtenFlows, List.mem_map, exists_exists_and_eq_and, LedgerEntry.writer_write,
    LedgerEntry.flow_write]
  rw [← exists_or]
  refine exists_congr fun entry => ?_
  rw [← and_or_left, ← or_and_right]
  refine and_congr_right fun _ => and_congr_left fun _ => ?_
  split
  · rename_i pending
    simp [pending]
  · rename_i other
    simp [other]

theorem writtenFlows_le_write (index : ℕ) (ledger : List LedgerEntry) :
    writtenFlows ledger ≤ writtenFlows (ledger.map (LedgerEntry.write index)) := by
  have sameFlows : (ledger.map (LedgerEntry.write index)).filter (fun entry => entry.writer = none)
      = (ledger.filter fun entry => (entry.write index).writer = none).map
          (LedgerEntry.write index) := by
    rw [List.filter_map]
    rfl
  rw [writtenFlows, writtenFlows, sameFlows, List.map_map, Multiset.coe_le]
  have flows : LedgerEntry.flow ∘ LedgerEntry.write index = LedgerEntry.flow := by
    funext entry
    exact entry.flow_write index
  rw [flows]
  refine (List.Sublist.map _ (List.monotone_filter_right _ ?_)).subperm
  intro entry written
  simp only [decide_eq_true_eq] at written ⊢
  rw [LedgerEntry.writer_write, written]
  simp

theorem writtenFlows_rename (stale resolved : NodeId) (ledger : List LedgerEntry) :
    writtenFlows (ledger.map (LedgerEntry.rename stale resolved)) =
      CallGraph.rename stale resolved (writtenFlows ledger) := by
  rw [writtenFlows, writtenFlows, CallGraph.rename, Multiset.map_coe, List.filter_map,
    List.map_map, List.map_map]
  congr 1
  have kept : (fun entry : LedgerEntry => decide (entry.writer = none)) ∘
      LedgerEntry.rename stale resolved = fun entry => decide (entry.writer = none) := by
    funext entry
    simp
  rw [kept]
  refine List.map_congr_left fun entry written => ?_
  have isWritten : entry.writer = none := by simpa using (List.mem_filter.mp written).2
  rw [Function.comp_apply, LedgerEntry.flow_rename, if_pos isWritten]
  rfl

/-! ## The ledger keeps up -/

namespace Accounts

variable {system : System} {ledger : List LedgerEntry} {index : ℕ} {task : Task}

/-- A task that neither was nor is about to write leaves the accounts in order. -/
theorem idle (accounts : system.Accounts ledger) (position : system.tasks[index]? = some task)
    (was_idle : ∀ flow, ¬task.Writes flow) {state : CoreState} {task' : Task}
    (is_idle : ∀ flow, ¬task'.Writes flow)
    (seenEdges : state.seenEdges = system.state.seenEdges)
    (represents : ∀ calls, system.state.topology.Represents calls →
      state.topology.Represents calls) :
    ({ state, tasks := system.tasks.set index task' } : System).Accounts ledger where
  seenEdges := by
    intro key
    rw [seenEdges]
    exact accounts.seenEdges key
  nodup := accounts.nodup
  calls := by
    rcases accounts.calls with ⟨calls, represented, written⟩
    exact ⟨calls, represents calls represented, written⟩
  writes := by
    intro place flow
    rw [writes_set_iff position, ← accounts.writes]
    split
    · rename_i same
      subst same
      rw [writes_iff position]
      exact iff_of_false (is_idle flow) (was_idle flow)
    · rfl

/-- A new key is noted with the flow that its task is about to write. -/
theorem check (accounts : system.Accounts ledger) (position : system.tasks[index]? = some task)
    (was_idle : ∀ flow, ¬task.Writes flow) {key : String} (new : key ∉ system.state.seenEdges)
    (input : EbpfNetworkEventInput) (flow : Flow) (rest : List Operation) :
    ({ state := { system.state with seenEdges := insert key system.state.seenEdges }
       tasks := system.tasks.set index
        (.running (some (.updateTopology input flow)) rest) } : System).Accounts
      (ledger ++ [{ key, flow, writer := some index }]) where
  seenEdges := by
    intro other
    simp only [Finset.mem_insert, accounts.seenEdges, List.mem_append, List.mem_singleton]
    constructor
    · rintro (rfl | ⟨entry, entryMem, rfl⟩)
      · exact ⟨_, Or.inr rfl, rfl⟩
      · exact ⟨entry, Or.inl entryMem, rfl⟩
    · rintro ⟨entry, old | rfl, rfl⟩
      · exact Or.inr ⟨entry, old, rfl⟩
      · exact Or.inl rfl
  nodup := by
    rw [List.map_append, List.map_singleton, List.nodup_append]
    refine ⟨accounts.nodup, List.nodup_singleton _, ?_⟩
    intro old oldMem another anotherMem same
    rw [List.mem_singleton] at anotherMem
    rcases List.mem_map.mp oldMem with ⟨entry, entryMem, rfl⟩
    exact new ((accounts.seenEdges key).mpr ⟨entry, entryMem, same.trans anotherMem⟩)
  calls := by
    rcases accounts.calls with ⟨calls, represented, written⟩
    refine ⟨calls, represented, ?_⟩
    simpa [Written, writtenFlows] using written
  writes := by
    intro place other
    rw [writes_set_iff position]
    simp only [List.mem_append, List.mem_singleton, or_and_right, exists_or, exists_eq_left]
    rw [← accounts.writes]
    split
    · rename_i same
      subst same
      simp [writes_iff position, was_idle]
    · rename_i other_place
      simp [Ne.symm other_place]

/-- The update of the graph by a flow writes what the ledger has for its task. -/
theorem write (accounts : system.Accounts ledger) {input : EbpfNetworkEventInput} {flow : Flow}
    {rest : List Operation}
    (position : system.tasks[index]? =
      some (.running (some (.updateTopology input flow)) rest)) :
    ({ state := { system.state with
          topology := system.state.topology.recordFlow flow input.srcIpStr input.dstIpStr }
       tasks := system.tasks.set index (.running none rest) } : System).Accounts
      (ledger.map (LedgerEntry.write index)) where
  seenEdges := by
    intro key
    simp [accounts.seenEdges]
  nodup := by
    simpa [Function.comp_def] using accounts.nodup
  calls := by
    rcases accounts.calls with ⟨calls, represented, fewer, mem_calls⟩
    have noted : ∃ entry ∈ ledger, entry.writer = some index ∧ entry.flow = flow := by
      rw [← accounts.writes, writes_iff position, Task.writes_running]
      exact ⟨input, rfl⟩
    refine ⟨calls.observe flow, represented.observe flow _ _, ?_, ?_⟩
    · refine Multiset.ndinsert_le.mpr ⟨fewer.trans (writtenFlows_le_write index ledger), ?_⟩
      rw [mem_writtenFlows_write]
      exact Or.inr noted
    · intro other otherMem
      rw [CallGraph.observe, Multiset.mem_ndinsert]
      rw [mem_writtenFlows_write] at otherMem
      rcases otherMem with written | pending
      · exact Or.inr (mem_calls other written)
      · rw [← accounts.writes, writes_iff position, Task.writes_running] at pending
        rcases pending with ⟨_, same⟩
        cases same
        exact Or.inl rfl
  writes := by
    intro place other
    rw [writes_set_iff position]
    simp only [List.mem_map, exists_exists_and_eq_and, LedgerEntry.writer_write,
      LedgerEntry.flow_write]
    split
    · rename_i same
      subst same
      simp
    · rename_i otherPlace
      rw [accounts.writes]
      constructor
      · rintro ⟨entry, entryMem, pending, rfl⟩
        refine ⟨entry, entryMem, ?_, rfl⟩
        rw [if_neg (by simpa [pending] using otherPlace), pending]
      · rintro ⟨entry, entryMem, pending, rfl⟩
        split at pending
        · cases pending
        · exact ⟨entry, entryMem, pending, rfl⟩

/-- A resolution renames what has been written, and nothing else. -/
theorem resolve (accounts : system.Accounts ledger) {podIp : String} {info : PodInfo}
    {rest : List Operation}
    (position : system.tasks[index]? = some (.running (some (.resolve podIp info)) rest)) :
    ({ state := { system.state with
          topology :=
            system.state.topology.resolveUnknownNode podIp info.applicationName info.ns }
       tasks := system.tasks.set index (.running none rest) } : System).Accounts
      (ledger.map (LedgerEntry.rename (NodeId.unresolved podIp) info.node)) where
  seenEdges := by
    intro key
    simp [accounts.seenEdges]
  nodup := by
    simpa [Function.comp_def] using accounts.nodup
  calls := by
    rcases accounts.calls with ⟨calls, represented, fewer, mem_calls⟩
    refine ⟨_, represented.resolve podIp info.applicationName info.ns, ?_, ?_⟩
    · rw [writtenFlows_rename]
      exact Multiset.map_le_map fewer
    · intro flow flowMem
      rw [writtenFlows_rename] at flowMem
      rcases Multiset.mem_map.mp flowMem with ⟨old, oldMem, rfl⟩
      exact Multiset.mem_map_of_mem _ (mem_calls old oldMem)
  writes := by
    intro place flow
    rw [writes_set_iff position]
    have pending : (∃ entry ∈ ledger.map (LedgerEntry.rename (NodeId.unresolved podIp) info.node),
        entry.writer = some place ∧ entry.flow = flow) ↔
          ∃ entry ∈ ledger, entry.writer = some place ∧ entry.flow = flow := by
      simp only [List.mem_map, exists_exists_and_eq_and, LedgerEntry.writer_rename]
      refine exists_congr fun entry => and_congr_right fun _ => and_congr_right fun pending => ?_
      rw [LedgerEntry.flow_rename, if_neg (by simp [pending])]
    rw [pending, ← accounts.writes]
    split
    · rename_i same
      subst same
      simp [writes_iff position]
    · rfl

/-- A task that begins its next operation neither checks a key nor writes. -/
theorem next (accounts : system.Accounts ledger) (position : system.tasks[index]? = some task)
    (was_idle : ∀ flow, ¬task.Writes flow) (operations : List Operation) :
    ({ state := (Task.next system.state operations).1
       tasks := system.tasks.set index (Task.next system.state operations).2 } :
        System).Accounts ledger :=
  accounts.idle position was_idle (Task.not_writes_next system.state operations)
    (Task.seenEdges_next system.state operations)
    fun _ represented => Task.represents_next represented operations

/-- One atomic step inside an operation: a read, a check, an update or a resolution. -/
theorem advance (accounts : system.Accounts ledger) {phase : Phase} {rest : List Operation}
    (position : system.tasks[index]? = some (.running (some phase) rest)) :
    ({ state := (phase.advance system.state).1
       tasks := system.tasks.set index (.running (phase.advance system.state).2 rest) } :
        System).Accounts (noteAdvance system.state ledger index phase) := by
  cases phase with
  | readEnvoy input src =>
      simp only [Phase.advance, noteAdvance]
      split
      · exact accounts.idle position (by simp) (by simp) rfl fun _ => id
      · exact accounts.idle position (by simp) (by simp) rfl fun _ => id
  | readDestination input src =>
      exact accounts.idle position (by simp) (by simp [Phase.advance]) rfl fun _ => id
  | readService input src destination =>
      exact accounts.idle position (by simp) (by simp [Phase.advance]) rfl fun _ => id
  | insertEdge input src destination dstService =>
      simp only [Phase.advance, noteAdvance]
      split
      · exact accounts.idle position (by simp) (by simp) rfl fun _ => id
      · rename_i new
        exact accounts.check position (by simp) new input _ rest
  | updateTopology input flow => exact accounts.write position
  | resolve podIp info => exact accounts.resolve position

/-- The step lemma: the ledger stays right whichever task advances. -/
theorem step (accounts : system.Accounts ledger) (action : Action) :
    (system.step action).Accounts (system.note ledger action) := by
  cases action with
  | arrive request =>
      refine ⟨accounts.seenEdges, accounts.nodup, accounts.calls, ?_⟩
      intro place flow
      exact writes_arrive_iff.trans (accounts.writes place flow)
  | advance index =>
      cases position : system.tasks[index]? with
      | none => simpa only [System.step, note, position] using accounts
      | some task =>
          simp only [System.step, note, position]
          cases task with
          | waiting operations => exact accounts.next position (by simp) operations
          | running phase rest =>
              cases phase with
              | none => exact accounts.next position (by simp) rest
              | some phase => exact accounts.advance position

end Accounts

theorem accounts_run (actions : List Action) :
    (initial.run actions).Accounts (ledgerOf actions) :=
  Run.book_correct Accounts (fun _ _ action accounts => accounts.step action) actions
    accounts_initial

/--
In every state of every interleaving, the seen keys are noted once each, the graph has the
written flows, and the flows not yet written are those that tasks are about to write.
-/
theorem ledger_run (actions : List Action) :
    ((ledgerOf actions).map LedgerEntry.key).Nodup ∧
      (∀ key, key ∈ (initial.run actions).state.seenEdges ↔
        ∃ entry ∈ ledgerOf actions, entry.key = key) ∧
      (∀ flow, (initial.run actions).state.topology.Stores flow ↔
        ∃ entry ∈ ledgerOf actions, entry.writer = none ∧ entry.flow = flow) ∧
      ∀ index flow, (initial.run actions).Writes index flow ↔
        ∃ entry ∈ ledgerOf actions, entry.writer = some index ∧ entry.flow = flow := by
  have accounts := accounts_run actions
  refine ⟨accounts.nodup, accounts.seenEdges, ?_, accounts.writes⟩
  intro flow
  rcases accounts.calls with ⟨calls, represented, fewer, mem_calls⟩
  rw [represented.stores_iff, ← mem_writtenFlows]
  exact ⟨fun stored => Multiset.mem_of_le fewer stored, mem_calls flow⟩

/-- In every state of every interleaving the three maps describe one graph. -/
theorem coherent_interleaved (actions : List Action) :
    (initial.run actions).state.topology.Coherent := by
  rcases (accounts_run actions).calls with ⟨calls, represented, -⟩
  exact represented.coherent

theorem Accounts.card_seenEdges {system : System} {ledger : List LedgerEntry}
    (accounts : system.Accounts ledger) :
    system.state.seenEdges.card = ledger.length := by
  have keys : system.state.seenEdges = (ledger.map LedgerEntry.key).toFinset := by
    ext key
    simp [accounts.seenEdges]
  rw [keys, List.toFinset_card_of_nodup accounts.nodup, List.length_map]

/-- The endpoints of calls are at most two for each of them. -/
theorem card_nodes_le {topology : Topology} {calls : CallGraph}
    (represents : topology.Represents calls) : topology.nodes.keys.card ≤ 2 * calls.card := by
  have endpoints : topology.nodes.keys ⊆
      (calls.map Flow.sourceNode).toFinset ∪ (calls.map Flow.destinationNode).toFinset := by
    intro node nodeMem
    rcases (represents.mem_nodes node).mp (Finmap.mem_keys.mp nodeMem) with
      ⟨flow, flowMem, rfl | rfl⟩
    · exact Finset.mem_union_left _ (Multiset.mem_toFinset.mpr (Multiset.mem_map_of_mem _ flowMem))
    · exact Finset.mem_union_right _ (Multiset.mem_toFinset.mpr (Multiset.mem_map_of_mem _ flowMem))
  have sources := (calls.map Flow.sourceNode).toFinset_card_le
  have destinations := (calls.map Flow.destinationNode).toFinset_card_le
  rw [Multiset.card_map] at sources destinations
  have union := (Finset.card_le_card endpoints).trans (Finset.card_union_le _ _)
  omega

/--
In every state of every interleaving each map of flows stores no more flows than there are seen
keys, and there are at most two nodes for each seen key.
-/
theorem size_le_seenEdges (actions : List Action) :
    let state := (initial.run actions).state
    ∑ node ∈ state.topology.upstream.keys, (state.topology.upstream.row node).length ≤
        state.seenEdges.card ∧
      ∑ node ∈ state.topology.downstream.keys, (state.topology.downstream.row node).length ≤
        state.seenEdges.card ∧
      state.topology.nodes.keys.card ≤ 2 * state.seenEdges.card := by
  intro state
  have accounts := accounts_run actions
  rcases accounts.calls with ⟨calls, represented, fewer, -⟩
  have card_le : calls.card ≤ state.seenEdges.card := by
    rw [accounts.card_seenEdges]
    refine (Multiset.card_le_card fewer).trans ?_
    rw [writtenFlows, Multiset.coe_card, List.length_map]
    exact List.length_filter_le _ _
  refine ⟨?_, ?_, ?_⟩
  · rw [represented.upstream.sum_length_row]
    exact card_le
  · rw [represented.downstream.sum_length_row]
    exact card_le
  · exact (card_nodes_le represented).trans (Nat.mul_le_mul_left 2 card_le)

end System

end Qubit
