import Qubit.Core.PodMap
import Qubit.Lib.Run

/-!
# What the graph remembers of a run

The graph is a record of the run that led to it: its flows are those of the events
that were recorded, each under the names that the announcements after it gave to its
two ends. Nothing else can be in the graph, and nothing that was recorded ever leaves
it. A flow is recorded at most once for each edge key, so the graph is no larger than
the set of seen keys.
-/

namespace Qubit

/-- The flow that an operation records: that of an event with a new edge key. -/
def CoreState.recorded? (state : CoreState) : Operation → Option Flow
  | .ebpfEvent input =>
      match state.observed? input with
      | none => none
      | some src =>
          if state.eventKey input src ∈ state.seenEdges then none
          else some (state.eventFlow input src)
  | _ => none

/-- The renaming that the announcement of a named pod attempts. -/
def Operation.renaming? : Operation → Option (Renaming NodeId)
  | .podApplied podIp info =>
      if info.applicationName ≠ "" then
        some { stale := NodeId.unresolved podIp, resolved := info.node }
      else none
  | _ => none

/-- A flow under the names that operations after it give to its two ends. -/
def Flow.renamedBy (operations : List Operation) (flow : Flow) : Flow :=
  flow.renameAll (operations.filterMap Operation.renaming?)

namespace CoreState

/-- What one operation does to a flow of the graph. -/
def carry (operation : Operation) (flow : Flow) : Flow :=
  operation.renaming?.elim flow fun rule => flow.rewire rule.stale rule.resolved

theorem carried_carry (operations : List Operation) (flow : Flow) :
    Run.carried carry operations flow = flow.renamedBy operations := by
  induction operations generalizing flow with
  | nil => rfl
  | cons first rest ih =>
      rw [Run.carried, List.foldl_cons, ← Run.carried, ih, Flow.renamedBy, Flow.renamedBy, carry,
        List.filterMap_cons]
      cases first.renaming? with
      | none => rfl
      | some rule => exact (Flow.renameAll_cons rule _ flow).symm

/-- The calls after an operation: those before it under their new names, and what it records. -/
theorem mem_observeOperation {state : CoreState} {calls : CallGraph} {operation : Operation}
    {flow : Flow} :
    flow ∈ state.observeOperation calls operation ↔
      (∃ old ∈ calls, carry operation old = flow) ∨ flow ∈ state.recorded? operation := by
  cases operation with
  | ebpfEvent input =>
      simp only [observeOperation, recorded?, carry, Operation.renaming?, Option.elim_none,
        exists_eq_right]
      cases state.observed? input with
      | none => simp
      | some src =>
          by_cases seen : state.eventKey input src ∈ state.seenEdges
          · simp [seen]
          · simp [seen, CallGraph.observe, or_comm, eq_comm]
  | podApplied podIp info =>
      by_cases named : info.applicationName = ""
      · simp [observeOperation, recorded?, carry, Operation.renaming?, named]
      · simp [observeOperation, recorded?, carry, Operation.renaming?, named, CallGraph.rename]
  | _ => simp [observeOperation, recorded?, carry, Operation.renaming?]

theorem IsView.stores_apply_iff {state : CoreState} (view : state.IsView)
    {operation : Operation} {flow : Flow} :
    (state.apply operation).topology.Stores flow ↔
      (∃ old, state.topology.Stores old ∧ carry operation old = flow) ∨
        flow ∈ state.recorded? operation := by
  rcases view with ⟨calls, represents⟩
  rw [(represents_apply represents operation).stores_iff, mem_observeOperation]
  simp only [represents.stores_iff]

/-! ## Keys that were seen -/

theorem seenEdges_subset_apply (state : CoreState) (operation : Operation) :
    state.seenEdges ⊆ (state.apply operation).seenEdges := by
  cases operation with
  | ebpfEvent input =>
      rw [apply, recordEbpfEvent_fst]
      cases state.observed? input with
      | none => exact Finset.Subset.rfl
      | some src =>
          dsimp only
          split
          · exact Finset.Subset.rfl
          · exact Finset.subset_insert _ _
  | podApplied podIp info => rw [seenEdges_apply_podApplied]
  | _ => exact Finset.Subset.rfl

theorem seenEdges_subset_foldl (state : CoreState) (operations : List Operation) :
    state.seenEdges ⊆ (operations.foldl apply state).seenEdges := by
  induction operations generalizing state with
  | nil => exact Finset.Subset.rfl
  | cons first rest ih => exact (seenEdges_subset_apply state first).trans (ih _)

theorem eventKey_mem_seenEdges {state : CoreState} {input : EbpfNetworkEventInput} {src : PodInfo}
    (observed : state.observed? input = some src) :
    state.eventKey input src ∈ (state.apply (.ebpfEvent input)).seenEdges := by
  rw [apply, recordEbpfEvent_fst, observed]
  dsimp only
  split
  · assumption
  · exact Finset.mem_insert_self _ _

/--
After further requests the graph has the flows it had, and those recorded on the way, each under
the names given to its ends since.
-/
theorem stores_run_iff (earlier later : List Request) (flow : Flow) :
    (empty.run (earlier ++ later)).topology.Stores flow ↔
      (∃ old, (empty.run earlier).topology.Stores old ∧
          old.renamedBy (operationsOf later) = flow) ∨
        ∃ before operation after, operationsOf later = before ++ operation :: after ∧
          ∃ new ∈ (before.foldl apply (empty.run earlier)).recorded? operation,
            new.renamedBy after = flow := by
  have reached : empty.run (earlier ++ later) =
      (operationsOf later).foldl apply (empty.run earlier) := by
    rw [← run_eq_foldl, run, run, run, List.foldl_append]
  rw [reached, Run.stored_iff apply IsView (fun state flow => state.topology.Stores flow) carry
    recorded? (fun _ operation view => view.apply operation)
    (fun _ _ _ view => view.stores_apply_iff) (isView_run earlier)]
  simp only [carried_carry]

end CoreState

end Qubit
