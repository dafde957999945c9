import Qubit.Core.CacheOrigin
import Qubit.Core.Ledger
import Qubit.Core.Provenance

/-!
# Where the graph's names come from when tasks interleave

Between the first lookup of an event and the update of the graph a task carries the names that
it has read, while the caches change under it. What it carries was brought by operations of
arrived requests, as the cached names are, and so are the ends of every flow.
-/

namespace Qubit

/-- An allowed operation announces the node. -/
def AnnouncedBy (allowed : Operation → Prop) (node : NodeId) : Prop :=
  ∃ operation, allowed operation ∧ operation.AnnouncesNode node

/-- An allowed operation announces the node, routes to it, or has a host that is read as it. -/
def IntroducedBy (allowed : Operation → Prop) (node : NodeId) : Prop :=
  ∃ operation, allowed operation ∧ operation.Introduces node

/-- The flow is of an allowed event, with its ends announced and introduced. -/
structure Flow.TracedTo (allowed : Operation → Prop) (flow : Flow) : Prop where
  source : AnnouncedBy allowed flow.sourceNode
  destination : IntroducedBy allowed flow.destinationNode
  event : ∃ input, allowed (.ebpfEvent input) ∧ flow.path = input.path ∧
    flow.method = input.method

/-- Renaming to a node that is announced keeps a flow traced. -/
theorem Flow.TracedTo.rewire {allowed : Operation → Prop} {flow : Flow}
    (traced : flow.TracedTo allowed) (stale : NodeId) {resolved : NodeId}
    (announced : AnnouncedBy allowed resolved) :
    (flow.rewire stale resolved).TracedTo allowed where
  source := by
    rw [Flow.rewire]
    dsimp only
    split
    · exact announced
    · exact traced.source
  destination := by
    rw [Flow.rewire]
    dsimp only
    split
    · rcases announced with ⟨operation, mayBring, announces⟩
      exact ⟨operation, mayBring, Or.inl announces⟩
    · exact traced.destination
  event := traced.event

/-- What the task carries from one step to the next. -/
def Phase.Traced (allowed : Operation → Prop) : Phase → Prop
  | .readEnvoy input src | .readDestination input src =>
      allowed (.ebpfEvent input) ∧ AnnouncedBy allowed src.node
  | .readService input src destination | .insertEdge input src destination _ =>
      allowed (.ebpfEvent input) ∧ AnnouncedBy allowed src.node ∧ IntroducedBy allowed destination
  | .updateTopology _ flow => flow.TracedTo allowed
  | .resolve _ info => AnnouncedBy allowed info.node

def Task.Traced (allowed : Operation → Prop) : Task → Prop
  | .waiting _ => True
  | .running phase _ => ∀ present ∈ phase, present.Traced allowed

variable {allowed : Operation → Prop} {state : CoreState}

namespace CoreState

theorem Sourced.announcedBy (sourced : state.Sourced allowed) {ip : String} {info : PodInfo}
    (named : (state.podCache.lookup ip).filter PodInfo.isNamed = some info) :
    AnnouncedBy allowed info.node := by
  rcases Option.filter_eq_some_iff.mp named with ⟨cached, isNamed⟩
  refine ⟨_, sourced.podCache ip info cached, ?_, rfl⟩
  simpa [PodInfo.isNamed] using isNamed

/-- The flows of the graph are traced. -/
def GraphTraced (allowed : Operation → Prop) (state : CoreState) : Prop :=
  ∃ calls, state.topology.Represents calls ∧ ∀ flow ∈ calls, flow.TracedTo allowed

end CoreState

/-- The first step of an operation reads a name from the cache or brings one itself. -/
theorem Operation.traced_start (sourced : state.Sourced allowed) {operation : Operation}
    (mayBring : allowed operation) :
    ∀ phase ∈ (operation.start state).2, phase.Traced allowed := by
  cases operation with
  | ebpfEvent input =>
      simp only [start]
      split
      · simp
      · cases named : (state.podCache.lookup input.srcIpStr).filter PodInfo.isNamed with
        | none => simp
        | some src =>
            rintro phase ⟨⟩
            exact ⟨mayBring, sourced.announcedBy named⟩
  | podApplied podIp info =>
      simp only [start]
      split
      · rename_i named
        rintro phase ⟨⟩
        exact ⟨_, mayBring, named, rfl⟩
      · simp
  | _ => simp [start]

/-- A step of an operation keeps the graph traced, and what the task carries. -/
theorem Phase.traced_advance (sourced : state.Sourced allowed)
    (graphTraced : state.GraphTraced allowed) {phase : Phase} (traced : phase.Traced allowed) :
    (phase.advance state).1.GraphTraced allowed ∧
      ∀ next ∈ (phase.advance state).2, next.Traced allowed := by
  cases phase with
  | readEnvoy input src =>
      simp only [advance]
      cases route : state.envoyCache.lookup input.bareHost with
      | none =>
          refine ⟨graphTraced, ?_⟩
          rintro next ⟨⟩
          exact traced
      | some target =>
          refine ⟨graphTraced, ?_⟩
          rintro next ⟨⟩
          exact ⟨traced.1, traced.2, _, sourced.envoyCache _ _ route, Or.inr (Or.inl rfl)⟩
  | readDestination input src =>
      refine ⟨graphTraced, ?_⟩
      rintro next ⟨⟩
      refine ⟨traced.1, traced.2, ?_⟩
      cases named : (state.podCache.lookup input.dstIpStr).filter PodInfo.isNamed with
      | some info =>
          rcases sourced.announcedBy named with ⟨operation, mayBring, announces⟩
          exact ⟨operation, mayBring, Or.inl announces⟩
      | none =>
          exact ⟨_, traced.1, Or.inr (Or.inr rfl)⟩
  | readService input src destination =>
      refine ⟨graphTraced, ?_⟩
      rintro next ⟨⟩
      exact traced
  | insertEdge input src destination dstService =>
      simp only [advance]
      split
      · exact ⟨graphTraced, by simp⟩
      · refine ⟨graphTraced, ?_⟩
        rintro next ⟨⟩
        exact ⟨traced.2.1, traced.2.2, input, traced.1, rfl, rfl⟩
  | updateTopology input flow =>
      refine ⟨?_, by simp [advance]⟩
      rcases graphTraced with ⟨calls, represented, flows⟩
      refine ⟨calls.observe flow, represented.observe flow _ _, ?_⟩
      intro other otherMem
      rcases Multiset.mem_ndinsert.mp otherMem with rfl | old
      · exact traced
      · exact flows other old
  | resolve podIp info =>
      refine ⟨?_, by simp [advance]⟩
      rcases graphTraced with ⟨calls, represented, flows⟩
      refine ⟨_, represented.resolve podIp info.applicationName info.ns, ?_⟩
      intro renamed renamedMem
      rcases Multiset.mem_map.mp renamedMem with ⟨flow, flowMem, rfl⟩
      exact (flows flow flowMem).rewire _ traced

namespace System

/-- Cached names, pending operations, the names that tasks carry and those of the graph. -/
structure Traced (allowed : Operation → Prop) (system : System) : Prop where
  sourced : system.Sourced allowed
  graph : system.state.GraphTraced allowed
  tasks : ∀ task ∈ system.tasks, task.Traced allowed

variable {system : System}

theorem traced_initial (allowed : Operation → Prop) : initial.Traced allowed where
  sourced := sourced_initial allowed
  graph := ⟨0, Topology.represents_new, fun _ none => absurd none (Multiset.notMem_zero _)⟩
  tasks := by simp [initial]

theorem Traced.arrive (traced : system.Traced allowed) {request : Request}
    (mayBring : ∀ operation ∈ request.operations, allowed operation) :
    (system.step (.arrive request)).Traced allowed where
  sourced := traced.sourced.arrive mayBring
  graph := traced.graph
  tasks := by
    intro task taskMem
    rcases List.mem_append.mp taskMem with present | arrived
    · exact traced.tasks task present
    · rw [List.mem_singleton.mp arrived]
      exact trivial

/-- A task that begins its next operation leaves the graph to the later steps. -/
theorem Traced.next (traced : system.Traced allowed) {operations : List Operation}
    (mayBring : ∀ operation ∈ operations, allowed operation) :
    (Task.next system.state operations).1.GraphTraced allowed ∧
      (Task.next system.state operations).2.Traced allowed := by
  rcases traced.graph with ⟨calls, represented, flows⟩
  refine ⟨⟨calls, Task.represents_next represented operations, flows⟩, ?_⟩
  cases operations with
  | nil => exact fun phase none => absurd none (by simp)
  | cons operation rest =>
      exact Operation.traced_start traced.sourced.state (mayBring operation List.mem_cons_self)

theorem Traced.advance (traced : system.Traced allowed) (index : ℕ) :
    (system.step (.advance index)).Traced allowed := by
  have sourced := traced.sourced.advance index
  simp only [step] at sourced ⊢
  cases position : system.tasks[index]? with
  | none => exact traced
  | some task =>
      rw [position] at sourced
      have taskMem := List.mem_of_getElem? position
      have mayBring := traced.sourced.tasks task taskMem
      have carries := traced.tasks task taskMem
      have moved : (task.advance system.state).1.GraphTraced allowed ∧
          (task.advance system.state).2.Traced allowed := by
        cases task with
        | waiting operations => exact traced.next mayBring
        | running phase rest =>
            cases phase with
            | none => exact traced.next mayBring
            | some phase =>
                exact Phase.traced_advance traced.sourced.state traced.graph (carries phase rfl)
      refine ⟨sourced, moved.1, ?_⟩
      intro other otherMem
      rcases List.mem_or_eq_of_mem_set otherMem with present | rfl
      · exact traced.tasks other present
      · exact moved.2

end System

end Qubit
