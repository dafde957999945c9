import Qubit.Core.Interleaving

/-!
# Where cached names come from

The pod cache and the Envoy cache are written by single operations of tasks. However the
tasks interleave, an entry is one that an operation of an arrived request brought, so any
condition that all arriving operations meet is met by what the caches hold.
-/

namespace Qubit

/-- What the task has still to perform. -/
def Task.operations : Task → List Operation
  | .waiting operations => operations
  | .running _ rest => rest

namespace CoreState

/-- The cached names are ones that allowed operations bring. -/
structure Sourced (allowed : Operation → Prop) (state : CoreState) : Prop where
  podCache : ∀ ip info, state.podCache.lookup ip = some info → allowed (.podApplied ip info)
  envoyCache : ∀ domain target, state.envoyCache.lookup domain = some target →
    allowed (.envoyRoute domain target.1 target.2)

variable {allowed : Operation → Prop} {state : CoreState}

theorem sourced_empty (allowed : Operation → Prop) : empty.Sourced allowed where
  podCache := by simp [empty]
  envoyCache := by simp [empty]

/-- Only the two caches matter. -/
theorem Sourced.congr {other : CoreState} (sourced : state.Sourced allowed)
    (podCache : other.podCache = state.podCache)
    (envoyCache : other.envoyCache = state.envoyCache) :
    other.Sourced allowed where
  podCache := podCache ▸ sourced.podCache
  envoyCache := envoyCache ▸ sourced.envoyCache

theorem Sourced.start (sourced : state.Sourced allowed) {operation : Operation}
    (mayBring : allowed operation) : (operation.start state).1.Sourced allowed := by
  cases operation with
  | ebpfEvent input =>
      simp only [Operation.start]
      split
      · exact sourced
      · split <;> exact sourced
  | podApplied podIp info =>
      refine ⟨?_, sourced.envoyCache⟩
      intro ip cached found
      simp only [Operation.start] at found
      by_cases same : ip = podIp
      · subst same
        rw [Finmap.lookup_insert, Option.some.injEq] at found
        exact found ▸ mayBring
      · rw [Finmap.lookup_insert_of_ne _ same] at found
        exact sourced.podCache ip cached found
  | podDeleted podIp =>
      refine ⟨?_, sourced.envoyCache⟩
      intro ip cached found
      simp only [Operation.start, apply, recordPodDeleted] at found
      by_cases same : ip = podIp
      · subst same
        rw [Finmap.lookup_erase] at found
        cases found
      · rw [Finmap.lookup_erase_ne same] at found
        exact sourced.podCache ip cached found
  | envoyRoute domain serviceName ns =>
      refine ⟨sourced.podCache, ?_⟩
      intro other target found
      simp only [Operation.start, apply, insertEnvoyRoute] at found
      by_cases same : other = domain
      · subst same
        rw [Finmap.lookup_insert, Option.some.injEq] at found
        exact found ▸ mayBring
      · rw [Finmap.lookup_insert_of_ne _ same] at found
        exact sourced.envoyCache other target found
  | serviceApplied name info => exact sourced.congr rfl rfl
  | serviceDeleted name ns => exact sourced.congr rfl rfl
  | resourceEvent now resourceType name ns eventType resourceData => exact sourced.congr rfl rfl

/-- The later steps of an operation leave the two caches as they are. -/
theorem Sourced.advance (sourced : state.Sourced allowed) (phase : Phase) :
    (phase.advance state).1.Sourced allowed := by
  cases phase with
  | readEnvoy input src =>
      simp only [Phase.advance]
      split <;> exact sourced
  | readDestination input src => exact sourced
  | readService input src destination => exact sourced
  | insertEdge input src destination dstService =>
      simp only [Phase.advance]
      split
      · exact sourced
      · exact sourced.congr rfl rfl
  | updateTopology input flow => exact sourced.congr rfl rfl
  | resolve podIp info => exact sourced.congr rfl rfl

end CoreState

namespace Task

theorem sourced_next {allowed : Operation → Prop} {state : CoreState}
    (sourced : state.Sourced allowed) {operations : List Operation}
    (mayBring : ∀ operation ∈ operations, allowed operation) :
    (next state operations).1.Sourced allowed ∧
      ∀ operation ∈ (next state operations).2.operations, allowed operation := by
  cases operations with
  | nil => exact ⟨sourced, mayBring⟩
  | cons operation rest =>
      rw [List.forall_mem_cons] at mayBring
      exact ⟨sourced.start mayBring.1, mayBring.2⟩

theorem sourced_advance {allowed : Operation → Prop} {state : CoreState}
    (sourced : state.Sourced allowed) {task : Task}
    (mayBring : ∀ operation ∈ task.operations, allowed operation) :
    (task.advance state).1.Sourced allowed ∧
      ∀ operation ∈ (task.advance state).2.operations, allowed operation := by
  cases task with
  | waiting operations => exact sourced_next sourced mayBring
  | running phase rest =>
      cases phase with
      | none => exact sourced_next sourced mayBring
      | some phase => exact ⟨sourced.advance phase, mayBring⟩

end Task

namespace System

/-- The cached names, and what the tasks may still bring, come from allowed operations. -/
structure Sourced (allowed : Operation → Prop) (system : System) : Prop where
  state : system.state.Sourced allowed
  tasks : ∀ task ∈ system.tasks, ∀ operation ∈ task.operations, allowed operation

variable {allowed : Operation → Prop} {system : System}

theorem sourced_initial (allowed : Operation → Prop) : initial.Sourced allowed where
  state := CoreState.sourced_empty allowed
  tasks := by simp [initial]

theorem Sourced.arrive (sourced : system.Sourced allowed) {request : Request}
    (mayBring : ∀ operation ∈ request.operations, allowed operation) :
    (system.step (.arrive request)).Sourced allowed where
  state := sourced.state
  tasks := by
    intro task taskMem
    rcases List.mem_append.mp taskMem with present | arrived
    · exact sourced.tasks task present
    · rw [List.mem_singleton] at arrived
      subst arrived
      exact mayBring

theorem Sourced.advance (sourced : system.Sourced allowed) (index : ℕ) :
    (system.step (.advance index)).Sourced allowed := by
  simp only [step]
  cases position : system.tasks[index]? with
  | none => exact sourced
  | some task =>
      rcases Task.sourced_advance sourced.state
        (sourced.tasks task (List.mem_of_getElem? position)) with ⟨stateSourced, mayBring⟩
      refine ⟨stateSourced, ?_⟩
      intro other otherMem
      rcases List.mem_or_eq_of_mem_set otherMem with present | rfl
      · exact sourced.tasks other present
      · exact mayBring

end System

end Qubit
