import Qubit.Core.Server
import Qubit.Lib.Run

/-!
# Interleaved tasks

Core handles every request in a task of its own. The atomic steps of a task are the
single cache operations and the single lock-protected sections of the code, and the
steps of different tasks interleave in any order. In particular the lookups of an
eBPF event and its update of the graph are separate steps, and so are the cache
insert of an announcement and the resolution that follows it.

A task that runs undisturbed performs its operations as the sequential model does
(`Task.exists_alone_eq_apply`).
-/

namespace Qubit

/-- A position inside an operation, by the atomic step that comes next. -/
inductive Phase where
  | readEnvoy (input : EbpfNetworkEventInput) (src : PodInfo)
  | readDestination (input : EbpfNetworkEventInput) (src : PodInfo)
  /-- Read the pod cache again, for the service name of the destination. -/
  | readService (input : EbpfNetworkEventInput) (src : PodInfo) (destination : NodeId)
  | insertEdge (input : EbpfNetworkEventInput) (src : PodInfo) (destination : NodeId)
      (dstService : String)
  | updateTopology (input : EbpfNetworkEventInput) (flow : Flow)
  | resolve (podIp : String) (info : PodInfo)

/-- The first atomic step of an operation. -/
def Operation.start (state : CoreState) : Operation → CoreState × Option Phase
  | .ebpfEvent input =>
      if Text.Contains "/health" input.path then (state, none)
      else
        match (state.podCache.lookup input.srcIpStr).filter PodInfo.isNamed with
        | none => (state, none)
        | some src => (state, some (.readEnvoy input src))
  | .podApplied podIp info =>
      ({ state with podCache := state.podCache.insert podIp info },
        if info.applicationName ≠ "" then some (.resolve podIp info) else none)
  | operation => (state.apply operation, none)

/-- One atomic step inside an operation. -/
def Phase.advance (state : CoreState) : Phase → CoreState × Option Phase
  | .readEnvoy input src =>
      match state.envoyCache.lookup input.bareHost with
      | some (applicationName, ns) =>
          (state, some (.readService input src { applicationName, ns }))
      | none => (state, some (.readDestination input src))
  | .readDestination input src =>
      let (applicationName, ns) :=
        destinationFromPod input.bareHost (state.podCache.lookup input.dstIpStr)
      (state, some (.readService input src { applicationName, ns }))
  | .readService input src destination =>
      (state, some (.insertEdge input src destination
        (destinationService (state.podCache.lookup input.dstIpStr) destination.applicationName)))
  | .insertEdge input src destination dstService =>
      let key := edgeKey src.ns src.serviceName destination.ns dstService
      if key ∈ state.seenEdges then (state, none)
      else
        ({ state with seenEdges := insert key state.seenEdges },
          some (.updateTopology input
            { sourceNode := src.node, destinationNode := destination,
              path := input.path, method := input.method }))
  | .updateTopology input flow =>
      ({ state with topology := state.topology.recordFlow flow input.srcIpStr input.dstIpStr },
        none)
  | .resolve podIp info =>
      ({ state with
          topology := state.topology.resolveUnknownNode podIp info.applicationName info.ns },
        none)

/-- A task: its remaining operations, and where it stands in the present one. -/
inductive Task where
  | waiting (operations : List Operation)
  | running (phase : Option Phase) (rest : List Operation)

namespace Task

/-- The task has taken a step and is not at its end. -/
def MidWay : Task → Prop
  | .waiting _ => False
  | .running none [] => False
  | .running _ _ => True

instance : DecidablePred MidWay
  | .waiting _ => .isFalse id
  | .running none [] => .isFalse id
  | .running (some _) _ => .isTrue trivial
  | .running none (_ :: _) => .isTrue trivial

def next (state : CoreState) : List Operation → CoreState × Task
  | [] => (state, .running none [])
  | operation :: rest => ((operation.start state).1, .running (operation.start state).2 rest)

def advance (state : CoreState) : Task → CoreState × Task
  | .waiting operations => next state operations
  | .running none rest => next state rest
  | .running (some phase) rest => ((phase.advance state).1, .running (phase.advance state).2 rest)

/-- Take steps without interference. -/
def alone : Nat → CoreState × Task → CoreState × Task
  | 0, now => now
  | steps + 1, now => alone steps (now.2.advance now.1)

theorem alone_add (first second : Nat) (now : CoreState × Task) :
    alone (first + second) now = alone second (alone first now) := by
  induction first generalizing now with
  | zero => rw [Nat.zero_add, alone]
  | succ first ih => rw [Nat.succ_add, alone, alone, ih]

/-- Undisturbed reads find the destination of the sequential model. -/
theorem exists_alone_readEnvoy (state : CoreState) (input : EbpfNetworkEventInput)
    (src : PodInfo) (rest : List Operation) :
    ∃ steps, alone steps (state, .running (some (.readEnvoy input src)) rest) =
      (state, .running (some (.readService input src (state.destination input))) rest) := by
  cases route : state.envoyCache.lookup input.bareHost with
  | some target =>
      refine ⟨1, ?_⟩
      simp [alone, advance, Phase.advance, route, CoreState.destination]
  | none =>
      refine ⟨2, ?_⟩
      simp [alone, advance, Phase.advance, route, CoreState.destination]

/-- Undisturbed, the key check and the update follow at once. -/
theorem exists_alone_readService (state : CoreState) (input : EbpfNetworkEventInput)
    (src : PodInfo) (rest : List Operation) :
    ∃ steps, alone steps
        (state, .running (some (.readService input src (state.destination input))) rest) =
      (if state.eventKey input src ∈ state.seenEdges then state
        else
          { state with
            seenEdges := insert (state.eventKey input src) state.seenEdges
            topology := state.topology.recordFlow (state.eventFlow input src)
              input.srcIpStr input.dstIpStr },
        .running none rest) := by
  by_cases seen : state.eventKey input src ∈ state.seenEdges
  · refine ⟨2, ?_⟩
    have key := seen
    rw [CoreState.eventKey] at key
    simp [alone, advance, Phase.advance, key, seen]
  · refine ⟨3, ?_⟩
    have key := seen
    rw [CoreState.eventKey] at key
    rw [if_neg seen, CoreState.eventKey, CoreState.eventFlow]
    simp [alone, advance, Phase.advance, key]

/-- Undisturbed, a task performs its next operation as the sequential model does. -/
theorem exists_alone_eq_apply (state : CoreState) (operation : Operation)
    (rest : List Operation) :
    ∃ steps, alone steps (state, .running none (operation :: rest)) =
      (state.apply operation, .running none rest) := by
  cases operation with
  | ebpfEvent input =>
      rw [CoreState.apply, CoreState.recordEbpfEvent_fst, CoreState.observed?, CoreState.source?]
      by_cases health : Text.Contains "/health" input.path
      · refine ⟨1, ?_⟩
        simp [alone, advance, next, Operation.start, health]
      · rw [if_neg health]
        cases source : (state.podCache.lookup input.srcIpStr).filter PodInfo.isNamed with
        | none =>
            refine ⟨1, ?_⟩
            simp [alone, advance, next, Operation.start, health, source]
        | some src =>
            have started : alone 1 (state, .running none (.ebpfEvent input :: rest)) =
                (state, .running (some (.readEnvoy input src)) rest) := by
              simp [alone, advance, next, Operation.start, health, source]
            rcases exists_alone_readEnvoy state input src rest with ⟨reads, resolved⟩
            rcases exists_alone_readService state input src rest with ⟨updates, recorded⟩
            exact ⟨1 + reads + updates, by rw [alone_add, alone_add, started, resolved, recorded]⟩
  | podApplied podIp info =>
      by_cases named : info.applicationName = ""
      · refine ⟨1, ?_⟩
        simp [alone, advance, next, Operation.start, named, CoreState.apply,
          CoreState.recordPodApplied]
        rw [← named]
      · refine ⟨2, ?_⟩
        simp [alone, advance, next, Operation.start, Phase.advance, named, CoreState.apply,
          CoreState.recordPodApplied]
  | podDeleted podIp => exact ⟨1, rfl⟩
  | serviceApplied name info => exact ⟨1, rfl⟩
  | serviceDeleted name ns => exact ⟨1, rfl⟩
  | resourceEvent now resourceType name ns eventType resourceData => exact ⟨1, rfl⟩
  | envoyRoute domain serviceName ns => exact ⟨1, rfl⟩

end Task

structure System where
  state : CoreState
  tasks : List Task

/-- A request arrives, or one of the tasks takes its next step. -/
inductive Action where
  | arrive (request : Request)
  | advance (index : Nat)

namespace System

def initial : System where
  state := CoreState.empty
  tasks := []

def step (system : System) : Action → System
  | .arrive request =>
      { system with tasks := system.tasks ++ [.waiting request.operations] }
  | .advance index =>
      match system.tasks[index]? with
      | none => system
      | some task =>
          { state := (task.advance system.state).1
            tasks := system.tasks.set index (task.advance system.state).2 }

def run (system : System) (actions : List Action) : System :=
  actions.foldl step system

/-- No task is between its first step and its end. -/
def Quiet (system : System) : Prop :=
  ∀ task ∈ system.tasks, ¬task.MidWay

instance (system : System) : Decidable system.Quiet :=
  inferInstanceAs (Decidable (∀ _ ∈ _, _))

end System

end Qubit
