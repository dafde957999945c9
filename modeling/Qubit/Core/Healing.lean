import Qubit.Core.Interleaving

/-!
# Healing under interleaving

The resolution that follows the announcement of a pod removes the node that was
created with the raw IP of the pod. An announcement can fall completely between the
lookup and the update of an event, and then the raw-IP node is created after the
resolution that should have removed it: the update is crossed. When no update is
crossed, no raw-IP node of a known pod is left once no task is mid-way.

The invariant says that the raw-IP node of a known pod has a task that will still
heal it. One step of one task keeps it, for each kind of step; a run of any number
of tasks, in any order, is a fold of such steps.
-/

namespace Qubit

namespace CoreState

/-- The raw-IP node of a known pod is left in the graph. -/
def Unhealed (state : CoreState) (ip : String) : Prop :=
  NodeId.unresolved ip ∈ state.topology.nodes ∧ state.KnowsPod ip

/-- No pod of the cache is in the namespace of the unresolved nodes. -/
def CacheNamed (state : CoreState) : Prop :=
  ∀ ip, ∀ info ∈ state.podCache.lookup ip, info.ns ≠ "unknown"

instance (state : CoreState) (ip : String) : Decidable (state.Unhealed ip) :=
  inferInstanceAs (Decidable (_ ∧ _))

end CoreState

namespace Operation

/--
What is supposed of the senders: a host that is an IP address is the destination's own, and
nothing is announced under the namespace of the unresolved nodes.
-/
def Supposed : Operation → Prop
  | .ebpfEvent input => (Ipv4.parse input.bareHost).isSome → input.bareHost = input.dstIpStr
  | .podApplied _ info => info.ns ≠ "unknown"
  | .envoyRoute _ _ ns => ns ≠ "unknown"
  | _ => True

def Announces (ip : String) : Operation → Prop
  | .podApplied podIp _ => podIp = ip
  | _ => False

instance : DecidablePred Supposed
  | .ebpfEvent _ => inferInstanceAs (Decidable (_ → _))
  | .podApplied _ _ => inferInstanceAs (Decidable (_ ≠ _))
  | .envoyRoute _ _ _ => inferInstanceAs (Decidable (_ ≠ _))
  | .podDeleted _ => .isTrue trivial
  | .serviceApplied _ _ => .isTrue trivial
  | .serviceDeleted _ _ => .isTrue trivial
  | .resourceEvent .. => .isTrue trivial

instance (ip : String) : DecidablePred (Announces ip)
  | .podApplied _ _ => inferInstanceAs (Decidable (_ = _))
  | .ebpfEvent _ => .isFalse id
  | .envoyRoute _ _ _ => .isFalse id
  | .podDeleted _ => .isFalse id
  | .serviceApplied _ _ => .isFalse id
  | .serviceDeleted _ _ => .isFalse id
  | .resourceEvent .. => .isFalse id

end Operation

namespace Phase

/-- No pod that the task has read is in the namespace of the unresolved nodes. -/
def Named : Phase → Prop
  | .readEnvoy _ src => src.ns ≠ "unknown"
  | .readDestination _ src => src.ns ≠ "unknown"
  | .readService _ src _ => src.ns ≠ "unknown"
  | .insertEdge _ src _ _ => src.ns ≠ "unknown"
  | .updateTopology _ flow => flow.sourceNode.ns ≠ "unknown"
  | .resolve _ info => info.ns ≠ "unknown"

def Resolves (ip : String) : Phase → Prop
  | .resolve podIp _ => podIp = ip
  | _ => False

/-- The IP of the raw-IP node to which the next step adds a flow. -/
def created? : Phase → Option String
  | .updateTopology _ flow =>
      if flow.destinationNode.ns = "unknown" then some flow.destinationNode.applicationName
      else none
  | _ => none

instance (ip : String) : DecidablePred (Resolves ip)
  | .resolve _ _ => inferInstanceAs (Decidable (_ = _))
  | .readEnvoy _ _ => .isFalse id
  | .readDestination _ _ => .isFalse id
  | .readService _ _ _ => .isFalse id
  | .insertEdge .. => .isFalse id
  | .updateTopology _ _ => .isFalse id

end Phase

namespace Task

/-- What the task has read and what it will perform is as supposed. -/
def Named : Task → Prop
  | .waiting operations => ∀ operation ∈ operations, operation.Supposed
  | .running phase rest =>
      (∀ current ∈ phase, current.Named) ∧ ∀ operation ∈ rest, operation.Supposed

/-- The task will still resolve the raw-IP node of a pod that it announces. -/
def Heals (ip : String) : Task → Prop
  | .waiting _ => False
  | .running phase rest =>
      (∃ current ∈ phase, current.Resolves ip) ∨ ∃ operation ∈ rest, operation.Announces ip

/-- The IP of the raw-IP node to which the next step of the task adds a flow. -/
def created? : Task → Option String
  | .running (some phase) _ => phase.created?
  | _ => none

instance (ip : String) : DecidablePred (Heals ip)
  | .waiting _ => .isFalse id
  | .running _ _ => inferInstanceAs (Decidable (_ ∨ _))

end Task

/-! ## Steps of one task -/

namespace Operation

/-- The first step of an operation does to the pod cache what the whole operation does. -/
theorem podCache_start (state : CoreState) (operation : Operation) :
    (operation.start state).1.podCache =
      operation.podWrite?.elim state.podCache (KeyedWrite.perform state.podCache) := by
  cases operation with
  | ebpfEvent input =>
      simp only [start]
      split
      · rfl
      · split <;> rfl
  | _ => rfl

/-- The first step of an operation adds no node and removes none. -/
theorem mem_nodes_start {state : CoreState} {operation : Operation} {node : NodeId} :
    node ∈ (operation.start state).1.topology.nodes ↔ node ∈ state.topology.nodes := by
  cases operation with
  | ebpfEvent input =>
      simp only [start]
      split
      · rfl
      · split <;> rfl
  | resourceEvent now resourceType name ns eventType resourceData =>
      exact Topology.mem_nodes_addK8sEvent
  | _ => rfl

/-- An entry of the cache after the first step was announced by it, or it was there before. -/
theorem announced_or_cached {state : CoreState} {operation : Operation} {ip : String}
    {info : PodInfo} (found : info ∈ (operation.start state).1.podCache.lookup ip) :
    operation = .podApplied ip info ∨
      info ∈ state.podCache.lookup ip ∧ ¬operation.Announces ip := by
  rw [podCache_start] at found
  cases operation with
  | podApplied podIp announced =>
      change info ∈ (KeyedWrite.perform state.podCache ⟨podIp, some announced⟩).lookup ip at found
      rw [KeyedWrite.lookup_perform] at found
      split at found
      · rename_i same
        left
        cases found
        rw [← same]
      · rename_i other
        exact Or.inr ⟨found, other⟩
  | podDeleted podIp =>
      change info ∈ (KeyedWrite.perform state.podCache ⟨podIp, none⟩).lookup ip at found
      rw [KeyedWrite.lookup_perform] at found
      split at found
      · cases found
      · exact Or.inr ⟨found, id⟩
  | _ => exact Or.inr ⟨found, id⟩

theorem cacheNamed_start {state : CoreState} (cacheNamed : state.CacheNamed)
    {operation : Operation} (supposed : operation.Supposed) :
    (operation.start state).1.CacheNamed := by
  intro ip info found
  rcases announced_or_cached found with rfl | ⟨cached, -⟩
  · exact supposed
  · exact cacheNamed ip info cached

theorem named_start {state : CoreState} (cacheNamed : state.CacheNamed)
    {operation : Operation} (supposed : operation.Supposed) :
    ∀ phase ∈ (operation.start state).2, phase.Named := by
  intro phase begun
  cases operation with
  | ebpfEvent input =>
      simp only [start] at begun
      split at begun
      · cases begun
      · split at begun
        · cases begun
        · rename_i src source
          cases begun
          rw [Option.filter_eq_some_iff] at source
          exact cacheNamed _ src source.1
  | podApplied podIp announced =>
      simp only [start] at begun
      split at begun
      · cases begun
        exact supposed
      · cases begun
  | podDeleted podIp => cases begun
  | serviceApplied name service => cases begun
  | serviceDeleted name ns => cases begun
  | resourceEvent now resourceType name ns eventType resourceData => cases begun
  | envoyRoute domain serviceName ns => cases begun

/--
A raw-IP node of a known pod after the first step of an operation was there before, and the
operation does not announce the pod, or the resolution comes next.
-/
theorem unhealed_start {state : CoreState} {operation : Operation} {ip : String}
    (unhealed : (operation.start state).1.Unhealed ip) :
    (state.Unhealed ip ∧ ¬operation.Announces ip) ∨
      ∃ phase ∈ (operation.start state).2, phase.Resolves ip := by
  rcases unhealed with ⟨present, info, found, named⟩
  rw [mem_nodes_start] at present
  rcases announced_or_cached found with rfl | ⟨cached, unannounced⟩
  · refine Or.inr ⟨.resolve ip info, ?_, rfl⟩
    simp [start, named]
  · exact Or.inl ⟨⟨present, info, cached, named⟩, unannounced⟩

end Operation

namespace Phase

@[simp]
theorem podCache_advance (state : CoreState) (phase : Phase) :
    (phase.advance state).1.podCache = state.podCache := by
  cases phase with
  | readEnvoy input src =>
      simp only [advance]
      split <;> rfl
  | insertEdge input src destination dstService =>
      simp only [advance]
      split <;> rfl
  | readDestination input src => rfl
  | readService input src destination => rfl
  | updateTopology input flow => rfl
  | resolve podIp info => rfl

theorem named_advance {state : CoreState} {phase : Phase} (named : phase.Named) :
    ∀ next ∈ (phase.advance state).2, next.Named := by
  intro next continued
  cases phase with
  | readEnvoy input src =>
      simp only [advance] at continued
      split at continued
      · cases continued
        exact named
      · cases continued
        exact named
  | readDestination input src =>
      cases continued
      exact named
  | readService input src destination =>
      cases continued
      exact named
  | insertEdge input src destination dstService =>
      simp only [advance] at continued
      split at continued
      · cases continued
      · cases continued
        exact named
  | updateTopology input flow => cases continued
  | resolve podIp info => cases continued

/--
A raw-IP node of a known pod after a step was there before, and the step does not resolve it, or
the step is the update that creates it.
-/
theorem unhealed_advance {state : CoreState} {phase : Phase} (named : phase.Named) {ip : String}
    (unhealed : (phase.advance state).1.Unhealed ip) :
    (state.Unhealed ip ∧ ¬phase.Resolves ip) ∨ (phase.created? = some ip ∧ state.KnowsPod ip) := by
  have known : state.KnowsPod ip := by
    have after := unhealed.2
    rwa [CoreState.KnowsPod, podCache_advance] at after
  have present := unhealed.1
  cases phase with
  | readEnvoy input src =>
      simp only [advance] at present
      split at present
      · exact Or.inl ⟨⟨present, known⟩, id⟩
      · exact Or.inl ⟨⟨present, known⟩, id⟩
  | readDestination input src => exact Or.inl ⟨⟨present, known⟩, id⟩
  | readService input src destination => exact Or.inl ⟨⟨present, known⟩, id⟩
  | insertEdge input src destination dstService =>
      simp only [advance] at present
      split at present
      · exact Or.inl ⟨⟨present, known⟩, id⟩
      · exact Or.inl ⟨⟨present, known⟩, id⟩
  | updateTopology input flow =>
      have cause : NodeId.unresolved ip = flow.destinationNode ∨
          NodeId.unresolved ip = flow.sourceNode ∨
            NodeId.unresolved ip ∈ state.topology.nodes := by
        simpa [advance, Topology.recordFlow, Topology.addFlow] using present
      rcases cause with destination | source | old
      · refine Or.inr ⟨?_, known⟩
        simp [created?, ← destination, NodeId.unresolved]
      · exact absurd (congrArg NodeId.ns source).symm named
      · exact Or.inl ⟨⟨old, known⟩, id⟩
  | resolve podIp info =>
      simp only [advance, Topology.mem_nodes_resolveUnknownNode] at present
      rcases present with ⟨old, oldMem, renamed⟩
      by_cases stale : old = NodeId.unresolved podIp
      · rw [stale, Function.update_self] at renamed
        exact absurd (congrArg NodeId.ns renamed) named
      · rw [Function.update_of_ne stale, id_eq] at renamed
        subst renamed
        refine Or.inl ⟨⟨oldMem, known⟩, ?_⟩
        rintro rfl
        exact stale rfl

end Phase

namespace Task

theorem spec_next {state : CoreState} (cacheNamed : state.CacheNamed)
    {operations : List Operation} (supposed : ∀ operation ∈ operations, operation.Supposed) :
    (next state operations).1.CacheNamed ∧ (next state operations).2.Named := by
  cases operations with
  | nil =>
      refine ⟨cacheNamed, ?_, ?_⟩
      · intro current absent
        cases absent
      · exact supposed
  | cons operation rest =>
      rw [List.forall_mem_cons] at supposed
      exact ⟨Operation.cacheNamed_start cacheNamed supposed.1,
        Operation.named_start cacheNamed supposed.1, supposed.2⟩

theorem named_advance {state : CoreState} (cacheNamed : state.CacheNamed) {task : Task}
    (named : task.Named) :
    (task.advance state).1.CacheNamed ∧ (task.advance state).2.Named := by
  cases task with
  | waiting operations => exact spec_next cacheNamed named
  | running phase rest =>
      cases phase with
      | none => exact spec_next cacheNamed named.2
      | some phase =>
          refine ⟨?_, Phase.named_advance (named.1 phase rfl), named.2⟩
          intro ip info found
          rw [advance, Phase.podCache_advance] at found
          exact cacheNamed ip info found

theorem unhealed_next {state : CoreState} {operations : List Operation} {ip : String}
    (unhealed : (next state operations).1.Unhealed ip) :
    (state.Unhealed ip ∨ (next state operations).2.Heals ip) ∧
      ((∃ operation ∈ operations, operation.Announces ip) →
        (next state operations).2.Heals ip) := by
  cases operations with
  | nil => exact ⟨Or.inl unhealed, Or.inr⟩
  | cons operation rest =>
      rcases Operation.unhealed_start unhealed with ⟨before, silent⟩ | resolving
      · refine ⟨Or.inl before, ?_⟩
        rintro ⟨announcement, member, announces⟩
        rcases List.mem_cons.mp member with rfl | later
        · exact absurd announces silent
        · exact Or.inr ⟨announcement, later, announces⟩
      · exact ⟨Or.inr (Or.inl resolving), fun _ => Or.inl resolving⟩

/--
A raw-IP node of a known pod after a step of a task: it was there before, or the task will heal
it, or the step created it; and a task that was to heal it still is.
-/
theorem unhealed_advance {state : CoreState} {task : Task} (named : task.Named) {ip : String}
    (unhealed : (task.advance state).1.Unhealed ip) :
    (state.Unhealed ip ∨ (task.advance state).2.Heals ip ∨
        (task.created? = some ip ∧ state.KnowsPod ip)) ∧
      (task.Heals ip → (task.advance state).2.Heals ip) := by
  cases task with
  | waiting operations =>
      exact ⟨(unhealed_next unhealed).1.imp_right Or.inl, False.elim⟩
  | running phase rest =>
      cases phase with
      | none =>
          refine ⟨(unhealed_next unhealed).1.imp_right Or.inl, ?_⟩
          rintro (⟨current, absent, -⟩ | announced)
          · cases absent
          · exact (unhealed_next unhealed).2 announced
      | some phase =>
          have cause := Phase.unhealed_advance (named.1 phase rfl) unhealed
          refine ⟨?_, ?_⟩
          · rcases cause with before | created
            · exact Or.inl before.1
            · exact Or.inr (Or.inr created)
          · rintro (⟨current, isPhase, resolves⟩ | announced)
            · cases isPhase
              rcases cause with before | created
              · exact absurd resolves before.2
              · cases phase with
                | updateTopology input flow => exact resolves.elim
                | _ => cases created.1
            · exact Or.inr announced

end Task

/-! ## Runs of the system -/

def Action.Supposed : Action → Prop
  | .arrive request => ∀ operation ∈ request.operations, operation.Supposed
  | .advance _ => True

instance : DecidablePred Action.Supposed
  | .arrive _ => inferInstanceAs (Decidable (∀ _ ∈ _, _))
  | .advance _ => .isTrue trivial

namespace System

/--
The action does not let an update follow an announcement that it should have preceded: when a
flow to a raw-IP node is added and the pod is already known, some task will still resolve it.
-/
def Uncrossed (system : System) : Action → Prop
  | .arrive _ => True
  | .advance index =>
      ∀ task ∈ system.tasks[index]?, ∀ ip ∈ task.created?, system.state.KnowsPod ip →
        ∃ healer ∈ system.tasks, healer.Heals ip

instance (system : System) : DecidablePred system.Uncrossed
  | .arrive _ => .isTrue trivial
  | .advance _ => inferInstanceAs (Decidable (∀ _ ∈ _, ∀ _ ∈ _, _ → _))

/-- For every raw-IP node of a known pod there is a task that will still heal it. -/
structure Healing (system : System) : Prop where
  cacheNamed : system.state.CacheNamed
  tasksNamed : ∀ task ∈ system.tasks, task.Named
  pending : ∀ ip, system.state.Unhealed ip → ∃ task ∈ system.tasks, task.Heals ip

theorem healing_initial : initial.Healing where
  cacheNamed := by
    intro ip info found
    cases found
  tasksNamed := by simp [initial]
  pending := by
    rintro ip ⟨present, -⟩
    exact absurd present Finmap.notMem_empty

theorem exists_mem_set {tasks : List Task} {index : Nat} {task task' : Task}
    (position : tasks[index]? = some task) {property : Task → Prop}
    (keeps : property task → property task') (some : ∃ other ∈ tasks, property other) :
    ∃ other ∈ tasks.set index task', property other := by
  rcases some with ⟨other, member, holds⟩
  rcases List.mem_iff_getElem?.mp member with ⟨place, placed⟩
  by_cases same : index = place
  · subst same
    rw [position, Option.some.injEq] at placed
    subst placed
    exact ⟨task', List.mem_set (List.getElem?_eq_some_iff.mp position).1 task', keeps holds⟩
  · refine ⟨other, List.mem_iff_getElem?.mpr ⟨place, ?_⟩, holds⟩
    rw [List.getElem?_set_ne same, placed]

/-- The step lemma: an uncrossed action leaves a healer for every raw-IP node of a known pod. -/
theorem Healing.step {system : System} (healing : system.Healing) {action : Action}
    (uncrossed : system.Uncrossed action) (supposed : action.Supposed) :
    (system.step action).Healing := by
  cases action with
  | arrive request =>
      refine ⟨healing.cacheNamed, ?_, ?_⟩
      · intro task member
        rcases List.mem_append.mp member with old | new
        · exact healing.tasksNamed task old
        · rw [List.mem_singleton.mp new]
          exact supposed
      · intro ip unhealed
        rcases healing.pending ip unhealed with ⟨task, member, heals⟩
        exact ⟨task, List.mem_append_left _ member, heals⟩
  | advance index =>
      cases position : system.tasks[index]? with
      | none => simpa only [System.step, position] using healing
      | some task =>
          simp only [System.step, position]
          have taskNamed : task.Named := healing.tasksNamed task (List.mem_of_getElem? position)
          have named := Task.named_advance healing.cacheNamed taskNamed
          refine ⟨named.1, ?_, ?_⟩
          · intro other member
            rcases List.mem_or_eq_of_mem_set member with old | new
            · exact healing.tasksNamed other old
            · rw [new]
              exact named.2
          · intro ip unhealed
            rcases Task.unhealed_advance taskNamed unhealed with ⟨cause, keeps⟩
            rcases cause with before | heals | ⟨creates, known⟩
            · exact exists_mem_set position keeps (healing.pending ip before)
            · exact ⟨_, List.mem_set (List.getElem?_eq_some_iff.mp position).1 _, heals⟩
            · exact exists_mem_set position keeps (uncrossed task position ip creates known)

theorem midWay_of_heals {task : Task} {ip : String} (heals : task.Heals ip) : task.MidWay := by
  cases task with
  | waiting operations => exact heals.elim
  | running phase rest =>
      cases phase with
      | some phase => exact trivial
      | none =>
          cases rest with
          | cons operation rest => exact trivial
          | nil => simp [Task.Heals] at heals

/--
In every run in which no update is crossed, whatever the interleaving, no raw-IP node of a known
pod is left when no task is mid-way.
-/
theorem healed_of_uncrossed (actions : List Action)
    (supposed : ∀ action ∈ actions, action.Supposed)
    (uncrossed : Run.EveryStep step Uncrossed initial actions)
    (quiet : (initial.run actions).Quiet) (ip : String) :
    ¬(initial.run actions).state.Unhealed ip := by
  intro unhealed
  have healing : (initial.run actions).Healing :=
    Run.holds_of_everyStep Healing
      (fun _ _ healing condition => healing.step condition.1 condition.2)
      healing_initial (uncrossed.and_forall supposed)
  rcases healing.pending ip unhealed with ⟨task, member, heals⟩
  exact quiet task member (midWay_of_heals heals)

/-- A crossed update leaves a raw-IP node of a known pod that no task will heal. -/
theorem unhealed_of_crossed {system : System} {index : Nat} {task : Task} {ip : String}
    (position : system.tasks[index]? = some task) (creates : task.created? = some ip)
    (known : system.state.KnowsPod ip)
    (abandoned : ∀ healer ∈ system.tasks, ¬healer.Heals ip) :
    (system.step (.advance index)).state.Unhealed ip ∧
      ∀ healer ∈ (system.step (.advance index)).tasks, ¬healer.Heals ip := by
  have present := List.mem_of_getElem? position
  simp only [step, position]
  cases task with
  | waiting operations => cases creates
  | running phase rest =>
      cases phase with
      | none => cases creates
      | some phase =>
          cases phase with
          | updateTopology input flow =>
              obtain ⟨unknown, address⟩ :
                  flow.destinationNode.ns = "unknown" ∧
                    flow.destinationNode.applicationName = ip := by
                simpa [Task.created?, Phase.created?] using creates
              have raw : flow.destinationNode = NodeId.unresolved ip := by
                rw [← address, NodeId.unresolved, ← unknown]
              refine ⟨⟨?_, known⟩, ?_⟩
              · simp [Task.advance, Phase.advance, Topology.recordFlow, Topology.addFlow, raw]
              · intro healer member
                rcases List.mem_or_eq_of_mem_set member with old | new
                · exact abandoned healer old
                · rw [new]
                  intro heals
                  rcases heals with ⟨current, absent, -⟩ | announced
                  · cases absent
                  · exact abandoned _ present (Or.inr announced)
          | _ => cases creates

/-- A pod calls an address, whose pod is announced afterwards. -/
def announcedAfter : List Action :=
  [.arrive (.sendPodEvent
      { podIp := "10.0.0.1", ns := "default", eventType := 0, applicationName := "web",
        serviceName := "web", serviceType := "ClusterIP" }),
    .advance 0, .advance 0,
    .arrive (.sendEbpfNetworkEvent
      { srcIp := 16777226, dstIp := 33554442, method := "GET", path := "/",
        host := "10.0.0.2" }),
    .advance 1, .advance 1, .advance 1, .advance 1, .advance 1, .advance 1,
    .arrive (.sendPodEvent
      { podIp := "10.0.0.2", ns := "default", eventType := 0, applicationName := "api",
        serviceName := "api", serviceType := "ClusterIP" }),
    .advance 2, .advance 2]

/-- The same steps, with the announcement between the lookup and the update of the event. -/
def announcedBetween : List Action :=
  [.arrive (.sendPodEvent
      { podIp := "10.0.0.1", ns := "default", eventType := 0, applicationName := "web",
        serviceName := "web", serviceType := "ClusterIP" }),
    .advance 0, .advance 0,
    .arrive (.sendEbpfNetworkEvent
      { srcIp := 16777226, dstIp := 33554442, method := "GET", path := "/",
        host := "10.0.0.2" }),
    .advance 1, .advance 1, .advance 1, .advance 1, .advance 1,
    .arrive (.sendPodEvent
      { podIp := "10.0.0.2", ns := "default", eventType := 0, applicationName := "api",
        serviceName := "api", serviceType := "ClusterIP" }),
    .advance 2, .advance 2,
    .advance 1]

theorem not_unhealed_announcedAfter :
    ¬(initial.run announcedAfter).state.Unhealed "10.0.0.2" := by
  exact healed_of_uncrossed announcedAfter (by decide +kernel) (by decide +kernel)
    (by decide +kernel) "10.0.0.2"

theorem exists_unhealed :
    ∃ actions : List Action, (∀ action ∈ actions, action.Supposed) ∧
      (initial.run actions).Quiet ∧ ∃ ip, (initial.run actions).state.Unhealed ip :=
  ⟨announcedBetween, by decide +kernel, by decide +kernel, "10.0.0.2", by decide +kernel⟩

end System

end Qubit
