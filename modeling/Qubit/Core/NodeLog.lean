import Qubit.Core.History
import Qubit.Core.Resolution

/-!
# The resource events of a node

A resource event is attached to the node of its name, if the graph has that node when
the event arrives. From then on it stays: the events of a node are only ever added to,
in the order in which they arrive, until a resolution renames the node. A resolution
hands the events of the raw-IP node to the resolved one, unless that one is already
there. So every event attached to a node was received about it, or about a raw-IP node
that has been renamed to it since.
-/

namespace Qubit

namespace Operation

/-- The resource event of an operation, and the node that it is about. -/
def k8sEvent? : Operation → Option (NodeId × K8sEvent)
  | .resourceEvent now resourceType name ns eventType resourceData =>
      some ({ applicationName := name, ns },
        { timestamp := now, resourceName := name, resourceType, eventType,
          eventData := resourceData })
  | _ => none

/-- The operation attempts to rename the node to another. -/
def RenamesAway (node : NodeId) (operation : Operation) : Prop :=
  ∃ rule ∈ operation.renaming?, rule.stale = node ∧ rule.resolved ≠ node

instance (node : NodeId) : DecidablePred (RenamesAway node) := fun operation =>
  inferInstanceAs (Decidable (∃ rule ∈ operation.renaming?, _))

end Operation

/-- The resource events about a node, as they arrive. -/
def eventsAbout (node : NodeId) (operations : List Operation) : List K8sEvent :=
  ((operations.filterMap Operation.k8sEvent?).filter fun event => event.1 = node).map Prod.snd

theorem eventsAbout_cons (node : NodeId) (first : Operation) (rest : List Operation) :
    eventsAbout node (first :: rest) = eventsAbout node [first] ++ eventsAbout node rest := by
  rw [← List.singleton_append]
  simp only [eventsAbout, List.filterMap_append, List.filter_append, List.map_append]

theorem eventsAbout_of_k8sEvent?_eq_none {node : NodeId} {operation : Operation}
    (none : operation.k8sEvent? = none) : eventsAbout node [operation] = [] := by
  simp [eventsAbout, none]

namespace NodeData

def log (events : List K8sEvent) (nodeData : NodeData) : NodeData :=
  { nodeData with k8sEvents := nodeData.k8sEvents ++ events }

theorem log_nil (nodeData : NodeData) : nodeData.log [] = nodeData := by
  simp [log]

theorem log_log (first second : List K8sEvent) (nodeData : NodeData) :
    (nodeData.log first).log second = nodeData.log (first ++ second) := by
  simp [log]

end NodeData

namespace Topology

theorem lookup_recordFlow {topology : Topology} {node : NodeId} {nodeData : NodeData}
    (found : topology.nodes.lookup node = some nodeData) (flow : Flow) (srcIp dstIp : String) :
    (topology.recordFlow flow srcIp dstIp).nodes.lookup node = some nodeData := by
  simp only [recordFlow, addFlow, addNode_eq, Finmap.lookup_insertNew]
  split
  · rename_i destination
    subst destination
    split
    · rename_i source
      rw [← source, found, Option.some_or, Option.some_or]
    · rw [found, Option.some_or]
  · split
    · rename_i source
      rw [← source, found, Option.some_or]
    · exact found

theorem lookup_resolveUnknownNode {topology : Topology} {node : NodeId} {nodeData : NodeData}
    (found : topology.nodes.lookup node = some nodeData) {ip applicationName ns : String}
    (stays : NodeId.unresolved ip = node → (⟨applicationName, ns⟩ : NodeId) = node) :
    (topology.resolveUnknownNode ip applicationName ns).nodes.lookup node = some nodeData := by
  by_cases present : NodeId.unresolved ip ∈ topology.nodes
  · by_cases same : (⟨applicationName, ns⟩ : NodeId) = NodeId.unresolved ip
    · rw [resolveUnknownNode_self topology same]
      exact found
    · have renamed := renamed_resolveUnknownNode present same
      by_cases resolved : node = ⟨applicationName, ns⟩
      · subst resolved
        rw [renamed.lookup_resolved, found, Option.some_or]
      · rw [renamed.lookup_other node resolved fun stale => resolved (stays stale.symm).symm]
        exact found
  · rw [resolveUnknownNode_of_notMem applicationName ns present]
    exact found

theorem lookup_addK8sEvent {topology : Topology} {node : NodeId} {nodeData : NodeData}
    (found : topology.nodes.lookup node = some nodeData) (target : NodeId) (event : K8sEvent) :
    (topology.addK8sEvent target event).nodes.lookup node =
      some (if target = node then nodeData.log [event] else nodeData) := by
  unfold addK8sEvent
  by_cases same : target = node
  · subst same
    rw [found, if_pos rfl]
    exact Finmap.lookup_insert _
  · rw [if_neg same]
    cases topology.nodes.lookup target with
    | none => exact found
    | some other =>
        rw [Finmap.lookup_insert_of_ne _ (Ne.symm same)]
        exact found

end Topology

namespace CoreState

/-- The step lemma: the data of a node only grows by the events about it. -/
theorem lookup_apply {state : CoreState} {node : NodeId} {nodeData : NodeData}
    (found : state.topology.nodes.lookup node = some nodeData) {operation : Operation}
    (stays : ¬operation.RenamesAway node) :
    (state.apply operation).topology.nodes.lookup node =
      some (nodeData.log (eventsAbout node [operation])) := by
  cases operation with
  | ebpfEvent input =>
      rw [eventsAbout_of_k8sEvent?_eq_none rfl, NodeData.log_nil, apply, recordEbpfEvent_fst]
      cases state.observed? input with
      | none => exact found
      | some src =>
          dsimp only
          split
          · exact found
          · exact Topology.lookup_recordFlow found _ _ _
  | podApplied podIp info =>
      rw [eventsAbout_of_k8sEvent?_eq_none rfl, NodeData.log_nil, topology_apply_podApplied]
      split
      · rename_i named
        apply Topology.lookup_resolveUnknownNode found
        intro stale
        by_contra away
        exact stays ⟨_, by rw [Operation.renaming?, if_pos named]; rfl, stale, away⟩
      · exact found
  | resourceEvent now resourceType name ns eventType resourceData =>
      rw [apply, recordK8sResourceEvent, Topology.lookup_addK8sEvent found]
      by_cases about : (⟨name, ns⟩ : NodeId) = node
      · simp [eventsAbout, Operation.k8sEvent?, about]
      · simp [eventsAbout, Operation.k8sEvent?, about, NodeData.log_nil]
  | podDeleted podIp =>
      rw [eventsAbout_of_k8sEvent?_eq_none rfl, NodeData.log_nil]
      exact found
  | serviceApplied name info =>
      rw [eventsAbout_of_k8sEvent?_eq_none rfl, NodeData.log_nil]
      exact found
  | serviceDeleted name ns =>
      rw [eventsAbout_of_k8sEvent?_eq_none rfl, NodeData.log_nil]
      exact found
  | envoyRoute domain serviceName ns =>
      rw [eventsAbout_of_k8sEvent?_eq_none rfl, NodeData.log_nil]
      exact found

/-- The run lemma. -/
theorem lookup_foldl_apply {state : CoreState} {node : NodeId} {nodeData : NodeData}
    (found : state.topology.nodes.lookup node = some nodeData) {operations : List Operation}
    (stays : ∀ operation ∈ operations, ¬operation.RenamesAway node) :
    (operations.foldl apply state).topology.nodes.lookup node =
      some (nodeData.log (eventsAbout node operations)) := by
  induction operations generalizing state nodeData with
  | nil => simpa [eventsAbout, NodeData.log_nil] using found
  | cons first rest ih =>
      rw [List.forall_mem_cons] at stays
      rw [List.foldl_cons, ih (lookup_apply found stays.1) stays.2, NodeData.log_log,
        ← eventsAbout_cons]

/--
The data of a node after further requests, none of which renames it: its IP is the one it was
created with, and the events received about it are behind those it had, in order.
-/
theorem nodeData_run (earlier later : List Request) (node : NodeId) (nodeData : NodeData)
    (found : (empty.run earlier).topology.nodes.lookup node = some nodeData)
    (stays : ∀ operation ∈ operationsOf later, ¬operation.RenamesAway node) :
    (empty.run (earlier ++ later)).topology.nodes.lookup node =
      some { ip := nodeData.ip
             k8sEvents := nodeData.k8sEvents ++ eventsAbout node (operationsOf later) } := by
  have reached : empty.run (earlier ++ later) =
      (operationsOf later).foldl apply (empty.run earlier) := by
    rw [← run_eq_foldl, run, run, run, List.foldl_append]
  rw [reached, lookup_foldl_apply found stays]
  rfl

/-- A service is called and gets a deployment event. -/
def calledService : List Request :=
  [.sendPodEvent ⟨"10.0.0.1", "default", 0, "web", "web", "ClusterIP"⟩,
    .sendEbpfNetworkEvent ⟨16777226, 33554442, "GET", "/", "api.prod.svc"⟩,
    .sendK8sResourceEvent 100 ⟨"Deployment", "api", "prod", 0, ""⟩]

/-- The service scales, and its pod is announced. -/
def scaledService : List Request :=
  [.sendPodEvent ⟨"10.0.0.2", "prod", 0, "api", "api", "ClusterIP"⟩,
    .sendK8sResourceEvent 160 ⟨"HPA", "api", "prod", 0, ""⟩]

theorem nodeData_run_scaledService :
    (empty.run (calledService ++ scaledService)).topology.nodes.lookup ⟨"api", "prod"⟩ =
      some { ip := "10.0.0.2"
             k8sEvents := [⟨100, "api", "Deployment", "Applied", ""⟩] ++
              eventsAbout ⟨"api", "prod"⟩ (operationsOf scaledService) } :=
  nodeData_run calledService scaledService ⟨"api", "prod"⟩
    ⟨"10.0.0.2", [⟨100, "api", "Deployment", "Applied", ""⟩]⟩ (by decide +kernel)
    (by decide +kernel)

/-! ## Where the events come from -/

/-- The node has the event in its data. -/
def HasEvent (state : CoreState) (attached : NodeId × K8sEvent) : Prop :=
  ∃ nodeData ∈ state.topology.nodes.lookup attached.1, attached.2 ∈ nodeData.k8sEvents

/-- What one operation does to the node that an event is attached to. -/
def carryEvent (operation : Operation) (attached : NodeId × K8sEvent) : NodeId × K8sEvent :=
  (operation.renaming?.elim attached.1 fun rule => rule.apply attached.1, attached.2)

theorem carried_carryEvent (operations : List Operation) (attached : NodeId × K8sEvent) :
    Run.carried carryEvent operations attached =
      (Renaming.applyAll (operations.filterMap Operation.renaming?) attached.1, attached.2) := by
  induction operations generalizing attached with
  | nil => rfl
  | cons first rest ih =>
      rw [Run.carried, List.foldl_cons, ← Run.carried, ih, carryEvent, List.filterMap_cons]
      cases first.renaming? with
      | none => rfl
      | some rule => rfl

end CoreState

namespace Topology

/-- A node that `add_node` creates has no events. -/
theorem lookup_of_addNode {topology : Topology} {added node : NodeId} {ip : String}
    {nodeData : NodeData} {event : K8sEvent}
    (found : (topology.addNode added { ip }).nodes.lookup node = some nodeData)
    (attached : event ∈ nodeData.k8sEvents) : topology.nodes.lookup node = some nodeData := by
  rw [addNode_eq, Finmap.lookup_insertNew] at found
  split at found
  · rename_i same
    subst same
    cases old : topology.nodes.lookup node with
    | none =>
        rw [old, Option.none_or, Option.some.injEq] at found
        subst found
        cases attached
    | some oldData => rwa [old, Option.some_or] at found
  · exact found

/-- The data of a node after a resolution is that of a node that is renamed to it. -/
theorem exists_lookup_of_resolveUnknownNode {topology : Topology}
    {ip applicationName ns : String} {node : NodeId} {nodeData : NodeData}
    (found : (topology.resolveUnknownNode ip applicationName ns).nodes.lookup node =
      some nodeData) :
    ∃ old, topology.nodes.lookup old = some nodeData ∧
      Function.update id (NodeId.unresolved ip) ⟨applicationName, ns⟩ old = node := by
  by_cases present : NodeId.unresolved ip ∈ topology.nodes
  · rcases resolveUnknownNode_of_mem applicationName ns present with ⟨staleData, stale, resolved⟩
    rw [resolved, Finmap.lookup_insertNew] at found
    by_cases same : node = ⟨applicationName, ns⟩
    · subst same
      rw [if_pos rfl] at found
      by_cases fresh : (⟨applicationName, ns⟩ : NodeId) = NodeId.unresolved ip
      · rw [fresh, Finmap.lookup_erase, Option.none_or] at found
        exact ⟨NodeId.unresolved ip, stale.trans found, by rw [fresh, Function.update_self]⟩
      · rw [Finmap.lookup_erase_ne fresh] at found
        cases old : topology.nodes.lookup ⟨applicationName, ns⟩ with
        | none =>
            rw [old, Option.none_or] at found
            exact ⟨NodeId.unresolved ip, stale.trans found, Function.update_self ..⟩
        | some oldData =>
            rw [old, Option.some_or] at found
            exact ⟨_, old.trans found, Function.update_of_ne fresh ..⟩
    · rw [if_neg same] at found
      by_cases gone : node = NodeId.unresolved ip
      · rw [gone, Finmap.lookup_erase] at found
        cases found
      · rw [Finmap.lookup_erase_ne gone] at found
        exact ⟨node, found, Function.update_of_ne gone ..⟩
  · rw [resolveUnknownNode_of_notMem applicationName ns present] at found
    refine ⟨node, found, Function.update_of_ne ?_ ..⟩
    rintro rfl
    exact present (Finmap.mem_of_lookup_eq_some found)

theorem exists_lookup_of_addK8sEvent {topology : Topology} {target node : NodeId}
    {event : K8sEvent} {nodeData : NodeData}
    (found : (topology.addK8sEvent target event).nodes.lookup node = some nodeData) :
    ∃ old, topology.nodes.lookup node = some old ∧
      nodeData = if target = node then old.log [event] else old := by
  cases before : topology.nodes.lookup node with
  | none =>
      have absent : node ∉ (topology.addK8sEvent target event).nodes := by
        rw [mem_nodes_addK8sEvent]
        exact Finmap.lookup_eq_none.mp before
      exact absurd (Finmap.mem_of_lookup_eq_some found) absent
  | some old =>
      rw [lookup_addK8sEvent before] at found
      exact ⟨old, rfl, (Option.some.inj found).symm⟩

end Topology

namespace CoreState

/-- The step lemma: an operation attaches the event it carries, or moves those there were. -/
theorem hasEvent_apply {state : CoreState} {operation : Operation} {attached : NodeId × K8sEvent}
    (present : (state.apply operation).HasEvent attached) :
    (∃ old, state.HasEvent old ∧ carryEvent operation old = attached) ∨
      attached ∈ operation.k8sEvent? := by
  rcases attached with ⟨node, event⟩
  rcases present with ⟨nodeData, found, eventMem⟩
  cases operation with
  | ebpfEvent input =>
      rw [apply, recordEbpfEvent_fst] at found
      refine Or.inl ⟨(node, event), ⟨nodeData, ?_, eventMem⟩, rfl⟩
      cases observed : state.observed? input with
      | none =>
          rw [observed] at found
          exact found
      | some src =>
          simp only [observed] at found
          split at found
          · exact found
          · exact Topology.lookup_of_addNode (Topology.lookup_of_addNode found eventMem) eventMem
  | podApplied podIp info =>
      left
      rw [topology_apply_podApplied] at found
      split at found
      · rename_i named
        rcases Topology.exists_lookup_of_resolveUnknownNode found with ⟨old, oldFound, renamed⟩
        refine ⟨(old, event), ⟨nodeData, oldFound, eventMem⟩, ?_⟩
        rw [carryEvent, Operation.renaming?, if_pos named]
        exact congrArg (·, event) renamed
      · rename_i unnamed
        refine ⟨(node, event), ⟨nodeData, found, eventMem⟩, ?_⟩
        rw [carryEvent, Operation.renaming?, if_neg unnamed]
        rfl
  | resourceEvent now resourceType name ns eventType resourceData =>
      rcases Topology.exists_lookup_of_addK8sEvent found with ⟨old, oldFound, rfl⟩
      split at eventMem
      · rename_i about
        rcases List.mem_append.mp eventMem with before | new
        · exact Or.inl ⟨(node, event), ⟨old, oldFound, before⟩, rfl⟩
        · have theEvent : event = _ := List.mem_singleton.mp new
          have theNode : _ = node := about
          rw [theEvent, ← theNode]
          exact Or.inr rfl
      · exact Or.inl ⟨(node, event), ⟨old, oldFound, eventMem⟩, rfl⟩
  | podDeleted podIp => exact Or.inl ⟨(node, event), ⟨nodeData, found, eventMem⟩, rfl⟩
  | serviceApplied name info => exact Or.inl ⟨(node, event), ⟨nodeData, found, eventMem⟩, rfl⟩
  | serviceDeleted name ns => exact Or.inl ⟨(node, event), ⟨nodeData, found, eventMem⟩, rfl⟩
  | envoyRoute domain serviceName ns =>
      exact Or.inl ⟨(node, event), ⟨nodeData, found, eventMem⟩, rfl⟩

/--
Every event attached to a node was received about it, or about a node that the announcements
since then have renamed to it.
-/
theorem event_provenance (requests : List Request) (node : NodeId) (nodeData : NodeData)
    (event : K8sEvent)
    (found : (empty.run requests).topology.nodes.lookup node = some nodeData)
    (attached : event ∈ nodeData.k8sEvents) :
    ∃ before operation after target,
      operationsOf requests = before ++ operation :: after ∧
        operation.k8sEvent? = some (target, event) ∧
          Renaming.applyAll (after.filterMap Operation.renaming?) target = node := by
  rw [run_eq_foldl] at found
  have hasEvent : HasEvent ((operationsOf requests).foldl apply empty) (node, event) :=
    ⟨nodeData, found, attached⟩
  rcases Run.of_stored apply (fun _ => True) HasEvent carryEvent
      (fun _ operation => operation.k8sEvent?) (fun _ _ _ => trivial)
      (fun _ _ _ _ present => hasEvent_apply present) trivial hasEvent with
    ⟨old, ⟨oldData, absent, -⟩, -⟩ |
      ⟨before, operation, after, split, ⟨target, received⟩, added, same⟩
  · cases absent
  · rw [carried_carryEvent, Prod.mk.injEq] at same
    rcases same with ⟨renamed, rfl⟩
    exact ⟨before, operation, after, target, split, added, renamed⟩

theorem event_provenance_calledService :
    ∃ before operation after target,
      operationsOf calledService = before ++ operation :: after ∧
        operation.k8sEvent? = some (target, ⟨100, "api", "Deployment", "Applied", ""⟩) ∧
          Renaming.applyAll (after.filterMap Operation.renaming?) target = ⟨"api", "prod"⟩ :=
  have found : (empty.run calledService).topology.nodes.lookup ⟨"api", "prod"⟩ =
      some ⟨"10.0.0.2", [⟨100, "api", "Deployment", "Applied", ""⟩]⟩ := by
    decide +kernel
  event_provenance calledService _ _ _ found List.mem_cons_self

end CoreState

end Qubit
