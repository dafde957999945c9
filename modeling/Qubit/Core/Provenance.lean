import Qubit.Core.Server

/-!
# Where the nodes of the graph come from

Every flow of the graph leaves a node that was announced as a pod, and goes to one
that was announced, or is the target of an Envoy route, or was guessed from the
host name of an event. The caches only repeat what was received, and a resolution
only puts an announced node in the place of another, so this holds in every
reachable state. A source IP alone names no node.
-/

namespace Qubit

/-- The node that `parse_k8s_host` makes of the host of an event. -/
def EbpfNetworkEventInput.guess (input : EbpfNetworkEventInput) : NodeId where
  applicationName := (parseK8sHost input.bareHost).1
  ns := (parseK8sHost input.bareHost).2

namespace Request

/-- The request announces a named pod under the node. -/
def AnnouncesNode (node : NodeId) : Request → Prop
  | .sendPodEvent req =>
      K8sEventType.tryFrom req.eventType = some .applied ∧ req.applicationName ≠ "" ∧
        node = ⟨req.applicationName, req.ns⟩
  | .sendServicePodMap req =>
      ∃ entry ∈ req.entries, entry.podIps ≠ [] ∧ entry.applicationName ≠ "" ∧
        node = ⟨entry.applicationName, entry.ns⟩
  | _ => False

/-- The request has an Envoy route to the node. -/
def RoutesTo (node : NodeId) : Request → Prop
  | .sendEnvoyRoutes req => ∃ entry ∈ req.entries, node = ⟨entry.serviceName, entry.ns⟩
  | _ => False

/-- The request is an event whose host is read as the node. -/
def Guesses (node : NodeId) : Request → Prop
  | .sendEbpfNetworkEvent input => node = input.guess
  | _ => False

end Request

/-- An earlier request announced the node. -/
def Announced (requests : List Request) (node : NodeId) : Prop :=
  ∃ request ∈ requests, request.AnnouncesNode node

/-- An earlier request announced the node, routed to it, or had a host that is read as it. -/
def Introduced (requests : List Request) (node : NodeId) : Prop :=
  ∃ request ∈ requests, request.AnnouncesNode node ∨ request.RoutesTo node ∨ request.Guesses node

/-! ## Provenance along operations -/

namespace Operation

def AnnouncesNode (node : NodeId) : Operation → Prop
  | .podApplied _ info => info.applicationName ≠ "" ∧ node = info.node
  | _ => False

def RoutesTo (node : NodeId) : Operation → Prop
  | .envoyRoute _ serviceName ns => node = ⟨serviceName, ns⟩
  | _ => False

def Guesses (node : NodeId) : Operation → Prop
  | .ebpfEvent input => node = input.guess
  | _ => False

def Introduces (node : NodeId) (operation : Operation) : Prop :=
  operation.AnnouncesNode node ∨ operation.RoutesTo node ∨ operation.Guesses node

end Operation

namespace CoreState

theorem mem_of_podCache_lookup {operations : List Operation} {ip : String} {info : PodInfo}
    (cached : (operations.foldl apply empty).podCache.lookup ip = some info) :
    .podApplied ip info ∈ operations := by
  rw [podCache_foldl_apply] at cached
  have written := KeyedWrite.mem_of_lookup_replay cached
  rcases List.mem_filterMap.mp written with ⟨operation, member, write⟩
  cases operation with
  | podApplied podIp applied =>
      simp only [Operation.podWrite?, Option.some.injEq, KeyedWrite.mk.injEq] at write
      rcases write with ⟨rfl, rfl⟩
      exact member
  | podDeleted podIp => simp [Operation.podWrite?] at write
  | ebpfEvent input => cases write
  | serviceApplied name info => cases write
  | serviceDeleted name ns => cases write
  | resourceEvent now resourceType name ns eventType resourceData => cases write
  | envoyRoute domain serviceName ns => cases write

theorem mem_of_envoyCache_lookup {operations : List Operation} {domain : String}
    {target : String × String}
    (cached : (operations.foldl apply empty).envoyCache.lookup domain = some target) :
    .envoyRoute domain target.1 target.2 ∈ operations := by
  rw [envoyCache_foldl_apply] at cached
  have written := KeyedWrite.mem_of_lookup_replay cached
  rcases List.mem_filterMap.mp written with ⟨operation, member, write⟩
  cases operation with
  | envoyRoute routed serviceName ns =>
      simp only [Operation.routeWrite?, Option.some.injEq, KeyedWrite.mk.injEq] at write
      rcases write with ⟨rfl, rfl⟩
      exact member
  | ebpfEvent input => cases write
  | podApplied podIp info => cases write
  | podDeleted podIp => cases write
  | serviceApplied name info => cases write
  | serviceDeleted name ns => cases write
  | resourceEvent now resourceType name ns eventType resourceData => cases write

/-- The sources of the calls were announced, and their destinations introduced. -/
def Traced (operations : List Operation) (calls : CallGraph) : Prop :=
  ∀ flow ∈ calls,
    (∃ operation ∈ operations, operation.AnnouncesNode flow.sourceNode) ∧
      ∃ operation ∈ operations, operation.Introduces flow.destinationNode

theorem exists_announces_source {operations : List Operation} {input : EbpfNetworkEventInput}
    {src : PodInfo} (observed : (operations.foldl apply empty).observed? input = some src) :
    ∃ operation ∈ operations, operation.AnnouncesNode src.node := by
  rcases observed?_eq_some.mp observed with ⟨-, cached, named⟩
  exact ⟨_, mem_of_podCache_lookup cached, named, rfl⟩

/-- Each of the three ways in which a destination is resolved introduces it. -/
theorem exists_introduces_destination (operations : List Operation)
    (input : EbpfNetworkEventInput) :
    ∃ operation ∈ operations ++ [.ebpfEvent input],
      operation.Introduces ((operations.foldl apply empty).destination input) := by
  unfold destination
  cases route : (operations.foldl apply empty).envoyCache.lookup input.bareHost with
  | some target =>
      exact ⟨_, List.mem_append_left _ (mem_of_envoyCache_lookup route), Or.inr (Or.inl rfl)⟩
  | none =>
      dsimp only [Option.getD_none]
      unfold destinationFromPod
      cases pod : ((operations.foldl apply empty).podCache.lookup input.dstIpStr).filter
          PodInfo.isNamed with
      | some info =>
          rcases Option.filter_eq_some_iff.mp pod with ⟨cached, named⟩
          refine ⟨_, List.mem_append_left _ (mem_of_podCache_lookup cached), Or.inl ⟨?_, rfl⟩⟩
          simpa [PodInfo.isNamed] using named
      | none =>
          exact ⟨_, List.mem_append_right _ List.mem_cons_self, Or.inr (Or.inr rfl)⟩

theorem Traced.concat {operations : List Operation} {calls : CallGraph}
    (traced : Traced operations calls) (operation : Operation) :
    Traced (operations ++ [operation]) calls := by
  intro flow flowMem
  rcases traced flow flowMem with ⟨⟨first, firstMem, announces⟩, second, secondMem, introduces⟩
  exact ⟨⟨first, List.mem_append_left _ firstMem, announces⟩,
    second, List.mem_append_left _ secondMem, introduces⟩

/-- Renaming to a node that is announced keeps the calls traced. -/
theorem Traced.rename {operations : List Operation} {calls : CallGraph}
    (traced : Traced operations calls) {stale resolved : NodeId} {operation : Operation}
    (member : operation ∈ operations) (announces : operation.AnnouncesNode resolved) :
    Traced operations (calls.rename stale resolved) := by
  intro renamed renamedMem
  rcases Multiset.mem_map.mp renamedMem with ⟨flow, flowMem, rfl⟩
  unfold Flow.rewire
  constructor
  · dsimp only
    split
    · exact ⟨operation, member, announces⟩
    · exact (traced flow flowMem).1
  · dsimp only
    split
    · exact ⟨operation, member, Or.inl announces⟩
    · exact (traced flow flowMem).2

/-- The step lemma: an operation only adds a traced call, or renames to an announced node. -/
theorem Traced.apply {operations : List Operation} {calls : CallGraph}
    (traced : Traced operations calls) (operation : Operation) :
    Traced (operations ++ [operation])
      ((operations.foldl apply empty).observeOperation calls operation) := by
  have unchanged := traced.concat operation
  cases operation with
  | ebpfEvent input =>
      cases observed : (operations.foldl CoreState.apply empty).observed? input with
      | none =>
          simp only [observeOperation, observed]
          exact unchanged
      | some src =>
          simp only [observeOperation, observed]
          split
          · exact unchanged
          · intro flow flowMem
            rcases Multiset.mem_ndinsert.mp flowMem with rfl | old
            · rcases exists_announces_source observed with ⟨earlier, earlierMem, announces⟩
              exact ⟨⟨earlier, List.mem_append_left _ earlierMem, announces⟩,
                exists_introduces_destination operations input⟩
            · exact unchanged flow old
  | podApplied podIp info =>
      simp only [observeOperation]
      split
      · rename_i named
        have announces : (Operation.podApplied podIp info).AnnouncesNode info.node := ⟨named, rfl⟩
        exact unchanged.rename (List.mem_append_right _ List.mem_cons_self) announces
      · exact unchanged
  | podDeleted podIp => exact unchanged
  | serviceApplied name info => exact unchanged
  | serviceDeleted name ns => exact unchanged
  | resourceEvent now resourceType name ns eventType resourceData => exact unchanged
  | envoyRoute domain serviceName ns => exact unchanged

/-- The run lemma: after any operations the topology is a view of traced calls. -/
theorem exists_traced (operations : List Operation) :
    ∃ calls, (operations.foldl apply empty).topology.Represents calls ∧
      Traced operations calls := by
  induction operations using List.reverseRecOn with
  | nil => exact ⟨0, Topology.represents_new, fun _ flowMem => absurd flowMem (by simp)⟩
  | append_singleton operations operation ih =>
      rcases ih with ⟨calls, represents, traced⟩
      rw [List.foldl_append, List.foldl_cons, List.foldl_nil]
      exact ⟨_, represents_apply represents operation, traced.apply operation⟩

end CoreState

/-! ## Provenance along requests -/

namespace Request

theorem announcesNode_of_operation {request : Request} {operation : Operation} {node : NodeId}
    (member : operation ∈ request.operations) (announces : operation.AnnouncesNode node) :
    request.AnnouncesNode node := by
  cases operation with
  | podApplied podIp info =>
      rcases announces with ⟨named, rfl⟩
      rcases mem_operations_iff.mp member with
        ⟨req, rfl, applied, -, rfl⟩ | ⟨req, rfl, entry, entryMem, carried, rfl⟩
      · exact ⟨applied, named, rfl⟩
      · exact ⟨entry, entryMem, List.ne_nil_of_mem carried, named, rfl⟩
  | _ => exact announces.elim

theorem introduces_of_operation {request : Request} {operation : Operation} {node : NodeId}
    (member : operation ∈ request.operations) (introduces : operation.Introduces node) :
    request.AnnouncesNode node ∨ request.RoutesTo node ∨ request.Guesses node := by
  rcases introduces with announces | routesTo | guesses
  · exact Or.inl (announcesNode_of_operation member announces)
  · cases operation with
    | envoyRoute domain serviceName ns =>
        rcases mem_operations_iff.mp member with ⟨req, rfl, entryMem⟩
        exact Or.inr (Or.inl ⟨_, entryMem, routesTo⟩)
    | _ => exact routesTo.elim
  · cases operation with
    | ebpfEvent input =>
        rw [mem_operations_iff.mp member]
        exact Or.inr (Or.inr guesses)
    | _ => exact guesses.elim

end Request

theorem announced_of_operations {requests : List Request} {node : NodeId}
    (announces : ∃ operation ∈ operationsOf requests, operation.AnnouncesNode node) :
    Announced requests node := by
  rcases announces with ⟨operation, member, announces⟩
  rcases List.mem_flatMap.mp member with ⟨request, requestMem, performed⟩
  exact ⟨request, requestMem, Request.announcesNode_of_operation performed announces⟩

theorem introduced_of_operations {requests : List Request} {node : NodeId}
    (introduces : ∃ operation ∈ operationsOf requests, operation.Introduces node) :
    Introduced requests node := by
  rcases introduces with ⟨operation, member, introduces⟩
  rcases List.mem_flatMap.mp member with ⟨request, requestMem, performed⟩
  exact ⟨request, requestMem, Request.introduces_of_operation performed introduces⟩

/--
After any requests, the source of every flow was announced and its destination introduced, and so
every node was introduced.
-/
theorem CoreState.provenance_run (requests : List Request) :
    (∀ flow, (empty.run requests).topology.Stores flow →
      Announced requests flow.sourceNode ∧ Introduced requests flow.destinationNode) ∧
    ∀ node ∈ (empty.run requests).topology.nodes, Introduced requests node := by
  rw [run_eq_foldl]
  rcases exists_traced (operationsOf requests) with ⟨calls, represents, traced⟩
  constructor
  · intro flow stored
    have flowTraced := traced flow (represents.stores_iff.mp stored)
    exact ⟨announced_of_operations flowTraced.1, introduced_of_operations flowTraced.2⟩
  · intro node nodeMem
    rcases (represents.mem_nodes node).mp nodeMem with ⟨flow, flowMem, rfl | rfl⟩
    · rcases (traced flow flowMem).1 with ⟨operation, member, announces⟩
      exact introduced_of_operations ⟨operation, member, Or.inl announces⟩
    · exact introduced_of_operations (traced flow flowMem).2

end Qubit
