import Qubit.Core.PodMap
import Qubit.Lib.Run

/-!
# Healed nodes and the pod cache

After a pod map the graph should name a pod as the pod cache does. The first
announcement of an IP renames the raw-IP node and the last one stays in the cache,
so the two agree exactly when the first and the last announcement of the IP name
the same node.
-/

namespace Qubit

/-- What the request announces about an IP. -/
def ServicePodMapRequest.infosFor (req : ServicePodMapRequest) (ip : String) : List PodInfo :=
  (req.pairs.filter fun pair => pair.1 = ip).map Prod.snd

namespace CoreState

/-- What an operation makes of a stored flow: a resolution that finds its node rewires the flow. -/
def rewritten (state : CoreState) (flow : Flow) : Operation → Flow
  | .podApplied podIp info =>
      if info.applicationName ≠ "" ∧ NodeId.unresolved podIp ∈ state.topology.nodes then
        flow.rewire (NodeId.unresolved podIp) info.node
      else flow
  | _ => flow

/-- What a request makes of a flow that was stored before it. -/
def follow (state : CoreState) (request : Request) (flow : Flow) : Flow :=
  Run.book apply rewritten state flow request.operations

/-- Every flow that referred to the raw-IP node is still stored, and refers to `node` instead. -/
def HealedAs (state : CoreState) (request : Request) (ip : String) (node : NodeId) : Prop :=
  ∀ flow, state.topology.Stores flow →
    (state.run [request]).topology.Stores (state.follow request flow) ∧
      (flow.sourceNode = NodeId.unresolved ip →
        (state.follow request flow).sourceNode = node) ∧
      (flow.destinationNode = NodeId.unresolved ip →
        (state.follow request flow).destinationNode = node)

theorem book_rewritten_eq {state : CoreState} {calls : CallGraph}
    (represents : state.topology.Represents calls) {flow : Flow} (stored : flow ∈ calls)
    (pairs : List (String × PodInfo)) :
    Run.book apply rewritten state flow
        (pairs.map fun pair => .podApplied pair.1 pair.2) =
      flow.renameAll (renamingsOf pairs) := by
  induction pairs generalizing state calls flow with
  | nil => rfl
  | cons pair rest ih =>
      have announced := represents_apply represents (.podApplied pair.1 pair.2)
      simp only [observeOperation] at announced
      rw [List.map_cons, Run.book, renamingsOf_cons, rewritten]
      by_cases named : pair.2.applicationName ≠ ""
      · rw [if_pos named] at announced
        have rewired : (if pair.2.applicationName ≠ "" ∧
            NodeId.unresolved pair.1 ∈ state.topology.nodes then
              flow.rewire (NodeId.unresolved pair.1) pair.2.node else flow) =
            flow.rewire (NodeId.unresolved pair.1) pair.2.node := by
          split
          · rfl
          · rename_i unresolvable
            have absent : ¬calls.IsNode (NodeId.unresolved pair.1) := fun isNode =>
              unresolvable ⟨named, (represents.mem_nodes _).mpr isNode⟩
            symm
            apply Flow.rewire_of_ne
            · intro source
              exact absent ⟨flow, stored, Or.inl source.symm⟩
            · intro destination
              exact absent ⟨flow, stored, Or.inr destination.symm⟩
        rw [rewired, if_pos named, Flow.renameAll_cons]
        exact ih announced (Multiset.mem_map_of_mem _ stored)
      · rw [if_neg named] at announced
        rw [if_neg named, if_neg fun both => named both.1]
        exact ih announced stored

theorem follow_sendServicePodMap {state : CoreState} {calls : CallGraph}
    (represents : state.topology.Represents calls) {flow : Flow} (stored : flow ∈ calls)
    (req : ServicePodMapRequest) :
    state.follow (.sendServicePodMap req) flow = flow.renameAll (renamingsOf req.pairs) := by
  have operations : (Request.sendServicePodMap req).operations =
      req.pairs.map fun pair => .podApplied pair.1 pair.2 := by
    simp [Request.operations, ServicePodMapRequest.pairs, List.map_flatMap, List.map_map,
      Function.comp_def]
  rw [follow, operations]
  exact book_rewritten_eq represents stored req.pairs

theorem first?_renamingsOf {pairs : List (String × PodInfo)}
    (named : ∀ pair ∈ pairs, pair.2.applicationName ≠ "") (ip : String) :
    (Renaming.first? (NodeId.unresolved ip) (renamingsOf pairs)).map Renaming.resolved =
      ((pairs.filter fun pair => pair.1 = ip).map Prod.snd).head?.map PodInfo.node := by
  induction pairs with
  | nil => rfl
  | cons pair rest ih =>
      rw [renamingsOf_cons, if_pos (named pair List.mem_cons_self), Renaming.first?,
        List.find?_cons]
      by_cases same : pair.1 = ip
      · simp [same]
      · have ne : NodeId.unresolved pair.1 ≠ NodeId.unresolved ip := fun equal =>
          same (NodeId.unresolved_injective equal)
        rw [List.filter_cons_of_neg (by simpa using same), decide_eq_false ne]
        exact ih fun other otherMem => named other (List.mem_cons_of_mem _ otherMem)

theorem exists_first_last_infosFor {req : ServicePodMapRequest} {ip : String}
    (ipMem : ip ∈ req.podIps) :
    ∃ first last, (req.infosFor ip).head? = some first ∧
      (req.infosFor ip).getLast? = some last := by
  rcases List.mem_flatMap.mp ipMem with ⟨entry, entryMem, carried⟩
  have announced : entry.podInfo ∈ req.infosFor ip := by
    refine List.mem_map.mpr ⟨(ip, entry.podInfo), List.mem_filter.mpr ⟨?_, by simp⟩, rfl⟩
    exact ServicePodMapRequest.mem_pairs.mpr ⟨entry, entryMem, carried, rfl⟩
  have nonempty := List.ne_nil_of_mem announced
  exact ⟨_, _, List.head?_eq_some_head nonempty, List.getLast?_eq_some_getLast nonempty⟩

theorem lookup_sendServicePodMap (state : CoreState) (req : ServicePodMapRequest) (ip : String) :
    (state.run [.sendServicePodMap req]).podCache.lookup ip =
      (req.infosFor ip).getLast?.or (state.podCache.lookup ip) := by
  rw [run_sendServicePodMap, podCache_announceAll, KeyedWrite.lookup_replay, KeyedWrite.last,
    List.filter_map, List.getLast?_map, ServicePodMapRequest.infosFor, List.getLast?_map]
  simp only [Function.comp_def, Option.map_map]
  cases (req.pairs.filter fun pair => pair.1 = ip).getLast? with
  | none => rfl
  | some pair => rfl

/-- The raw-IP node becomes the node that the first announcement of the IP names. -/
theorem applyAll_unresolved {req : ServicePodMapRequest}
    (named : ∀ entry ∈ req.entries, entry.applicationName ≠ "")
    (known : ∀ entry ∈ req.entries, entry.ns ≠ "unknown") {ip : String} {first : PodInfo}
    (isFirst : (req.infosFor ip).head? = some first) :
    Renaming.applyAll (renamingsOf req.pairs) (NodeId.unresolved ip) = first.node := by
  have settled : Renaming.Settled (renamingsOf req.pairs) := by
    apply ServicePodMapRequest.Settled.renamings
    intro entry entryMem ip _ same
    exact known entry entryMem (congrArg NodeId.ns same)
  have pairsNamed : ∀ pair ∈ req.pairs, pair.2.applicationName ≠ "" := by
    intro pair pairMem
    rcases ServicePodMapRequest.mem_pairs.mp pairMem with ⟨entry, entryMem, -, info⟩
    rw [info]
    exact named entry entryMem
  rw [Renaming.applyAll_eq_of_settled settled, first?_renamingsOf pairsNamed,
    ← ServicePodMapRequest.infosFor, isFirst]
  rfl

/-- A raw-IP node that exists is healed as the one node that the renamings make of it. -/
theorem healedAs_sendServicePodMap_iff {state : CoreState} {calls : CallGraph}
    (represents : state.topology.Represents calls) {req : ServicePodMapRequest} {ip : String}
    (stale : NodeId.unresolved ip ∈ state.topology.nodes) {resolved : NodeId}
    (healed : Renaming.applyAll (renamingsOf req.pairs) (NodeId.unresolved ip) = resolved)
    (node : NodeId) :
    state.HealedAs (.sendServicePodMap req) ip node ↔ resolved = node := by
  constructor
  · intro healedAs
    rcases (represents.mem_nodes _).mp stale with ⟨flow, flowMem, source | destination⟩
    · have follows := (healedAs flow (represents.stores_iff.mpr flowMem)).2.1 source.symm
      rw [follow_sendServicePodMap represents flowMem, Flow.renameAll, ← source, healed] at follows
      exact follows
    · have follows := (healedAs flow (represents.stores_iff.mpr flowMem)).2.2 destination.symm
      rw [follow_sendServicePodMap represents flowMem, Flow.renameAll, ← destination, healed]
        at follows
      exact follows
  · rintro rfl flow stored
    have after := represents_announceAll represents req.pairs
    rw [← run_sendServicePodMap] at after
    have flowMem := represents.stores_iff.mp stored
    rw [follow_sendServicePodMap represents flowMem, after.stores_iff]
    refine ⟨Multiset.mem_map_of_mem _ flowMem, ?_, ?_⟩
    · intro source
      rw [Flow.renameAll, source, healed]
    · intro destination
      rw [Flow.renameAll, destination, healed]

/--
After a request every flow of a raw-IP node refers to the node that the pod cache has for the IP,
exactly when the first and the last announcement of the IP name the same node.
-/
theorem healedAs_cached_iff (requests : List Request) (req : ServicePodMapRequest)
    (named : ∀ entry ∈ req.entries, entry.applicationName ≠ "")
    (known : ∀ entry ∈ req.entries, entry.ns ≠ "unknown") :
    (∀ ip ∈ req.podIps, NodeId.unresolved ip ∈ (empty.run requests).topology.nodes →
        ∃ info, ((empty.run requests).run [.sendServicePodMap req]).podCache.lookup ip =
            some info ∧
          (empty.run requests).HealedAs (.sendServicePodMap req) ip info.node) ↔
      ∀ ip ∈ req.podIps, NodeId.unresolved ip ∈ (empty.run requests).topology.nodes →
        (req.infosFor ip).head?.map PodInfo.node = (req.infosFor ip).getLast?.map PodInfo.node := by
  rcases isView_run requests with ⟨calls, represents⟩
  refine forall_congr' fun ip => forall_congr' fun ipMem => forall_congr' fun stale => ?_
  rcases exists_first_last_infosFor ipMem with ⟨first, last, isFirst, isLast⟩
  rw [lookup_sendServicePodMap, isFirst, isLast, Option.some_or, Option.map_some,
    Option.map_some, Option.some.injEq]
  have healed := applyAll_unresolved named known isFirst
  simp only [healedAs_sendServicePodMap_iff represents stale healed, Option.some.injEq,
    exists_eq_left']

/-- Two services select the pod that was called by its raw IP. -/
def sharedPod : ServicePodMapRequest :=
  ⟨[⟨"api", "default", "ClusterIP", ["10.0.0.2"], "api"⟩,
    ⟨"api-canary", "default", "ClusterIP", ["10.0.0.2"], "api-canary"⟩]⟩

theorem healedAs_cached_bothPods_iff :
    (∀ ip ∈ bothPods.podIps, NodeId.unresolved ip ∈ (empty.run callsByIp).topology.nodes →
        ∃ info, ((empty.run callsByIp).run [.sendServicePodMap bothPods]).podCache.lookup ip =
            some info ∧
          (empty.run callsByIp).HealedAs (.sendServicePodMap bothPods) ip info.node) ↔
      ∀ ip ∈ bothPods.podIps, NodeId.unresolved ip ∈ (empty.run callsByIp).topology.nodes →
        (bothPods.infosFor ip).head?.map PodInfo.node =
          (bothPods.infosFor ip).getLast?.map PodInfo.node :=
  healedAs_cached_iff callsByIp bothPods (by decide +kernel) (by decide +kernel)

theorem exists_healed_apart :
    ¬∀ (requests : List Request) (req : ServicePodMapRequest),
      (∀ entry ∈ req.entries, entry.applicationName ≠ "") →
        (∀ entry ∈ req.entries, entry.ns ≠ "unknown") →
          ∀ ip ∈ req.podIps, NodeId.unresolved ip ∈ (empty.run requests).topology.nodes →
            ∃ info, ((empty.run requests).run [.sendServicePodMap req]).podCache.lookup ip =
                some info ∧
              (empty.run requests).HealedAs (.sendServicePodMap req) ip info.node := by
  intro healed
  rcases healed callsByIp sharedPod (by decide +kernel) (by decide +kernel) "10.0.0.2"
    (by decide +kernel) (by decide +kernel) with ⟨info, cached, healedAs⟩
  have isCanary : some info = some ⟨"default", "api-canary", "api-canary", "ClusterIP"⟩ := by
    rw [← cached]
    decide +kernel
  have refers := (healedAs ⟨⟨"web", "default"⟩, ⟨"10.0.0.2", "unknown"⟩, "/", "GET"⟩
    (Or.inr ⟨⟨"web", "default"⟩, by decide +kernel⟩)).2.2 (by decide +kernel)
  rw [Option.some.inj isCanary] at refers
  revert refers
  decide +kernel

end CoreState

end Qubit
