import Qubit.Core.Server
import Qubit.Lib.Renaming

/-!
# Resyncs of the pod map

`SendServicePodMap` announces many pods at once, one after another in the order of
its entries, and the agent repeats it every thirty seconds. On the pod cache the
last announcement of an IP counts. On the graph it is the first one: it renames the
node that was created with the raw IP, and a later announcement of the IP finds no
such node any more.

As long as no announcement introduces a raw-IP node of the request, the renamings
are one substitution on the graph. So the request can be repeated without effect,
and its announcements can be reordered when their IPs are different.
-/

namespace Qubit

/-- The announcements of the request, as they are processed. -/
def ServicePodMapRequest.pairs (req : ServicePodMapRequest) : List (String × PodInfo) :=
  req.entries.flatMap fun entry => entry.podIps.map fun podIp => (podIp, entry.podInfo)

def ServicePodMapRequest.podIps (req : ServicePodMapRequest) : List String :=
  req.entries.flatMap ServicePodEntry.podIps

/-- The resolutions that announcements attempt; an unnamed pod resolves nothing. -/
def renamingsOf (pairs : List (String × PodInfo)) : List (Renaming NodeId) :=
  (pairs.filter fun pair => pair.2.isNamed).map fun pair =>
    { stale := NodeId.unresolved pair.1, resolved := pair.2.node }

def Flow.renameAll (rules : List (Renaming NodeId)) (flow : Flow) : Flow where
  sourceNode := Renaming.applyAll rules flow.sourceNode
  destinationNode := Renaming.applyAll rules flow.destinationNode
  path := flow.path
  method := flow.method

def CallGraph.renameAll (rules : List (Renaming NodeId)) (calls : CallGraph) : CallGraph :=
  calls.map (Flow.renameAll rules)

def CoreState.announceAll (state : CoreState) (pairs : List (String × PodInfo)) : CoreState :=
  pairs.foldl (fun state pair => state.apply (.podApplied pair.1 pair.2)) state

/-! ## Announcements as renamings -/

theorem Flow.renameAll_nil (flow : Flow) : flow.renameAll [] = flow :=
  rfl

theorem Flow.renameAll_cons (rule : Renaming NodeId) (rest : List (Renaming NodeId))
    (flow : Flow) :
    flow.renameAll (rule :: rest) = (flow.rewire rule.stale rule.resolved).renameAll rest := by
  simp [renameAll, sourceNode_rewire, destinationNode_rewire, Renaming.apply]
  simp [rewire]

theorem renamingsOf_cons (pair : String × PodInfo) (rest : List (String × PodInfo)) :
    renamingsOf (pair :: rest) =
      if pair.2.applicationName ≠ "" then
        { stale := NodeId.unresolved pair.1, resolved := pair.2.node } :: renamingsOf rest
      else renamingsOf rest := by
  by_cases named : pair.2.applicationName = ""
  · simp [renamingsOf, PodInfo.isNamed, named]
  · simp [renamingsOf, PodInfo.isNamed, named]

theorem mem_renamingsOf {pairs : List (String × PodInfo)} {rule : Renaming NodeId} :
    rule ∈ renamingsOf pairs ↔ ∃ pair ∈ pairs, pair.2.applicationName ≠ "" ∧
      rule = { stale := NodeId.unresolved pair.1, resolved := pair.2.node } := by
  simp only [renamingsOf, List.mem_map, List.mem_filter, PodInfo.isNamed, decide_eq_true_eq,
    and_assoc, eq_comm (a := rule)]

namespace CallGraph

theorem renameAll_nil (calls : CallGraph) : calls.renameAll [] = calls :=
  Multiset.map_id' calls

theorem renameAll_cons (rule : Renaming NodeId) (rest : List (Renaming NodeId))
    (calls : CallGraph) :
    calls.renameAll (rule :: rest) = (calls.rename rule.stale rule.resolved).renameAll rest := by
  rw [renameAll, renameAll, rename, Multiset.map_map]
  exact Multiset.map_congr rfl fun flow _ => Flow.renameAll_cons rule rest flow

end CallGraph

namespace CoreState

theorem run_sendServicePodMap (state : CoreState) (req : ServicePodMapRequest) :
    state.run [.sendServicePodMap req] = state.announceAll req.pairs := by
  rw [run_eq_foldl, operationsOf, List.flatMap_singleton, announceAll,
    ServicePodMapRequest.pairs, Request.operations, List.foldl_flatMap, List.foldl_flatMap]
  simp only [List.foldl_map]

theorem announceAll_cons (state : CoreState) (pair : String × PodInfo)
    (rest : List (String × PodInfo)) :
    state.announceAll (pair :: rest) =
      (state.apply (.podApplied pair.1 pair.2)).announceAll rest :=
  rfl

theorem represents_announceAll {state : CoreState} {calls : CallGraph}
    (represents : state.topology.Represents calls) (pairs : List (String × PodInfo)) :
    (state.announceAll pairs).topology.Represents (calls.renameAll (renamingsOf pairs)) := by
  induction pairs generalizing state calls with
  | nil =>
      rw [renamingsOf, List.filter_nil, List.map_nil, CallGraph.renameAll_nil]
      exact represents
  | cons pair rest ih =>
      have announced := ih (represents_apply represents (.podApplied pair.1 pair.2))
      rw [announceAll_cons, renamingsOf_cons]
      simp only [observeOperation] at announced
      split
      · rename_i named
        rw [if_pos named] at announced
        rw [CallGraph.renameAll_cons]
        exact announced
      · rename_i unnamed
        rw [if_neg unnamed] at announced
        exact announced

theorem podCache_announceAll (state : CoreState) (pairs : List (String × PodInfo)) :
    (state.announceAll pairs).podCache =
      KeyedWrite.replay state.podCache
        (pairs.map fun pair => { key := pair.1, value := some pair.2 }) := by
  have operations : state.announceAll pairs =
      (pairs.map fun pair => Operation.podApplied pair.1 pair.2).foldl apply state := by
    rw [announceAll, List.foldl_map]
  rw [operations, podCache_foldl_apply, List.filterMap_map]
  exact congrArg _ (congrFun List.filterMap_eq_map' pairs)

end CoreState

/-! ## Repeating and reordering -/

/-- No entry announces a node that is the raw-IP node of an IP of the request. -/
def ServicePodMapRequest.Settled (req : ServicePodMapRequest) : Prop :=
  ∀ entry ∈ req.entries, ∀ ip ∈ req.podIps, entry.podInfo.node ≠ NodeId.unresolved ip

instance (req : ServicePodMapRequest) : Decidable req.Settled :=
  inferInstanceAs (Decidable (∀ _ ∈ _, ∀ _ ∈ _, _))

/-- The same nodes, and at every node the same flows, each as often. -/
def Topology.SameUpToOrder (left right : Topology) : Prop :=
  (∀ node, node ∈ left.nodes ↔ node ∈ right.nodes) ∧ ∀ node,
    (left.upstream.row node).Perm (right.upstream.row node) ∧
      (left.downstream.row node).Perm (right.downstream.row node)

theorem NodeId.unresolved_injective : Function.Injective NodeId.unresolved := by
  intro left right same
  exact congrArg NodeId.applicationName same

theorem ServicePodMapRequest.mem_pairs {req : ServicePodMapRequest} {pair : String × PodInfo} :
    pair ∈ req.pairs ↔
      ∃ entry ∈ req.entries, pair.1 ∈ entry.podIps ∧ pair.2 = entry.podInfo := by
  simp only [pairs, List.mem_flatMap, List.mem_map]
  constructor
  · rintro ⟨entry, entryMem, ip, ipMem, rfl⟩
    exact ⟨entry, entryMem, ipMem, rfl⟩
  · rintro ⟨entry, entryMem, ipMem, info⟩
    exact ⟨entry, entryMem, pair.1, ipMem, by rw [← info]⟩

theorem ServicePodMapRequest.Settled.renamings {req : ServicePodMapRequest}
    (settled : req.Settled) : Renaming.Settled (renamingsOf req.pairs) := by
  intro rule ruleMem other otherMem
  rcases mem_renamingsOf.mp ruleMem with ⟨pair, pairMem, -, rfl⟩
  rcases mem_renamingsOf.mp otherMem with ⟨another, anotherMem, -, rfl⟩
  rcases ServicePodMapRequest.mem_pairs.mp pairMem with ⟨entry, entryMem, -, info⟩
  rcases ServicePodMapRequest.mem_pairs.mp anotherMem with ⟨carrier, carrierMem, ipMem, -⟩
  dsimp only
  rw [info]
  exact settled entry entryMem another.1 (List.mem_flatMap.mpr ⟨carrier, carrierMem, ipMem⟩)

theorem nodup_stale_renamingsOf {pairs : List (String × PodInfo)}
    (nodup : (pairs.map Prod.fst).Nodup) : ((renamingsOf pairs).map Renaming.stale).Nodup := by
  have stales : (renamingsOf pairs).map Renaming.stale =
      ((pairs.filter fun pair => pair.2.isNamed).map Prod.fst).map NodeId.unresolved := by
    simp [renamingsOf]
  rw [stales]
  refine List.Nodup.map NodeId.unresolved_injective (nodup.sublist ?_)
  exact List.filter_sublist.map Prod.fst

theorem CallGraph.isNode_renameAll {rules : List (Renaming NodeId)} {calls : CallGraph}
    {node : NodeId} (isNode : (calls.renameAll rules).IsNode node) :
    ∃ old, Renaming.applyAll rules old = node := by
  rcases isNode with ⟨renamed, renamedMem, endpoint⟩
  rcases Multiset.mem_map.mp renamedMem with ⟨flow, -, rfl⟩
  rcases endpoint with rfl | rfl
  · exact ⟨flow.sourceNode, rfl⟩
  · exact ⟨flow.destinationNode, rfl⟩

theorem Topology.Represents.sameUpToOrder {left right : Topology} {calls : CallGraph}
    (leftRepresents : left.Represents calls) (rightRepresents : right.Represents calls) :
    left.SameUpToOrder right := by
  constructor
  · intro node
    rw [leftRepresents.mem_nodes, rightRepresents.mem_nodes]
  · intro node
    rw [← Multiset.coe_eq_coe, ← Multiset.coe_eq_coe, leftRepresents.upstream,
      leftRepresents.downstream, rightRepresents.upstream, rightRepresents.downstream]
    exact ⟨rfl, rfl⟩

namespace CoreState

/-- Announcements that find no raw-IP node leave the graph as it is. -/
theorem topology_announceAll_of_notMem {state : CoreState} {pairs : List (String × PodInfo)}
    (absent : ∀ pair ∈ pairs, pair.2.applicationName ≠ "" →
      NodeId.unresolved pair.1 ∉ state.topology.nodes) :
    (state.announceAll pairs).topology = state.topology := by
  induction pairs generalizing state with
  | nil => rfl
  | cons pair rest ih =>
      have unchanged : (state.apply (.podApplied pair.1 pair.2)).topology = state.topology := by
        rw [topology_apply_podApplied]
        split
        · rename_i named
          exact Topology.resolveUnknownNode_of_notMem _ _ (absent pair List.mem_cons_self named)
        · rfl
      rw [announceAll_cons, ih]
      · exact unchanged
      · intro other otherMem named
        rw [unchanged]
        exact absent other (List.mem_cons_of_mem _ otherMem) named

/-- The first pass leaves no raw-IP node that a second pass could rename. -/
theorem topology_announceAll_announceAll {state : CoreState} (view : state.IsView)
    {pairs : List (String × PodInfo)} (settled : Renaming.Settled (renamingsOf pairs)) :
    ((state.announceAll pairs).announceAll pairs).topology =
      (state.announceAll pairs).topology := by
  rcases view with ⟨calls, represents⟩
  refine topology_announceAll_of_notMem ?_
  intro pair pairMem named
  rw [(represents_announceAll represents pairs).mem_nodes]
  intro isNode
  rcases CallGraph.isNode_renameAll isNode with ⟨old, renamed⟩
  exact Renaming.applyAll_ne_stale settled (mem_renamingsOf.mpr ⟨pair, pairMem, named, rfl⟩) old
    renamed

theorem podCache_announceAll_announceAll (state : CoreState) (pairs : List (String × PodInfo)) :
    ((state.announceAll pairs).announceAll pairs).podCache =
      (state.announceAll pairs).podCache := by
  rw [podCache_announceAll, podCache_announceAll, KeyedWrite.replay_replay]

theorem podCache_announceAll_perm (state : CoreState) {pairs others : List (String × PodInfo)}
    (nodup : (pairs.map Prod.fst).Nodup) (perm : others.Perm pairs) :
    (state.announceAll others).podCache = (state.announceAll pairs).podCache := by
  rw [podCache_announceAll, podCache_announceAll]
  refine KeyedWrite.replay_perm _ ?_ (perm.map _)
  rwa [List.map_map]

/-- Reordered announcements of different IPs rename the calls alike. -/
theorem represents_announceAll_perm {state : CoreState} {calls : CallGraph}
    (represents : state.topology.Represents calls) {pairs others : List (String × PodInfo)}
    (settled : Renaming.Settled (renamingsOf pairs)) (nodup : (pairs.map Prod.fst).Nodup)
    (perm : others.Perm pairs) :
    (state.announceAll others).topology.Represents (calls.renameAll (renamingsOf pairs)) := by
  have rulesPerm : (renamingsOf others).Perm (renamingsOf pairs) :=
    (perm.filter _).map _
  have sameNode := Renaming.applyAll_perm settled (nodup_stale_renamingsOf nodup) rulesPerm
  have sameCalls : calls.renameAll (renamingsOf others) = calls.renameAll (renamingsOf pairs) := by
    refine Multiset.map_congr rfl fun flow _ => ?_
    rw [Flow.renameAll, Flow.renameAll, sameNode, sameNode]
  rw [← sameCalls]
  exact represents_announceAll represents others

/--
Repeating a request changes nothing, and reordering its announcements leaves the same cache and,
up to the order of the flows, the same graph when their IPs are different.
-/
theorem resync_idempotent_and_unordered (requests : List Request) (req : ServicePodMapRequest)
    (settled : req.Settled) :
    (((empty.run requests).run [.sendServicePodMap req]).run [.sendServicePodMap req]).podCache =
        ((empty.run requests).run [.sendServicePodMap req]).podCache ∧
      (((empty.run requests).run [.sendServicePodMap req]).run [.sendServicePodMap req]).topology =
        ((empty.run requests).run [.sendServicePodMap req]).topology ∧
      ((req.pairs.map Prod.fst).Nodup → ∀ other : ServicePodMapRequest,
        other.pairs.Perm req.pairs →
          ((empty.run requests).run [.sendServicePodMap other]).podCache =
              ((empty.run requests).run [.sendServicePodMap req]).podCache ∧
            ((empty.run requests).run [.sendServicePodMap other]).topology.SameUpToOrder
              ((empty.run requests).run [.sendServicePodMap req]).topology) := by
  have view := isView_run requests
  simp only [run_sendServicePodMap]
  refine ⟨podCache_announceAll_announceAll _ _,
    topology_announceAll_announceAll view settled.renamings, ?_⟩
  intro nodup other perm
  rcases view with ⟨calls, represents⟩
  have reordered := represents_announceAll_perm represents settled.renamings nodup perm
  have ordered := represents_announceAll represents req.pairs
  exact ⟨podCache_announceAll_perm _ nodup perm, reordered.sameUpToOrder ordered⟩

/-- Two pods are called by their raw IPs, and then a resync announces both. -/
def callsByIp : List Request :=
  [.sendPodEvent ⟨"10.0.0.1", "default", 0, "web", "web", "ClusterIP"⟩,
    .sendEbpfNetworkEvent ⟨16777226, 33554442, "GET", "/", "10.0.0.2"⟩,
    .sendEbpfNetworkEvent ⟨16777226, 50331658, "GET", "/", "10.0.0.3"⟩]

def bothPods : ServicePodMapRequest :=
  ⟨[⟨"api", "default", "ClusterIP", ["10.0.0.2"], "api"⟩,
    ⟨"db", "default", "ClusterIP", ["10.0.0.3"], "db"⟩]⟩

theorem resync_bothPods :
    (((empty.run callsByIp).run [.sendServicePodMap bothPods]).run
          [.sendServicePodMap bothPods]).podCache =
        ((empty.run callsByIp).run [.sendServicePodMap bothPods]).podCache ∧
      (((empty.run callsByIp).run [.sendServicePodMap bothPods]).run
          [.sendServicePodMap bothPods]).topology =
        ((empty.run callsByIp).run [.sendServicePodMap bothPods]).topology ∧
      ((bothPods.pairs.map Prod.fst).Nodup → ∀ other : ServicePodMapRequest,
        other.pairs.Perm bothPods.pairs →
          ((empty.run callsByIp).run [.sendServicePodMap other]).podCache =
              ((empty.run callsByIp).run [.sendServicePodMap bothPods]).podCache ∧
            ((empty.run callsByIp).run [.sendServicePodMap other]).topology.SameUpToOrder
              ((empty.run callsByIp).run [.sendServicePodMap bothPods]).topology) :=
  resync_idempotent_and_unordered callsByIp bothPods (by decide +kernel)

end CoreState

end Qubit
