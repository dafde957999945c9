import Qubit.Core.Server

/-!
# Event before announcement, announcement before event

An event towards a raw IP may reach Core before or after the announcement of the
pod with this IP. In the first order the event creates the raw-IP node and the
announcement renames it; in the second the event finds the pod. Both orders pass
through the deduplication with a key of their own, and the graphs they leave are
the same exactly when the two keys were both seen or both new, or the edge was
there anyway. Only a source pod announced under the name of the raw-IP node itself
is special: then the first order renames the source too.
-/

namespace Qubit

namespace Topology

def HasFlow (topology : Topology) (source destination : NodeId) : Prop :=
  ∃ flow, topology.Stores flow ∧ flow.sourceNode = source ∧ flow.destinationNode = destination

/-- The same node keys, and flows between the same pairs of nodes. -/
def SameGraph (left right : Topology) : Prop :=
  (∀ node, node ∈ left.nodes ↔ node ∈ right.nodes) ∧
    ∀ source destination, left.HasFlow source destination ↔ right.HasFlow source destination

/-- There is an edge from `source` to `destination`, up to renaming `stale` to `resolved`. -/
def ShowsEdgeRenamed (topology : Topology) (stale resolved source destination : NodeId) : Prop :=
  ∃ oldSource oldDestination, topology.ShowsEdge oldSource oldDestination ∧
    Function.update id stale resolved oldSource = source ∧
    Function.update id stale resolved oldDestination = destination

theorem Represents.hasFlow_iff {topology : Topology} {calls : CallGraph}
    (represents : topology.Represents calls) {source destination : NodeId} :
    topology.HasFlow source destination ↔ calls.HasEdge source destination := by
  simp only [HasFlow, CallGraph.HasEdge, represents.stores_iff]

/-- Graphs with the same edges have the same nodes, since every node is an endpoint. -/
theorem Represents.sameGraph_iff {left right : Topology} {leftCalls rightCalls : CallGraph}
    (leftRepresents : left.Represents leftCalls) (rightRepresents : right.Represents rightCalls) :
    left.SameGraph right ↔ ∀ source destination,
      leftCalls.HasEdge source destination ↔ rightCalls.HasEdge source destination := by
  constructor
  · rintro ⟨_, flows⟩ source destination
    rw [← leftRepresents.hasFlow_iff, ← rightRepresents.hasFlow_iff, flows]
  · intro edges
    have endpoint : ∀ calls : CallGraph, ∀ node, calls.IsNode node ↔
        ∃ source destination, calls.HasEdge source destination ∧
          (node = source ∨ node = destination) := by
      intro calls node
      constructor
      · rintro ⟨flow, flowMem, ends⟩
        exact ⟨_, _, ⟨flow, flowMem, rfl, rfl⟩, ends⟩
      · rintro ⟨_, _, ⟨flow, flowMem, rfl, rfl⟩, ends⟩
        exact ⟨flow, flowMem, ends⟩
    constructor
    · intro node
      simp only [leftRepresents.mem_nodes, rightRepresents.mem_nodes, endpoint, edges]
    · intro source destination
      rw [leftRepresents.hasFlow_iff, rightRepresents.hasFlow_iff, edges]

end Topology

namespace CallGraph

theorem hasEdge_rename_observe {stale resolved source destination : NodeId} {flow : Flow}
    {calls : CallGraph} :
    ((calls.observe flow).rename stale resolved).HasEdge source destination ↔
      (Function.update id stale resolved flow.sourceNode = source ∧
        Function.update id stale resolved flow.destinationNode = destination) ∨
          (calls.rename stale resolved).HasEdge source destination := by
  simp only [hasEdge_rename, hasEdge_observe]
  constructor
  · rintro ⟨_, _, ⟨rfl, rfl⟩ | old, ends⟩
    · exact Or.inl ends
    · exact Or.inr ⟨_, _, old, ends⟩
  · rintro (ends | ⟨_, _, old, ends⟩)
    · exact ⟨_, _, Or.inl ⟨rfl, rfl⟩, ends⟩
    · exact ⟨_, _, Or.inr old, ends⟩

theorem not_hasEdge_rename {stale resolved destination : NodeId} {calls : CallGraph}
    (ne : resolved ≠ stale) : ¬(calls.rename stale resolved).HasEdge stale destination := by
  rw [hasEdge_rename]
  rintro ⟨old, _, _, renamed, _⟩
  by_cases isStale : old = stale
  · rw [isStale, Function.update_self] at renamed
    exact ne renamed
  · rw [Function.update_of_ne isStale] at renamed
    exact isStale renamed

end CallGraph

section AddedEdge

variable {Edge : NodeId → NodeId → Prop} {resolved source : NodeId} {first second : Prop}

/-- Adding one edge, each time or not, gives the same edges unless it is new and added once. -/
theorem sameEdges_of_unmoved_iff :
    (∀ from' to', ((first ∧ source = from' ∧ resolved = to') ∨ Edge from' to' ↔
        (second ∧ source = from' ∧ resolved = to') ∨ Edge from' to')) ↔
      (first ↔ second) ∨ Edge source resolved := by
  constructor
  · intro same
    by_cases edge : Edge source resolved
    · exact Or.inr edge
    · have here := same source resolved
      simp only [and_self, and_true, edge, or_false] at here
      exact Or.inl here
  · rintro (agree | edge) from' to'
    · rw [agree]
    · constructor
      · rintro (⟨_, rfl, rfl⟩ | old)
        · exact Or.inr edge
        · exact Or.inr old
      · rintro (⟨_, rfl, rfl⟩ | old)
        · exact Or.inr edge
        · exact Or.inr old

/-- The second edge leaves a node without edges, so it must not be added. -/
theorem sameEdges_of_moved_iff (ne : resolved ≠ source) (gone : ∀ to', ¬Edge source to') :
    (∀ from' to', ((first ∧ resolved = from' ∧ resolved = to') ∨ Edge from' to' ↔
        (second ∧ source = from' ∧ resolved = to') ∨ Edge from' to')) ↔
      ((first ↔ second) ∨ Edge resolved resolved) ∧ ¬second := by
  constructor
  · intro same
    have notSecond : ¬second := by
      intro holds
      rcases (same source resolved).mpr (Or.inl ⟨holds, rfl, rfl⟩) with ⟨_, equal, _⟩ | edge
      · exact ne equal
      · exact gone resolved edge
    refine ⟨?_, notSecond⟩
    by_cases holds : first
    · rcases (same resolved resolved).mp (Or.inl ⟨holds, rfl, rfl⟩) with ⟨now, _⟩ | edge
      · exact absurd now notSecond
      · exact Or.inr edge
    · exact Or.inl (iff_of_false holds notSecond)
  · rintro ⟨agree, notSecond⟩ from' to'
    simp only [notSecond, false_and, false_or]
    constructor
    · rintro (⟨holds, rfl, rfl⟩ | edge)
      · rcases agree with agree | edge
        · exact absurd (agree.mp holds) notSecond
        · exact edge
      · exact edge
    · exact Or.inr

end AddedEdge

/--
Two graphs that arise from one graph without the node `stale` by adding, each or not, an edge to
`resolved`: the first one from the renamed source, the second one from the source itself.
-/
theorem sameEdges_iff {calls : CallGraph} {stale resolved source : NodeId} {first second : Prop} :
    (∀ from' to',
      ((first ∧ Function.update id stale resolved source = from' ∧ resolved = to') ∨
          (calls.rename stale resolved).HasEdge from' to') ↔
        ((second ∧ source = from' ∧ resolved = to') ∨
          (calls.rename stale resolved).HasEdge from' to')) ↔
      ((first ↔ second) ∨ (calls.rename stale resolved).HasEdge
        (Function.update id stale resolved source) resolved) ∧
        (source = stale → resolved ≠ stale → ¬second) := by
  by_cases special : source = stale ∧ resolved ≠ stale
  · rcases special with ⟨rfl, ne⟩
    rw [Function.update_self,
      sameEdges_of_moved_iff ne fun _ => CallGraph.not_hasEdge_rename ne]
    exact and_congr_right fun _ => ⟨fun notSecond _ _ => notSecond, fun given => given rfl ne⟩
  · have unmoved : Function.update id stale resolved source = source := by
      by_cases isStale : source = stale
      · have resolvedIsStale : resolved = stale := by
          by_contra ne
          exact special ⟨isStale, ne⟩
        rw [isStale, Function.update_self, resolvedIsStale]
      · exact Function.update_of_ne isStale ..
    rw [unmoved, sameEdges_of_unmoved_iff]
    exact (and_iff_left fun isStale ne => absurd ⟨isStale, ne⟩ special).symm

namespace CoreState

/-- The edge key of an event from a pod towards a raw IP that is not resolved. -/
def rawIpKey (input : EbpfNetworkEventInput) (src : PodInfo) : String :=
  edgeKey src.ns src.serviceName "unknown" input.dstIpStr

/-- The edge key of an event between two known pods. -/
def podKey (src info : PodInfo) : String :=
  edgeKey src.ns src.serviceName info.ns
    (if info.serviceName ≠ "" then info.serviceName else info.applicationName)

/-- When the arrival order of an event and the announcement of its destination is irrelevant. -/
def OrderIrrelevant (state : CoreState) (input : EbpfNetworkEventInput) (src info : PodInfo) :
    Prop :=
  ((rawIpKey input src ∉ state.seenEdges ↔ podKey src info ∉ state.seenEdges) ∨
    state.topology.ShowsEdgeRenamed (NodeId.unresolved input.dstIpStr) info.node
      (Function.update id (NodeId.unresolved input.dstIpStr) info.node src.node) info.node) ∧
  (src.node = NodeId.unresolved input.dstIpStr →
    info.node ≠ NodeId.unresolved input.dstIpStr → podKey src info ∈ state.seenEdges)

theorem eventFirst_edges {state : CoreState} {calls : CallGraph}
    (represents : state.topology.Represents calls) {input : EbpfNetworkEventInput}
    {src info : PodInfo} (observed : state.observed? input = some src)
    (notCached : state.podCache.lookup input.dstIpStr = none)
    (host : input.bareHost = input.dstIpStr)
    (noRoute : state.envoyCache.lookup input.bareHost = none)
    (named : info.applicationName ≠ "") :
    ∃ after : CallGraph,
      ((state.apply (.ebpfEvent input)).apply
        (.podApplied input.dstIpStr info)).topology.Represents after ∧
      ∀ source destination, after.HasEdge source destination ↔
        (rawIpKey input src ∉ state.seenEdges ∧
          Function.update id (NodeId.unresolved input.dstIpStr) info.node src.node = source ∧
          info.node = destination) ∨
        (calls.rename (NodeId.unresolved input.dstIpStr) info.node).HasEdge source destination := by
  have toRawIp : state.destination input = NodeId.unresolved input.dstIpStr := by
    simp only [destination, noRoute, notCached, Option.getD_none, destinationFromPod_none, host]
    rw [EbpfNetworkEventInput.dstIpStr, parseK8sHost_ipStr]
    rfl
  have key : state.eventKey input src = rawIpKey input src := by
    simp only [eventKey, toRawIp, notCached]
    rfl
  have observedCalls := represents_apply represents (.ebpfEvent input)
  have afterCalls := represents_apply observedCalls (.podApplied input.dstIpStr info)
  refine ⟨_, afterCalls, ?_⟩
  intro source destination
  simp only [observeOperation, observed, key, if_pos named]
  by_cases seen : rawIpKey input src ∈ state.seenEdges
  · simp [seen]
  · rw [if_neg seen, CallGraph.hasEdge_rename_observe]
    simp [seen, eventFlow, toRawIp]

theorem announcementFirst_edges {state : CoreState} {calls : CallGraph}
    (represents : state.topology.Represents calls) {input : EbpfNetworkEventInput}
    {src info : PodInfo} (observed : state.observed? input = some src)
    (otherIp : input.srcIpStr ≠ input.dstIpStr)
    (noRoute : state.envoyCache.lookup input.bareHost = none)
    (named : info.applicationName ≠ "") :
    ∃ after : CallGraph,
      ((state.apply (.podApplied input.dstIpStr info)).apply
        (.ebpfEvent input)).topology.Represents after ∧
      ∀ source destination, after.HasEdge source destination ↔
        (podKey src info ∉ state.seenEdges ∧ src.node = source ∧ info.node = destination) ∨
        (calls.rename (NodeId.unresolved input.dstIpStr) info.node).HasEdge source destination := by
  have announcedCalls := represents_apply represents (.podApplied input.dstIpStr info)
  have afterCalls := represents_apply announcedCalls (.ebpfEvent input)
  have stillObserved :
      (state.apply (.podApplied input.dstIpStr info)).observed? input = some src := by
    rw [observed?_eq_some] at observed ⊢
    rw [podCache_apply_podApplied, Finmap.lookup_insert_of_ne _ otherIp]
    exact observed
  have toPod :
      (state.apply (.podApplied input.dstIpStr info)).destination input = info.node := by
    simp [destination, noRoute, destinationFromPod_some _ named, PodInfo.node]
  have key : (state.apply (.podApplied input.dstIpStr info)).eventKey input src =
      podKey src info := by
    rw [eventKey, toPod, podKey, podCache_apply_podApplied, Finmap.lookup_insert,
      destinationService_some]
    rfl
  refine ⟨_, afterCalls, ?_⟩
  intro source destination
  simp only [observeOperation, stillObserved, key, seenEdges_apply_podApplied, if_pos named]
  by_cases seen : podKey src info ∈ state.seenEdges
  · simp [seen]
  · rw [if_neg seen, CallGraph.hasEdge_observe]
    simp [seen, eventFlow, toPod]

/--
An event towards a raw IP and the announcement of the pod with this IP leave the same graph in both
orders exactly when `OrderIrrelevant` holds before.
-/
theorem sameGraph_iff_orderIrrelevant (requests : List Request) (input : EbpfNetworkEventInput)
    (src info : PodInfo) (notHealth : ¬Text.Contains "/health" input.path)
    (cached : (empty.run requests).podCache.lookup input.srcIpStr = some src)
    (srcNamed : src.applicationName ≠ "") (otherIp : input.dstIp ≠ input.srcIp)
    (notCached : (empty.run requests).podCache.lookup input.dstIpStr = none)
    (host : input.bareHost = input.dstIpStr)
    (noRoute : (empty.run requests).envoyCache.lookup input.bareHost = none)
    (named : info.applicationName ≠ "") :
    (((empty.run requests).apply (.ebpfEvent input)).apply
        (.podApplied input.dstIpStr info)).topology.SameGraph
      (((empty.run requests).apply (.podApplied input.dstIpStr info)).apply
        (.ebpfEvent input)).topology ↔
      (empty.run requests).OrderIrrelevant input src info := by
  rcases isView_run requests with ⟨calls, represents⟩
  have observed := observed?_eq_some.mpr ⟨notHealth, cached, srcNamed⟩
  have otherIpStr : input.srcIpStr ≠ input.dstIpStr := fun same =>
    otherIp (EbpfNetworkEventInput.ipStr_injective same).symm
  rcases eventFirst_edges represents observed notCached host noRoute named with
    ⟨first, firstRepresents, firstEdges⟩
  rcases announcementFirst_edges represents observed otherIpStr noRoute named with
    ⟨second, secondRepresents, secondEdges⟩
  rw [firstRepresents.sameGraph_iff secondRepresents]
  simp only [firstEdges, secondEdges]
  rw [sameEdges_iff, OrderIrrelevant, CallGraph.hasEdge_rename]
  simp only [Topology.ShowsEdgeRenamed, represents.showsEdge_iff, not_not]

theorem IsView.hasFlow_iff {state : CoreState} (view : state.IsView)
    {source destination : NodeId} :
    state.topology.HasFlow source destination ↔ state.topology.ShowsEdge source destination := by
  rcases view with ⟨calls, represents⟩
  rw [represents.hasFlow_iff, represents.showsEdge_iff]

/-- A pod called by its raw IP was announced, healed and deleted. -/
def calledThenDeleted : List Request :=
  [.sendPodEvent ⟨"10.0.0.1", "default", 0, "web", "web", "ClusterIP"⟩,
    .sendEbpfNetworkEvent ⟨16777226, 33554442, "GET", "/", "10.0.0.2"⟩,
    .sendPodEvent ⟨"10.0.0.2", "default", 0, "api", "api", "ClusterIP"⟩,
    .sendPodEvent ⟨"10.0.0.2", "", 1, "", "", ""⟩]

/-- The same call again, now that the IP belongs to another pod. -/
def calledAgain : EbpfNetworkEventInput :=
  ⟨16777226, 33554442, "GET", "/", "10.0.0.2"⟩

theorem sameGraph_calledAgain_iff :
    (((empty.run calledThenDeleted).apply (.ebpfEvent calledAgain)).apply
        (.podApplied "10.0.0.2" ⟨"default", "cache", "cache", "ClusterIP"⟩)).topology.SameGraph
      (((empty.run calledThenDeleted).apply
        (.podApplied "10.0.0.2" ⟨"default", "cache", "cache", "ClusterIP"⟩)).apply
        (.ebpfEvent calledAgain)).topology ↔
      (empty.run calledThenDeleted).OrderIrrelevant calledAgain
        ⟨"default", "web", "web", "ClusterIP"⟩ ⟨"default", "cache", "cache", "ClusterIP"⟩ :=
  sameGraph_iff_orderIrrelevant calledThenDeleted calledAgain
    ⟨"default", "web", "web", "ClusterIP"⟩ ⟨"default", "cache", "cache", "ClusterIP"⟩
    (by decide +kernel) (by decide +kernel) (by decide +kernel) (by decide +kernel)
    (by decide +kernel) (by decide +kernel) (by decide +kernel) (by decide +kernel)

theorem exists_order_relevant :
    ¬∀ (requests : List Request) (input : EbpfNetworkEventInput) (src info : PodInfo),
      ¬Text.Contains "/health" input.path →
      (empty.run requests).podCache.lookup input.srcIpStr = some src →
      src.applicationName ≠ "" → input.dstIp ≠ input.srcIp →
      (empty.run requests).podCache.lookup input.dstIpStr = none →
      input.bareHost = input.dstIpStr →
      (empty.run requests).envoyCache.lookup input.bareHost = none →
      info.applicationName ≠ "" →
      (((empty.run requests).apply (.ebpfEvent input)).apply
          (.podApplied input.dstIpStr info)).topology.SameGraph
        (((empty.run requests).apply (.podApplied input.dstIpStr info)).apply
          (.ebpfEvent input)).topology := by
  intro irrelevant
  have same := irrelevant calledThenDeleted calledAgain
    ⟨"default", "web", "web", "ClusterIP"⟩ ⟨"default", "cache", "cache", "ClusterIP"⟩
    (by decide +kernel) (by decide +kernel) (by decide +kernel) (by decide +kernel)
    (by decide +kernel) (by decide +kernel) (by decide +kernel) (by decide +kernel)
  have edge := same.2 ⟨"web", "default"⟩ ⟨"cache", "default"⟩
  rw [((isView_run _).apply _ |>.apply _).hasFlow_iff,
    ((isView_run _).apply _ |>.apply _).hasFlow_iff] at edge
  revert edge
  decide +kernel

end CoreState

end Qubit
