import Qubit.Core.Server
import Qubit.Lib.Run

/-!
# Coherence of the three maps, and duplicate flows

In every reachable state the two maps of flows store the same flows, each under its
own endpoints, and the nodes are exactly these endpoints: this is what representing
a call graph means, read off the maps.

The call graph is not always a set. A resolution can make two stored flows equal,
when they differed only in naming the raw IP and the resolved service, and neither
copy is dropped then. Since no operation ever removes a flow, a run ends without
duplicates exactly when none of its resolutions identified two flows.
-/

namespace Qubit

namespace Topology

/-- The three maps describe one graph. -/
structure Coherent (topology : Topology) : Prop where
  upstream_keyed : ∀ node, ∀ flow ∈ topology.upstream.row node, flow.destinationNode = node
  downstream_keyed : ∀ node, ∀ flow ∈ topology.downstream.row node, flow.sourceNode = node
  mirrored : ∀ flow, (topology.upstream.row flow.destinationNode).count flow =
    (topology.downstream.row flow.sourceNode).count flow
  mem_nodes : ∀ node, node ∈ topology.nodes ↔
    ∃ flow, topology.Stores flow ∧ (node = flow.sourceNode ∨ node = flow.destinationNode)

theorem Represents.coherent {topology : Topology} {calls : CallGraph}
    (represents : topology.Represents calls) : topology.Coherent where
  upstream_keyed := by
    intro node flow flowMem
    exact (represents.upstream.mem_row_iff.mp flowMem).2
  downstream_keyed := by
    intro node flow flowMem
    exact (represents.downstream.mem_row_iff.mp flowMem).2
  mirrored := by
    intro flow
    rw [represents.upstream.count_row, represents.downstream.count_row, if_pos rfl, if_pos rfl]
  mem_nodes := by
    intro node
    simp only [represents.mem_nodes, CallGraph.IsNode, represents.stores_iff]

def NoDuplicateFlow (topology : Topology) : Prop :=
  (∀ node, (topology.upstream.row node).Nodup) ∧ ∀ node, (topology.downstream.row node).Nodup

theorem Represents.noDuplicateFlow_iff {topology : Topology} {calls : CallGraph}
    (represents : topology.Represents calls) : topology.NoDuplicateFlow ↔ calls.Nodup := by
  rw [NoDuplicateFlow, represents.upstream.nodup_iff, represents.downstream.nodup_iff, and_self]

/-- Renaming `stale` to `resolved` leaves different stored flows different. -/
def KeepsFlowsApart (topology : Topology) (stale resolved : NodeId) : Prop :=
  ∀ flow other, topology.Stores flow → topology.Stores other →
    flow.rewire stale resolved = other.rewire stale resolved → flow = other

end Topology

theorem CoreState.IsView.coherent {state : CoreState} (view : state.IsView) :
    state.topology.Coherent := by
  rcases view with ⟨calls, represents⟩
  exact represents.coherent

/-- The topology is coherent after every sequence of requests. -/
theorem CoreState.coherent_run (requests : List Request) :
    (CoreState.empty.run requests).topology.Coherent := by
  rcases CoreState.isView_run requests with ⟨calls, represents⟩
  exact represents.coherent

/-! ## Duplicates -/

/-- If the operation resolves an IP, the resolution identifies no two stored flows. -/
def CoreState.ResolvesApart (state : CoreState) : Operation → Prop
  | .podApplied podIp info =>
      info.applicationName ≠ "" →
        state.topology.KeepsFlowsApart (NodeId.unresolved podIp) info.node
  | _ => True

namespace CallGraph

theorem nodup_observe_iff {flow : Flow} {calls : CallGraph} :
    (calls.observe flow).Nodup ↔ calls.Nodup := by
  constructor
  · exact Multiset.nodup_of_le (Multiset.le_ndinsert_self flow calls)
  · exact fun nodup => nodup.ndinsert flow

theorem nodup_rename_iff {stale resolved : NodeId} {calls : CallGraph} :
    (calls.rename stale resolved).Nodup ↔
      calls.Nodup ∧ ∀ flow ∈ calls, ∀ other ∈ calls,
        flow.rewire stale resolved = other.rewire stale resolved → flow = other := by
  constructor
  · intro nodup
    have nodupBefore : calls.Nodup := nodup.of_map
    exact ⟨nodupBefore, (Multiset.nodup_map_iff_inj_on nodupBefore).mp nodup⟩
  · rintro ⟨nodup, apart⟩
    exact (Multiset.nodup_map_iff_inj_on nodup).mpr apart

end CallGraph

namespace CoreState

/-- One operation introduces a duplicate exactly when it is a resolution that identifies flows. -/
theorem noDuplicateFlow_apply_iff {state : CoreState} (view : state.IsView)
    (operation : Operation) :
    (state.apply operation).topology.NoDuplicateFlow ↔
      state.topology.NoDuplicateFlow ∧ state.ResolvesApart operation := by
  rcases view with ⟨calls, represents⟩
  rw [(represents_apply represents operation).noDuplicateFlow_iff, represents.noDuplicateFlow_iff]
  cases operation with
  | ebpfEvent input =>
      simp only [observeOperation, ResolvesApart, and_true]
      cases state.observed? input with
      | none => rfl
      | some src =>
          dsimp only
          split
          · rfl
          · exact CallGraph.nodup_observe_iff
  | podApplied podIp info =>
      simp only [observeOperation, ResolvesApart]
      split
      · rename_i named
        rw [CallGraph.nodup_rename_iff]
        apply and_congr_right
        intro _
        simp only [named, ne_eq, not_false_eq_true, forall_const, Topology.KeepsFlowsApart,
          represents.stores_iff]
        constructor
        · intro apart flow other flowMem otherMem same
          exact apart flow flowMem other otherMem same
        · intro apart flow flowMem other otherMem same
          exact apart flow other flowMem otherMem same
      · rename_i unnamed
        simp [unnamed]
  | podDeleted podIp => simp [observeOperation, ResolvesApart]
  | serviceApplied name info => simp [observeOperation, ResolvesApart]
  | serviceDeleted name ns => simp [observeOperation, ResolvesApart]
  | resourceEvent now resourceType name ns eventType resourceData =>
      simp [observeOperation, ResolvesApart]
  | envoyRoute domain serviceName ns => simp [observeOperation, ResolvesApart]

/-- A run ends without duplicate flows exactly when each of its resolutions kept flows apart. -/
theorem noDuplicateFlow_run_iff (requests : List Request) :
    (empty.run requests).topology.NoDuplicateFlow ↔
      Run.EveryStep apply ResolvesApart empty (operationsOf requests) := by
  rw [run_eq_foldl]
  have noFlow : empty.topology.NoDuplicateFlow :=
    Topology.represents_new.noDuplicateFlow_iff.mpr Multiset.nodup_zero
  refine (Run.holds_iff_everyStep (fun state : CoreState => state.topology.NoDuplicateFlow)
    (fun _ operation view _ => IsView.apply view operation)
    (fun _ operation view _ => noDuplicateFlow_apply_iff view operation) isView_empty
    fun _ _ => trivial).trans ?_
  exact and_iff_right noFlow

/-- Two pods of one service are called by raw IP before either is announced. -/
def twoPodsCalledByIp : List Request :=
  [.sendPodEvent ⟨"10.0.0.1", "default", 0, "web", "web", "ClusterIP"⟩,
    .sendEbpfNetworkEvent ⟨16777226, 33554442, "GET", "/", "10.0.0.2"⟩,
    .sendEbpfNetworkEvent ⟨16777226, 50331658, "GET", "/", "10.0.0.3"⟩,
    .sendPodEvent ⟨"10.0.0.2", "default", 0, "api", "api", "ClusterIP"⟩,
    .sendPodEvent ⟨"10.0.0.3", "default", 0, "api", "api", "ClusterIP"⟩]

theorem exists_duplicateFlow :
    ¬∀ requests, (empty.run requests).topology.NoDuplicateFlow := by
  intro noDuplicate
  have nodup := (noDuplicate twoPodsCalledByIp).2 ⟨"web", "default"⟩
  revert nodup
  decide +kernel

end CoreState

end Qubit
