import Mathlib.Data.Finset.Image
import Qubit.Core.Topology
import Qubit.Lib.Renaming

/-!
# A resolution is a renaming

Resolving an IP takes four passes over the three maps. Together they amount to one
simultaneous substitution of the resolved node for the stale one, in the keys and
in both ends of every flow, whatever the three maps hold before: nothing here
assumes that they describe one graph.
-/

namespace Qubit

/-- Both ends replaced by their images. -/
def Flow.mapNodes (substitution : NodeId → NodeId) (flow : Flow) : Flow where
  sourceNode := substitution flow.sourceNode
  destinationNode := substitution flow.destinationNode
  path := flow.path
  method := flow.method

theorem Flow.rewire_eq_mapNodes (rule : Renaming NodeId) :
    Flow.rewire rule.stale rule.resolved = Flow.mapNodes rule.apply := by
  funext flow
  simp [Flow.rewire, Flow.mapNodes, Renaming.apply, Function.update_apply]

theorem Flow.mapNodes_settled {rule : Renaming NodeId} (fresh : rule.resolved ≠ rule.stale)
    (flow : Flow) :
    (flow.mapNodes rule.apply).sourceNode ≠ rule.stale ∧
      (flow.mapNodes rule.apply).destinationNode ≠ rule.stale := by
  have settled : ∀ node, rule.apply node ≠ rule.stale := by
    intro node
    by_cases stale : node = rule.stale
    · simpa [stale, Renaming.apply_stale] using fresh
    · simpa [Renaming.apply_of_ne stale] using stale
  exact ⟨settled _, settled _⟩

namespace Topology

/--
One of the two maps of flows after a renaming: the list of the stale node is behind that of the
resolved one, every other list is in its place, and both ends of every flow are renamed.
-/
structure FlowsRenamed (rule : Renaming NodeId)
    (before after : Finmap fun _ : NodeId => List Flow) : Prop where
  lookup_resolved : after.lookup rule.resolved =
    ((before.lookup rule.resolved).merge (· ++ ·) (before.lookup rule.stale)).map
      (List.map (Flow.mapNodes rule.apply))
  lookup_other : ∀ node, node ≠ rule.resolved → node ≠ rule.stale →
    after.lookup node = (before.lookup node).map (List.map (Flow.mapNodes rule.apply))
  stale_notMem : rule.stale ∉ after
  not_mentioned : ∀ node flows, after.lookup node = some flows →
    ∀ flow ∈ flows, flow.sourceNode ≠ rule.stale ∧ flow.destinationNode ≠ rule.stale

/-- `after` is `before` with the stale node renamed everywhere. -/
structure Renamed (rule : Renaming NodeId) (before after : Topology) : Prop where
  keys_nodes : after.nodes.keys = before.nodes.keys.image rule.apply
  lookup_resolved : after.nodes.lookup rule.resolved =
    (before.nodes.lookup rule.resolved).or (before.nodes.lookup rule.stale)
  lookup_other : ∀ node, node ≠ rule.resolved → node ≠ rule.stale →
    after.nodes.lookup node = before.nodes.lookup node
  stale_notMem : rule.stale ∉ after.nodes
  upstream : FlowsRenamed rule before.upstream after.upstream
  downstream : FlowsRenamed rule before.downstream after.downstream

/-- Moving the list of the stale node and rewiring every flow, for either of the two maps. -/
theorem flowsRenamed_moveRow {rule : Renaming NodeId} (fresh : rule.resolved ≠ rule.stale)
    (flows : Finmap fun _ : NodeId => List Flow) :
    FlowsRenamed rule flows ((flows.moveRow rule.stale rule.resolved).mapValues
      (List.map (Flow.rewire rule.stale rule.resolved))) where
  lookup_resolved := by
    rw [Finmap.lookup_mapValues, Finmap.lookup_moveRow, if_pos rfl, Finmap.lookup_erase_ne fresh,
      Flow.rewire_eq_mapNodes]
  lookup_other := by
    intro node not_resolved not_stale
    rw [Finmap.lookup_mapValues, Finmap.lookup_moveRow, if_neg not_resolved,
      Finmap.lookup_erase_ne not_stale, Flow.rewire_eq_mapNodes]
  stale_notMem := by
    rw [← Finmap.lookup_eq_none, Finmap.lookup_mapValues, Finmap.lookup_moveRow,
      if_neg fresh.symm, Finmap.lookup_erase, Option.map_none]
  not_mentioned := by
    intro node rewired found flow flowMem
    rw [Finmap.lookup_mapValues, Option.map_eq_some_iff] at found
    rcases found with ⟨old, -, rfl⟩
    rw [Flow.rewire_eq_mapNodes] at flowMem
    rcases List.mem_map.mp flowMem with ⟨oldFlow, -, rfl⟩
    exact Flow.mapNodes_settled fresh oldFlow

/-- Moving a list to where it is and rewiring a node to itself changes nothing. -/
theorem moveRow_self_mapValues_rewire (node : NodeId)
    (flows : Finmap fun _ : NodeId => List Flow) :
    (flows.moveRow node node).mapValues (List.map (Flow.rewire node node)) = flows := by
  have rewire_self : Flow.rewire node node = id := by
    funext flow
    cases flow
    simp [Flow.rewire, eq_comm]
  apply Finmap.ext_lookup
  intro other
  rw [Finmap.lookup_mapValues, rewire_self, List.map_id_fun, Option.map_id_fun, id,
    Finmap.lookup_moveRow]
  by_cases same : other = node
  · subst same
    simp
  · simp [same, Finmap.lookup_erase_ne]

theorem renamed_resolveUnknownNode {ip applicationName ns : String} {topology : Topology}
    (present : NodeId.unresolved ip ∈ topology.nodes)
    (fresh : (⟨applicationName, ns⟩ : NodeId) ≠ NodeId.unresolved ip) :
    topology.Renamed ⟨NodeId.unresolved ip, ⟨applicationName, ns⟩⟩
      (topology.resolveUnknownNode ip applicationName ns) where
  keys_nodes := by
    ext node
    simp only [Finmap.mem_keys, Finset.mem_image, mem_nodes_resolveUnknownNode, Renaming.apply]
  lookup_resolved := by
    rcases resolveUnknownNode_of_mem applicationName ns present with ⟨nodeData, found, resolved⟩
    rw [resolved, Finmap.lookup_insertNew, if_pos rfl, Finmap.lookup_erase_ne fresh, found]
  lookup_other := by
    intro node not_resolved not_stale
    rcases resolveUnknownNode_of_mem applicationName ns present with ⟨nodeData, -, resolved⟩
    rw [resolved, Finmap.lookup_insertNew, if_neg not_resolved,
      Finmap.lookup_erase_ne not_stale]
  stale_notMem := by
    rcases resolveUnknownNode_of_mem applicationName ns present with ⟨nodeData, -, resolved⟩
    rw [resolved, Finmap.mem_insertNew]
    simp [fresh.symm]
  upstream := by
    rcases resolveUnknownNode_of_mem applicationName ns present with ⟨nodeData, -, resolved⟩
    rw [resolved]
    exact flowsRenamed_moveRow fresh topology.upstream
  downstream := by
    rcases resolveUnknownNode_of_mem applicationName ns present with ⟨nodeData, -, resolved⟩
    rw [resolved]
    exact flowsRenamed_moveRow fresh topology.downstream

theorem resolveUnknownNode_self {ip applicationName ns : String} (topology : Topology)
    (same : (⟨applicationName, ns⟩ : NodeId) = NodeId.unresolved ip) :
    topology.resolveUnknownNode ip applicationName ns = topology := by
  by_cases present : NodeId.unresolved ip ∈ topology.nodes
  · rcases resolveUnknownNode_of_mem applicationName ns present with ⟨nodeData, found, resolved⟩
    rw [resolved, same]
    have nodes_eq : (topology.nodes.erase (NodeId.unresolved ip)).insertNew
        (NodeId.unresolved ip) nodeData = topology.nodes := by
      apply Finmap.ext_lookup
      intro node
      rw [Finmap.lookup_insertNew]
      by_cases stale : node = NodeId.unresolved ip
      · subst stale
        simp [found]
      · simp [stale, Finmap.lookup_erase_ne]
    rw [nodes_eq, moveRow_self_mapValues_rewire, moveRow_self_mapValues_rewire]
  · exact resolveUnknownNode_of_notMem applicationName ns present

/-- A resolution either changes nothing or is exactly the renaming of the stale node. -/
theorem resolveUnknownNode_isRenaming (topology : Topology) (ip applicationName ns : String) :
    let stale := NodeId.unresolved ip
    let resolved : NodeId := { applicationName, ns }
    let after := topology.resolveUnknownNode ip applicationName ns
    (stale ∉ topology.nodes ∨ resolved = stale → after = topology) ∧
      (stale ∈ topology.nodes ∧ resolved ≠ stale → topology.Renamed ⟨stale, resolved⟩ after) := by
  intro stale resolved after
  constructor
  · rintro (absent | same)
    · exact resolveUnknownNode_of_notMem applicationName ns absent
    · exact resolveUnknownNode_self topology same
  · rintro ⟨present, fresh⟩
    exact renamed_resolveUnknownNode present fresh

end Topology

end Qubit
