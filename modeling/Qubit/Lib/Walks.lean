import Mathlib.Combinatorics.SimpleGraph.Connectivity.Connected
import Mathlib.Combinatorics.SimpleGraph.Paths
import Mathlib.Data.ENat.Basic
import Qubit.Lib.LevelSearch

/-!
# Searching an undirected graph

Where the successors of a node are its neighbours in a graph, the hops of a search are
the walks of the graph, and what is reached at all is the component of the root. A node
among its own successors makes no difference: a hop that stays where it is can be left
out.
-/

namespace LevelSearch

universe u

variable {A : Type u} {graph : SimpleGraph A} {successors : A → List A} {root node : A}

/-- The successors of a node are its neighbours; it may be among them itself. -/
def Follows (successors : A → List A) (graph : SimpleGraph A) : Prop :=
  ∀ node next, node ≠ next → (next ∈ successors node ↔ graph.Adj node next)

theorem Hops.exists_walk (follows : Follows successors graph) {count : ℕ}
    (reached : Hops successors root count node) :
    ∃ walk : graph.Walk root node, walk.length ≤ count := by
  induction reached with
  | root => exact ⟨.nil, le_rfl⟩
  | @hop count node next _ link ih =>
      rcases ih with ⟨walk, walk_le⟩
      by_cases stays : node = next
      · subst stays
        exact ⟨walk, by omega⟩
      · refine ⟨walk.concat ((follows node next stays).mp link), ?_⟩
        simpa using walk_le

theorem hops_length (follows : Follows successors graph) (walk : graph.Walk root node) :
    Hops successors root walk.length node := by
  induction walk using SimpleGraph.Walk.concatRec with
  | Hnil => exact .root
  | Hconcat walk adjacent ih =>
      rw [SimpleGraph.Walk.length_concat]
      exact ih.hop ((follows _ _ adjacent.ne).mpr adjacent)

/-- Some hops lead to a node exactly when a path does that is not longer. -/
theorem exists_hops_iff_exists_path (follows : Follows successors graph) {depth : ℕ∞} :
    (∃ count : ℕ, count ≤ depth ∧ Hops successors root count node) ↔
      ∃ path : graph.Walk root node, path.IsPath ∧ path.length ≤ depth := by
  classical
  constructor
  · rintro ⟨count, count_le, reached⟩
    rcases reached.exists_walk follows with ⟨walk, walk_le⟩
    have path_le : walk.bypass.length ≤ count := walk.length_bypass_le_length.trans walk_le
    exact ⟨walk.bypass, walk.bypass_isPath, (Nat.cast_le.mpr path_le).trans count_le⟩
  · rintro ⟨path, -, path_le⟩
    exact ⟨path.length, path_le, hops_length follows path⟩

/-- Without a bound on the hops the search finds the component of the root. -/
theorem exists_hops_iff_reachable (follows : Follows successors graph) :
    (∃ count, Hops successors root count node) ↔ graph.Reachable root node := by
  constructor
  · rintro ⟨count, reached⟩
    rcases reached.exists_walk follows with ⟨walk, -⟩
    exact walk.reachable
  · rintro ⟨walk⟩
    exact ⟨walk.length, hops_length follows walk⟩

end LevelSearch
