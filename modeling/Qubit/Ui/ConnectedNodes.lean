import Qubit.Lib.Loop
import Qubit.Lib.Walks
import Qubit.Ui.TopologyUtils

/-!
# The neighbourhood of a node

The view shows the nodes around a selected one up to some hops, or without a bound, and
follows the connections in both directions. One round of the loop is a level of the
search over the neighbours, although the visited ids grow while the frontier is swept. A
frontier that is not empty has ids that no earlier round had, so the rounds are at most
as many as there are ids, whatever the bound is.
-/

namespace Qubit.Ui

open LevelSearch (Hops levels start)

/-- The other end of a connection that has the id at one of its ends. -/
def neighbor? (c : ServiceConnection) (id : String) : Option String :=
  if c.source = id then some c.target
  else if c.target = id then some c.source
  else none

/-- The visited ids, and those among them that were found in the current round. -/
structure Expansion where
  visited : Finset String
  next : List String

def Expansion.follow (id : String) (expansion : Expansion) (c : ServiceConnection) : Expansion :=
  -- an empty id is as falsy as `null`
  match (neighbor? c id).filter (· ≠ "") with
  | none => expansion
  | some neighbor =>
      if neighbor ∈ expansion.visited then expansion
      else
        { visited := insert neighbor expansion.visited
          next := expansion.next ++ [neighbor] }

/-- The variables of the loop. -/
structure Sweep where
  d : ℕ
  visited : Finset String
  frontier : List String

/-- One round of the loop, or the visited ids when it is left. -/
def Sweep.round (connections : List ServiceConnection) (depth : ℕ∞) (sweep : Sweep) :
    Sweep ⊕ Finset String :=
  if sweep.d < depth then
    if sweep.frontier.isEmpty then .inr sweep.visited
    else
      let expansion := sweep.frontier.foldl
        (fun expansion id => connections.foldl (Expansion.follow id) expansion)
        { visited := sweep.visited, next := [] }
      .inl { d := sweep.d + 1, visited := expansion.visited, frontier := expansion.next }
  else .inr sweep.visited

/-- The result of the search, if the loop is left within `fuel` rounds. -/
def getConnectedNodeIdsAtDepth (nodeId : String) (connections : List ServiceConnection)
    (depth : ℕ∞) (fuel : ℕ) : Option (Finset String) :=
  Loop.run (Sweep.round connections depth) fuel
    { d := 0, visited := {nodeId}, frontier := [nodeId] }

/-- The neighbours of a node, one for each connection at it. -/
def neighbors (connections : List ServiceConnection) (id : String) : List String :=
  connections.filterMap fun c => (neighbor? c id).filter (· ≠ "")

/-- The start node and the ends of the connections. -/
def idsAround (nodeId : String) (connections : List ServiceConnection) : Finset String :=
  insert nodeId (connections.flatMap fun c => [c.source, c.target]).toFinset

/-- The ids are joined in pairs by the connections, whichever way these point. -/
def connectionGraph (connections : List ServiceConnection) : SimpleGraph String :=
  SimpleGraph.fromRel fun id other => ∃ c ∈ connections, c.source = id ∧ c.target = other

section Search

variable {connections : List ServiceConnection} {nodeId : String}

theorem mem_neighbors {id next : String} :
    next ∈ neighbors connections id ↔
      ∃ c ∈ connections, neighbor? c id = some next ∧ next ≠ "" := by
  simp [neighbors, Option.filter_eq_some_iff]

theorem neighbor?_eq_some_iff {c : ServiceConnection} {id next : String} (ne : id ≠ next) :
    neighbor? c id = some next ↔
      (c.source = id ∧ c.target = next) ∨ (c.source = next ∧ c.target = id) := by
  unfold neighbor?
  by_cases source : c.source = id
  · simp [source, ne]
  · by_cases target : c.target = id
    · simp [source, target]
    · simp [source, target]

theorem isEnd_of_neighbor? {c : ServiceConnection} {id next : String}
    (neighbor : neighbor? c id = some next) : next = c.source ∨ next = c.target := by
  unfold neighbor? at neighbor
  split at neighbor
  · right
    exact (Option.some.inj neighbor).symm
  · left
    rw [Option.ite_none_right_eq_some] at neighbor
    exact (Option.some.inj neighbor.2).symm

/-- Without empty ids the neighbours are those of the graph. -/
theorem follows_neighbors
    (nonempty : ∀ c ∈ connections, c.source ≠ "" ∧ c.target ≠ "") :
    LevelSearch.Follows (neighbors connections) (connectionGraph connections) := by
  intro id next ne
  simp only [mem_neighbors, neighbor?_eq_some_iff ne, connectionGraph, SimpleGraph.fromRel_adj]
  constructor
  · rintro ⟨c, listed, ends | ends, -⟩
    · exact ⟨ne, Or.inl ⟨c, listed, ends⟩⟩
    · exact ⟨ne, Or.inr ⟨c, listed, ends⟩⟩
  · rintro ⟨-, ⟨c, listed, source, target⟩ | ⟨c, listed, source, target⟩⟩
    · exact ⟨c, listed, Or.inl ⟨source, target⟩, target ▸ (nonempty c listed).2⟩
    · exact ⟨c, listed, Or.inr ⟨source, target⟩, source ▸ (nonempty c listed).1⟩

theorem mem_idsAround_of_hops {count : ℕ} {id : String}
    (reached : Hops (neighbors connections) nodeId count id) :
    id ∈ idsAround nodeId connections := by
  cases reached with
  | root => simp [idsAround]
  | hop _ link =>
      rcases mem_neighbors.mp link with ⟨c, listed, neighbor, -⟩
      apply Finset.mem_insert_of_mem
      simp only [List.mem_toFinset, List.mem_flatMap, List.mem_cons, List.not_mem_nil, or_false]
      exact ⟨c, listed, isEnd_of_neighbor? neighbor⟩

/-! ## A round is a level -/

/-- What a round has found so far, as the search keeps it. -/
def expansionOf (search : LevelSearch.Search String) : Expansion where
  visited := search.visited
  next := search.frontier

theorem foldl_follow (connections : List ServiceConnection) (id : String)
    (search : LevelSearch.Search String) :
    connections.foldl (Expansion.follow id) (expansionOf search) =
      expansionOf ((neighbors connections id).foldl (LevelSearch.visit id) search) := by
  rw [neighbors, List.foldl_filterMap]
  apply List.foldl_hom expansionOf
  intro search c
  unfold Expansion.follow
  cases (neighbor? c id).filter (· ≠ "") with
  | none => rfl
  | some neighbor =>
      by_cases known : neighbor ∈ search.visited
      · simp [LevelSearch.visit, expansionOf, known]
      · simp [LevelSearch.visit, expansionOf, known]

theorem foldl_frontier (connections : List ServiceConnection)
    (search : LevelSearch.Search String) :
    search.frontier.foldl (fun expansion id => connections.foldl (Expansion.follow id) expansion)
        { visited := search.visited, next := [] } =
      expansionOf (LevelSearch.level (neighbors connections) search) := by
  have nothingFound : { visited := search.visited, next := [] } =
      expansionOf { search with frontier := [] } := rfl
  rw [nothingFound, LevelSearch.level]
  apply List.foldl_hom expansionOf
  intro search id
  exact foldl_follow connections id search

/-- The variables of the loop after some rounds. -/
def sweepAfter (nodeId : String) (connections : List ServiceConnection) (d : ℕ) : Sweep where
  d := d
  visited := (levels (neighbors connections) d (start nodeId)).visited
  frontier := (levels (neighbors connections) d (start nodeId)).frontier

/-- While the bound and the frontier allow it, the loop goes on with the next level. -/
theorem round_eq_inl {depth : ℕ∞} {d : ℕ} (lt : d < depth)
    (unfinished : (sweepAfter nodeId connections d).frontier ≠ []) :
    Sweep.round connections depth (sweepAfter nodeId connections d) =
      .inl (sweepAfter nodeId connections (d + 1)) := by
  have found := foldl_frontier connections (levels (neighbors connections) d (start nodeId))
  rw [← LevelSearch.levels_succ_eq_level] at found
  have going : ((sweepAfter nodeId connections d).d : ℕ∞) < depth := lt
  rw [Sweep.round, if_pos going, if_neg (mt List.isEmpty_iff.mp unfinished)]
  simp only [sweepAfter, found]
  rfl

/-- Otherwise it is left with the visited ids. -/
theorem round_eq_inr {depth : ℕ∞} {d : ℕ}
    (left : ¬((d : ℕ∞) < depth ∧ (sweepAfter nodeId connections d).frontier ≠ [])) :
    Sweep.round connections depth (sweepAfter nodeId connections d) =
      .inr (sweepAfter nodeId connections d).visited := by
  unfold Sweep.round
  by_cases lt : ((sweepAfter nodeId connections d).d : ℕ∞) < depth
  · have finished : (sweepAfter nodeId connections d).frontier = [] := by
      by_contra unfinished
      exact left ⟨lt, unfinished⟩
    simp [finished]
  · simp [lt]

/-- A frontier that is not empty has used up one id for each round. -/
theorem lt_card_idsAround {d : ℕ}
    (unfinished : (sweepAfter nodeId connections d).frontier ≠ []) :
    d < (idsAround nodeId connections).card := by
  have counted := LevelSearch.lt_card_visited unfinished
  have explored := LevelSearch.explored_levels (neighbors connections) nodeId d
  have visited_subset : (sweepAfter nodeId connections d).visited ⊆
      idsAround nodeId connections := by
    intro id visited
    rcases (explored.mem_visited id).mp visited with ⟨count, -, reached⟩
    exact mem_idsAround_of_hops reached
  have card_le := Finset.card_le_card visited_subset
  exact counted.trans_le card_le

/-- When the loop is left, the visited ids are those within the bound. -/
theorem mem_visited_iff {depth : ℕ∞} {d : ℕ} (le : d ≤ depth)
    (left : ¬((d : ℕ∞) < depth ∧ (sweepAfter nodeId connections d).frontier ≠ [])) {id : String} :
    id ∈ (sweepAfter nodeId connections d).visited ↔
      ∃ count : ℕ, count ≤ depth ∧ Hops (neighbors connections) nodeId count id := by
  have explored := LevelSearch.explored_levels (neighbors connections) nodeId d
  constructor
  · intro visited
    rcases (explored.mem_visited id).mp visited with ⟨count, count_le, reached⟩
    exact ⟨count, (Nat.cast_le.mpr count_le).trans le, reached⟩
  · rintro ⟨count, count_le, reached⟩
    by_cases finished : (sweepAfter nodeId connections d).frontier = []
    · exact LevelSearch.mem_visited_of_finished finished reached
    · -- The loop was left at its bound, so the hops are at most as many as the rounds.
      have bound : depth ≤ d := not_lt.mp fun lt => left ⟨lt, finished⟩
      exact (explored.mem_visited id).mpr ⟨count, Nat.cast_le.mp (count_le.trans bound), reached⟩

/-- The invariant of the loop: its variables are those after some rounds within the bound. -/
structure Sweep.IsLevel (nodeId : String) (connections : List ServiceConnection) (depth : ℕ∞)
    (sweep : Sweep) : Prop where
  le : sweep.d ≤ depth
  eq : sweep = sweepAfter nodeId connections sweep.d

/-- A round that goes on keeps the invariant and uses up an id. -/
theorem isLevel_of_round {depth : ℕ∞} {sweep next : Sweep}
    (isLevel : sweep.IsLevel nodeId connections depth)
    (goesOn : sweep.round connections depth = .inl next) :
    next.IsLevel nodeId connections depth ∧
      (idsAround nodeId connections).card - next.d <
        (idsAround nodeId connections).card - sweep.d := by
  rw [isLevel.eq] at goesOn
  by_cases inside : sweep.d < depth ∧ (sweepAfter nodeId connections sweep.d).frontier ≠ []
  · rcases inside with ⟨lt, unfinished⟩
    rw [round_eq_inl lt unfinished] at goesOn
    obtain rfl := Sum.inl.inj goesOn
    have bound := lt_card_idsAround unfinished
    constructor
    · refine ⟨?_, rfl⟩
      exact_mod_cast Order.add_one_le_of_lt lt
    · simp only [sweepAfter]
      omega
  · rw [round_eq_inr inside] at goesOn
    exact absurd goesOn Sum.inr_ne_inl

/-- A round that leaves the loop has visited the ids within the bound. -/
theorem mem_of_round {depth : ℕ∞} {sweep : Sweep} {visited : Finset String}
    (isLevel : sweep.IsLevel nodeId connections depth)
    (leaves : sweep.round connections depth = .inr visited) (id : String) :
    id ∈ visited ↔ ∃ count : ℕ, count ≤ depth ∧ Hops (neighbors connections) nodeId count id := by
  rw [isLevel.eq] at leaves
  by_cases inside : sweep.d < depth ∧ (sweepAfter nodeId connections sweep.d).frontier ≠ []
  · rw [round_eq_inl inside.1 inside.2] at leaves
    exact absurd leaves Sum.inl_ne_inr
  · rw [round_eq_inr inside] at leaves
    obtain rfl := Sum.inr.inj leaves
    exact mem_visited_iff isLevel.le inside

/-- The loop is left after finitely many rounds with the ids within the bound. -/
theorem exists_getConnectedNodeIdsAtDepth (nodeId : String) (connections : List ServiceConnection)
    (depth : ℕ∞) :
    ∃ visited, (∀ id, id ∈ visited ↔
        ∃ count : ℕ, count ≤ depth ∧ Hops (neighbors connections) nodeId count id) ∧
      ∀ fuel, (idsAround nodeId connections).card < fuel →
        getConnectedNodeIdsAtDepth nodeId connections depth fuel = some visited := by
  have started : (sweepAfter nodeId connections 0).IsLevel nodeId connections depth := by
    refine ⟨?_, rfl⟩
    exact zero_le
  exact Loop.exists_run (fun _ _ => isLevel_of_round) (fun _ _ => mem_of_round) started

/-- Without empty ids the ids found are those at the end of a path that is no longer than
the bound, and without a bound they are the connected component of the start node. -/
theorem getConnectedNodeIdsAtDepth_exact (nodeId : String) (connections : List ServiceConnection)
    (depth : ℕ∞) (nonempty : ∀ c ∈ connections, c.source ≠ "" ∧ c.target ≠ "") :
    ∃ visited : Finset String,
      (∀ fuel, (idsAround nodeId connections).card < fuel →
        getConnectedNodeIdsAtDepth nodeId connections depth fuel = some visited) ∧
      (∀ id, id ∈ visited ↔
        ∃ path : (connectionGraph connections).Walk nodeId id,
          path.IsPath ∧ path.length ≤ depth) ∧
      (depth = ⊤ → (visited : Set String) =
        ((connectionGraph connections).connectedComponentMk nodeId).supp) := by
  rcases exists_getConnectedNodeIdsAtDepth nodeId connections depth with
    ⟨visited, mem_visited, returned⟩
  have follows := follows_neighbors nonempty
  refine ⟨visited, returned, ?_, ?_⟩
  · intro id
    rw [mem_visited, LevelSearch.exists_hops_iff_exists_path follows]
  · rintro rfl
    ext id
    simp only [Finset.mem_coe, mem_visited, le_top, true_and,
      LevelSearch.exists_hops_iff_reachable follows]
    rw [SimpleGraph.ConnectedComponent.mem_supp_iff, SimpleGraph.ConnectedComponent.eq]
    exact SimpleGraph.reachable_comm

/-- A web service that calls itself, and a job that calls the same database. -/
def sharedDatabase : List ServiceConnection :=
  [⟨"prod/web", "prod/web", .downstream⟩, ⟨"prod/web", "prod/db", .upstream⟩,
    ⟨"batch/job", "prod/db", .upstream⟩, ⟨"batch/cron", "batch/sink", .upstream⟩]

theorem getConnectedNodeIdsAtDepth_sharedDatabase :
    ∃ visited : Finset String,
      (∀ fuel, (idsAround "prod/web" sharedDatabase).card < fuel →
        getConnectedNodeIdsAtDepth "prod/web" sharedDatabase ⊤ fuel = some visited) ∧
      (∀ id, id ∈ visited ↔
        ∃ path : (connectionGraph sharedDatabase).Walk "prod/web" id,
          path.IsPath ∧ path.length ≤ (⊤ : ℕ∞)) ∧
      ((⊤ : ℕ∞) = ⊤ → (visited : Set String) =
        ((connectionGraph sharedDatabase).connectedComponentMk "prod/web").supp) :=
  getConnectedNodeIdsAtDepth_exact "prod/web" sharedDatabase ⊤ (by decide)

example : getConnectedNodeIdsAtDepth "prod/web" sharedDatabase ⊤ 6 =
    some {"prod/web", "prod/db", "batch/job"} := by
  decide

end Search

end Qubit.Ui
