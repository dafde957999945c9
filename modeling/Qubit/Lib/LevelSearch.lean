import Mathlib.Data.Finset.Card
import Mathlib.Data.Finset.Union
import Mathlib.Data.Nat.Find
import Qubit.Lib.KeepFirst

/-!
# Searching a graph level by level

A breadth-first search that takes the whole frontier at once: every successor of a
frontier node that is not visited yet becomes visited, is recorded with the node it
was discovered from, and belongs to the next frontier. After a number of levels the
visited nodes are those within as many hops of the root, the frontier is the set of
nodes at exactly that distance, and the recorded discoveries form a tree of
shortest paths. More levels only add to all of this, until the frontier is empty.
-/

universe u

namespace LevelSearch

variable {A : Type u}

/-- `node` is reached from `root` in `count` hops. -/
inductive Hops (successors : A → List A) (root : A) : ℕ → A → Prop
  | root : Hops successors root 0 root
  | hop {count : ℕ} {node next : A} (reached : Hops successors root count node)
      (link : next ∈ successors node) : Hops successors root (count + 1) next

def Within (successors : A → List A) (root : A) (depth : ℕ) (node : A) : Prop :=
  ∃ count ≤ depth, Hops successors root count node

/-- The fewest hops from `root` to `node` are `distance`. -/
structure AtDistance (successors : A → List A) (root : A) (distance : ℕ) (node : A) : Prop where
  hops : Hops successors root distance node
  le_of_hops : ∀ count, Hops successors root count node → distance ≤ count

section Distance

variable {successors : A → List A} {root node : A} {depth : ℕ}

theorem AtDistance.within (atDistance : AtDistance successors root depth node) :
    Within successors root depth node :=
  ⟨depth, le_rfl, atDistance.hops⟩

theorem AtDistance.eq {distance : ℕ} (atDistance : AtDistance successors root depth node)
    (other : AtDistance successors root distance node) : depth = distance :=
  le_antisymm (atDistance.le_of_hops _ other.hops) (other.le_of_hops _ atDistance.hops)

/-- What is reached at all has a distance. -/
theorem Hops.exists_atDistance {count : ℕ} (reached : Hops successors root count node) :
    ∃ distance, AtDistance successors root distance node := by
  classical
  have reachable : ∃ count, Hops successors root count node := ⟨count, reached⟩
  exact ⟨Nat.find reachable, Nat.find_spec reachable, fun _ other => Nat.find_min' reachable other⟩

theorem Within.mono {deeper : ℕ} (le : depth ≤ deeper)
    (within : Within successors root depth node) : Within successors root deeper node := by
  rcases within with ⟨count, count_le, reached⟩
  exact ⟨count, count_le.trans le, reached⟩

@[simp]
theorem within_zero : Within successors root 0 node ↔ node = root := by
  constructor
  · rintro ⟨count, count_le, reached⟩
    cases reached with
    | root => rfl
    | hop => omega
  · rintro rfl
    exact ⟨0, le_rfl, Hops.root⟩

@[simp]
theorem atDistance_zero : AtDistance successors root 0 node ↔ node = root := by
  constructor
  · exact fun atDistance => within_zero.mp atDistance.within
  · rintro rfl
    exact ⟨Hops.root, fun _ _ => Nat.zero_le _⟩

theorem atDistance_succ_iff :
    AtDistance successors root (depth + 1) node ↔
      ¬Within successors root depth node ∧
        ∃ parent, AtDistance successors root depth parent ∧ node ∈ successors parent := by
  constructor
  · rintro ⟨reached, le_of_hops⟩
    refine ⟨?_, ?_⟩
    · rintro ⟨count, count_le, shorter⟩
      have := le_of_hops count shorter
      omega
    · cases reached with
      | @hop _ parent _ parentReached link =>
          refine ⟨parent, ⟨parentReached, ?_⟩, link⟩
          intro count shorter
          have := le_of_hops (count + 1) (shorter.hop link)
          omega
  · rintro ⟨not_within, parent, parentAt, link⟩
    refine ⟨parentAt.hops.hop link, ?_⟩
    intro count reached
    by_contra shorter
    exact not_within ⟨count, by omega, reached⟩

theorem within_succ_iff :
    Within successors root (depth + 1) node ↔
      Within successors root depth node ∨ AtDistance successors root (depth + 1) node := by
  constructor
  · intro within
    by_cases shorter : Within successors root depth node
    · exact Or.inl shorter
    · right
      rcases within with ⟨count, count_le, reached⟩
      have count_eq : count = depth + 1 := by
        by_contra ne
        exact shorter ⟨count, by omega, reached⟩
      subst count_eq
      refine ⟨reached, ?_⟩
      intro other otherReached
      by_contra lt
      exact shorter ⟨other, by omega, otherReached⟩
  · rintro (within | atDistance)
    · exact within.mono (Nat.le_succ depth)
    · exact atDistance.within

end Distance

/-! ## The search -/

/-- The visited nodes, the pairs of a node and what was discovered from it, and the frontier. -/
structure Search (A : Type u) where
  visited : Finset A
  edges : Finset (A × A)
  frontier : List A

def start (root : A) : Search A where
  visited := {root}
  edges := ∅
  frontier := [root]

/-- What the search knows after `depth` levels. -/
structure Explored (successors : A → List A) (root : A) (depth : ℕ) (search : Search A) :
    Prop where
  mem_visited : ∀ node, node ∈ search.visited ↔ Within successors root depth node
  mem_frontier : ∀ node, node ∈ search.frontier ↔ AtDistance successors root depth node
  edge_link : ∀ edge ∈ search.edges, edge.2 ∈ successors edge.1
  edge_distance : ∀ edge ∈ search.edges, ∃ distance < depth,
    AtDistance successors root distance edge.1 ∧
      AtDistance successors root (distance + 1) edge.2
  edge_unique : ∀ edge ∈ search.edges, ∀ other ∈ search.edges, edge.2 = other.2 → edge = other
  exists_edge : ∀ node ∈ search.visited, node ≠ root → ∃ edge ∈ search.edges, edge.2 = node

theorem explored_start (successors : A → List A) (root : A) :
    Explored successors root 0 (start root) where
  mem_visited := by simp [start]
  mem_frontier := by simp [start]
  edge_link := by simp [start]
  edge_distance := by simp [start]
  edge_unique := by simp [start]
  exists_edge := by
    intro node visited ne
    exact absurd (Finset.mem_singleton.mp visited) ne

/-- The links that one level looks at, in order. -/
def links (successors : A → List A) (frontier : List A) : List (A × A) :=
  frontier.flatMap fun node => (successors node).map (Prod.mk node)

theorem mem_links {successors : A → List A} {frontier : List A} {link : A × A} :
    link ∈ links successors frontier ↔ link.1 ∈ frontier ∧ link.2 ∈ successors link.1 := by
  rcases link with ⟨node, next⟩
  simp [links]

variable [DecidableEq A]

/-- Look at a successor `dst` of `node`. -/
def visit (node : A) (search : Search A) (dst : A) : Search A :=
  if dst ∈ search.visited then search
  else
    { visited := insert dst search.visited
      edges := insert (node, dst) search.edges
      frontier := search.frontier ++ [dst] }

/-- One level: the successors of the frontier, discovered into an empty next frontier. -/
def level (successors : A → List A) (search : Search A) : Search A :=
  search.frontier.foldl (fun progress node => (successors node).foldl (visit node) progress)
    { search with frontier := [] }

/-- At most `depth` levels, stopping at an empty frontier. -/
def levels (successors : A → List A) : ℕ → Search A → Search A
  | 0, search => search
  | depth + 1, search =>
      if search.frontier.isEmpty then search
      else levels successors depth (level successors search)

/-- Of these links, the first to each node not visited before. -/
def discoveries (successors : A → List A) (search : Search A) : List (A × A) :=
  KeepFirst.keep Prod.snd search.visited (links successors search.frontier)

theorem foldl_visit (pairs : List (A × A)) (search : Search A) :
    pairs.foldl (fun progress link => visit link.1 progress link.2) search =
      { visited := search.visited ∪
          ((KeepFirst.keep Prod.snd search.visited pairs).map Prod.snd).toFinset
        edges := search.edges ∪ (KeepFirst.keep Prod.snd search.visited pairs).toFinset
        frontier := search.frontier ++
          (KeepFirst.keep Prod.snd search.visited pairs).map Prod.snd } := by
  induction pairs generalizing search with
  | nil => simp [KeepFirst.keep]
  | cons link rest ih =>
      rw [List.foldl_cons, ih, KeepFirst.keep, visit]
      by_cases known : link.2 ∈ search.visited
      · simp [known]
      · simp [known, Finset.insert_union, ← Finset.union_insert]

theorem level_eq (successors : A → List A) (search : Search A) :
    level successors search =
      { visited := search.visited ∪ ((discoveries successors search).map Prod.snd).toFinset
        edges := search.edges ∪ (discoveries successors search).toFinset
        frontier := (discoveries successors search).map Prod.snd } := by
  have flattened : level successors search =
      (links successors search.frontier).foldl
        (fun progress link => visit link.1 progress link.2) { search with frontier := [] } := by
    rw [level, links, List.foldl_flatMap]
    simp only [List.foldl_map]
  rw [flattened, foldl_visit]
  rfl

theorem mem_discoveries_snd {successors : A → List A} {search : Search A} {node : A} :
    node ∈ (discoveries successors search).map Prod.snd ↔
      node ∉ search.visited ∧ ∃ parent ∈ search.frontier, node ∈ successors parent := by
  rw [List.mem_map]
  constructor
  · rintro ⟨link, kept, rfl⟩
    rcases KeepFirst.mem_of_mem_keep kept with ⟨listed, unknown⟩
    exact ⟨unknown, link.1, mem_links.mp listed⟩
  · rintro ⟨unknown, parent, parentMem, link⟩
    have listed : (parent, node) ∈ links successors search.frontier :=
      mem_links.mpr ⟨parentMem, link⟩
    have undiscovered : Prod.snd (parent, node) ∉ search.visited := unknown
    exact KeepFirst.exists_mem_keep listed undiscovered

namespace Explored

variable {successors : A → List A} {root : A} {depth : ℕ} {search : Search A}

theorem mem_discoveries_snd_iff (explored : Explored successors root depth search) {node : A} :
    node ∈ (discoveries successors search).map Prod.snd ↔
      AtDistance successors root (depth + 1) node := by
  simp only [mem_discoveries_snd, explored.mem_visited, explored.mem_frontier,
    atDistance_succ_iff]

/-- An old edge ends at a visited node, a new one does not. -/
theorem edge_ne_discovery (explored : Explored successors root depth search) {old new : A × A}
    (oldMem : old ∈ search.edges) (newMem : new ∈ discoveries successors search) :
    old.2 ≠ new.2 := by
  intro same
  rcases explored.edge_distance old oldMem with ⟨distance, distance_lt, -, atDistance⟩
  apply (KeepFirst.mem_of_mem_keep newMem).2
  rw [← same, explored.mem_visited]
  exact atDistance.within.mono (by omega)

theorem level (explored : Explored successors root depth search) :
    Explored successors root (depth + 1) (level successors search) := by
  rw [level_eq]
  constructor
  · intro node
    simp only [Finset.mem_union, List.mem_toFinset, explored.mem_discoveries_snd_iff,
      explored.mem_visited, within_succ_iff]
  · intro node
    exact explored.mem_discoveries_snd_iff
  · intro edge edgeMem
    rcases Finset.mem_union.mp edgeMem with old | new
    · exact explored.edge_link edge old
    · exact (mem_links.mp (KeepFirst.mem_of_mem_keep (List.mem_toFinset.mp new)).1).2
  · intro edge edgeMem
    rcases Finset.mem_union.mp edgeMem with old | new
    · rcases explored.edge_distance edge old with ⟨distance, distance_lt, ends⟩
      exact ⟨distance, by omega, ends⟩
    · have discovered := List.mem_toFinset.mp new
      have parentMem := (mem_links.mp (KeepFirst.mem_of_mem_keep discovered).1).1
      refine ⟨depth, by omega, (explored.mem_frontier _).mp parentMem, ?_⟩
      exact explored.mem_discoveries_snd_iff.mp (List.mem_map_of_mem discovered)
  · intro edge edgeMem other otherMem same
    rcases Finset.mem_union.mp edgeMem with old | new
    · rcases Finset.mem_union.mp otherMem with otherOld | otherNew
      · exact explored.edge_unique edge old other otherOld same
      · exact absurd same (explored.edge_ne_discovery old (List.mem_toFinset.mp otherNew))
    · rcases Finset.mem_union.mp otherMem with otherOld | otherNew
      · exact absurd same.symm (explored.edge_ne_discovery otherOld (List.mem_toFinset.mp new))
      · exact KeepFirst.eq_of_mem_keep (List.mem_toFinset.mp new)
          (List.mem_toFinset.mp otherNew) same
  · intro node visited ne
    rcases Finset.mem_union.mp visited with old | new
    · rcases explored.exists_edge node old ne with ⟨edge, edgeMem, same⟩
      exact ⟨edge, Finset.mem_union_left _ edgeMem, same⟩
    · rcases List.mem_map.mp (List.mem_toFinset.mp new) with ⟨edge, edgeMem, same⟩
      exact ⟨edge, Finset.mem_union_right _ (List.mem_toFinset.mpr edgeMem), same⟩

end Explored

theorem level_of_frontier_nil {successors : A → List A} {search : Search A}
    (finished : search.frontier = []) : level successors search = search := by
  cases search
  simp_all [level]

theorem levels_succ (successors : A → List A) (depth : ℕ) (search : Search A) :
    levels successors (depth + 1) search = levels successors depth (level successors search) := by
  rw [levels]
  split
  · rename_i finished
    have same : level successors search = search :=
      level_of_frontier_nil (List.isEmpty_iff.mp finished)
    rw [same]
    cases depth with
    | zero => rfl
    | succ depth => rw [levels, if_pos finished]
  · rfl

/-- The early exit only skips levels that change nothing. -/
theorem levels_succ_eq_level (successors : A → List A) (depth : ℕ) (search : Search A) :
    levels successors (depth + 1) search = level successors (levels successors depth search) := by
  induction depth generalizing search with
  | zero =>
      rw [levels_succ]
      rfl
  | succ depth ih => rw [levels_succ, ih, levels_succ]

theorem explored_levels (successors : A → List A) (root : A) (depth : ℕ) :
    Explored successors root depth (levels successors depth (start root)) := by
  induction depth with
  | zero => exact explored_start successors root
  | succ depth ih =>
      rw [levels_succ_eq_level]
      exact ih.level

theorem visited_subset_succ (successors : A → List A) (depth : ℕ) (search : Search A) :
    (levels successors depth search).visited ⊆ (levels successors (depth + 1) search).visited := by
  rw [levels_succ_eq_level, level_eq]
  exact Finset.subset_union_left

theorem edges_subset_succ (successors : A → List A) (depth : ℕ) (search : Search A) :
    (levels successors depth search).edges ⊆ (levels successors (depth + 1) search).edges := by
  rw [levels_succ_eq_level, level_eq]
  exact Finset.subset_union_left

/-- While the frontier is not empty, every level has visited a node of its own. -/
theorem lt_card_visited {successors : A → List A} {root : A} {depth : ℕ}
    (unfinished : (levels successors depth (start root)).frontier ≠ []) :
    depth < (levels successors depth (start root)).visited.card := by
  induction depth with
  | zero => simp [levels, start]
  | succ depth ih =>
      rw [levels_succ_eq_level] at unfinished ⊢
      have earlier : (levels successors depth (start root)).frontier ≠ [] := by
        intro finished
        rw [level_of_frontier_nil finished] at unfinished
        exact unfinished finished
      have counted := ih earlier
      rw [level_eq] at unfinished ⊢
      rcases List.exists_mem_of_ne_nil _ unfinished with ⟨node, discovered⟩
      have grown : (levels successors depth (start root)).visited ⊂
          (levels successors depth (start root)).visited ∪
            ((discoveries successors (levels successors depth (start root))).map
              Prod.snd).toFinset := by
        refine Finset.ssubset_iff_subset_ne.mpr ⟨Finset.subset_union_left, ?_⟩
        intro same
        apply (mem_discoveries_snd.mp discovered).1
        rw [same]
        exact Finset.mem_union_right _ (List.mem_toFinset.mpr discovered)
      exact (Nat.succ_le_of_lt counted).trans_lt (Finset.card_lt_card grown)

/-- Once the frontier is empty, further levels change nothing. -/
theorem levels_eq_of_finished {successors : A → List A} {depth deeper : ℕ} {search : Search A}
    (finished : (levels successors depth search).frontier = []) (le : depth ≤ deeper) :
    levels successors deeper search = levels successors depth search := by
  induction deeper, le using Nat.le_induction with
  | base => rfl
  | succ deeper _ ih => rw [levels_succ_eq_level, ih, level_of_frontier_nil finished]

/-- A search with an empty frontier has visited what can be reached at all. -/
theorem mem_visited_of_finished {successors : A → List A} {root node : A} {depth : ℕ}
    (finished : (levels successors depth (start root)).frontier = []) {count : ℕ}
    (reached : Hops successors root count node) :
    node ∈ (levels successors depth (start root)).visited := by
  have explored := explored_levels successors root (max depth count)
  rw [levels_eq_of_finished finished (le_max_left depth count)] at explored
  exact (explored.mem_visited node).mpr ⟨count, le_max_right depth count, reached⟩

/-- In a finite graph the search ends within as many levels as there are nodes. -/
theorem levels_eq_of_card_le {successors : A → List A} {root : A} {nodes : Finset A}
    (bounded : ∀ depth node, Within successors root depth node → node ∈ nodes) {depth : ℕ}
    (card_le : nodes.card ≤ depth) :
    levels successors depth (start root) = levels successors nodes.card (start root) := by
  apply levels_eq_of_finished _ card_le
  by_contra unfinished
  have counted := lt_card_visited unfinished
  have visited_subset : (levels successors nodes.card (start root)).visited ⊆ nodes := by
    intro node visited
    exact bounded _ node (((explored_levels successors root _).mem_visited node).mp visited)
  have := Finset.card_le_card visited_subset
  omega

end LevelSearch
