import Qubit.Lib.LevelSearch
import Qubit.Ui.TopologyUtils

/-!
# Layers are distances

The search for layers takes ids from a queue one by one. Along the queue the layers do
not fall, every layer assigned so far is at most one above that of the first id of the
queue, and the ids already taken from it have layers for all their targets. When the
queue is empty the layer of an id is therefore its distance from the root over
downstream connections.
-/

namespace Qubit.Ui

open LevelSearch (Hops AtDistance)

/-- The ids that the downstream connections of an id lead to. -/
def targetsOf (connections : List ServiceConnection) (id : String) : List String :=
  (connections.filter fun connection =>
    connection.source = id ∧ connection.type = .downstream).map (·.target)

namespace Layering

def layerOf (layering : Layering) (id : String) : Nat :=
  (layering.layerMap.lookup id).getD 0

theorem layerOf_eq {layering : Layering} {id : String} {layer : Nat}
    (found : layering.layerMap.lookup id = some layer) : layering.layerOf id = layer := by
  simp [layerOf, found]

theorem lookup_eq_layerOf {layering : Layering} {id : String} (known : id ∈ layering.layerMap) :
    layering.layerMap.lookup id = some (layering.layerOf id) := by
  rcases Finmap.mem_iff.mp known with ⟨layer, found⟩
  rw [layerOf_eq found, found]

theorem lookup_foldl_visit (currentLayer : Nat) (followed : List ServiceConnection)
    (layering : Layering) (id : String) :
    (followed.foldl (visit currentLayer) layering).layerMap.lookup id =
      (layering.layerMap.lookup id).or
        (if id ∈ followed.map (·.target) then some (currentLayer + 1) else none) := by
  induction followed generalizing layering with
  | nil => simp
  | cons connection rest ih =>
      rw [List.foldl_cons, ih, visit]
      by_cases known : connection.target ∈ layering.layerMap
      · by_cases same : id = connection.target
        · subst same
          rcases Finmap.mem_iff.mp known with ⟨layer, found⟩
          simp [known, found]
        · simp [known, same]
      · by_cases same : id = connection.target
        · subst same
          simp [known, Finmap.lookup_eq_none.mpr known]
        · simp [known, same, Finmap.lookup_insert_of_ne]

theorem queue_foldl_visit (currentLayer : Nat) (followed : List ServiceConnection)
    (layering : Layering) :
    ∃ fresh, (followed.foldl (visit currentLayer) layering).queue = layering.queue ++ fresh ∧
      ∀ id, id ∈ fresh ↔ id ∉ layering.layerMap ∧ id ∈ followed.map (·.target) := by
  induction followed generalizing layering with
  | nil => exact ⟨[], by simp⟩
  | cons connection rest ih =>
      rw [List.foldl_cons, visit]
      by_cases known : connection.target ∈ layering.layerMap
      · rw [if_pos known]
        rcases ih layering with ⟨fresh, queue_eq, mem_fresh⟩
        refine ⟨fresh, queue_eq, ?_⟩
        intro id
        rw [mem_fresh, List.map_cons, List.mem_cons]
        constructor
        · exact fun ⟨unknown, later⟩ => ⟨unknown, Or.inr later⟩
        · rintro ⟨unknown, rfl | later⟩
          · exact absurd known unknown
          · exact ⟨unknown, later⟩
      · rw [if_neg known]
        rcases ih
          { layerMap := layering.layerMap.insert connection.target (currentLayer + 1)
            queue := layering.queue ++ [connection.target] } with ⟨fresh, queue_eq, mem_fresh⟩
        refine ⟨connection.target :: fresh, ?_, ?_⟩
        · rw [queue_eq, List.append_assoc, List.singleton_append]
        · intro id
          rw [List.mem_cons, mem_fresh, List.map_cons, List.mem_cons, Finmap.mem_insert]
          by_cases same : id = connection.target
          · simp [same, known]
          · simp [same]

/-- What the search has established about the layers and the queue. -/
structure Searched (connections : List ServiceConnection) (root : String) (layering : Layering) :
    Prop where
  lookup_root : layering.layerMap.lookup root = some 0
  hops : ∀ id ∈ layering.layerMap, Hops (targetsOf connections) root (layering.layerOf id) id
  queued : ∀ id ∈ layering.queue, id ∈ layering.layerMap
  ordered : layering.queue.Pairwise fun id later => layering.layerOf id ≤ layering.layerOf later
  near : ∀ first rest, layering.queue = first :: rest → ∀ id ∈ layering.layerMap,
    layering.layerOf id ≤ layering.layerOf first + 1
  closed : ∀ id ∈ layering.layerMap, id ∉ layering.queue → ∀ next ∈ targetsOf connections id,
    next ∈ layering.layerMap ∧ layering.layerOf next ≤ layering.layerOf id + 1

theorem searched_start (connections : List ServiceConnection) (root : String) :
    Searched connections root
      { layerMap := Finmap.singleton root 0, queue := [root] } where
  lookup_root := Finmap.lookup_singleton_eq
  hops := by
    intro id known
    rw [Finmap.mem_singleton] at known
    subst known
    rw [layerOf_eq Finmap.lookup_singleton_eq]
    exact Hops.root
  queued := by
    intro id queued
    rw [Finmap.mem_singleton]
    exact List.mem_singleton.mp queued
  ordered := List.pairwise_singleton _ _
  near := by
    intro first rest queue_eq id known
    rw [Finmap.mem_singleton] at known
    subst known
    rw [layerOf_eq Finmap.lookup_singleton_eq]
    exact Nat.zero_le _
  closed := by
    intro id known unqueued
    rw [Finmap.mem_singleton] at known
    exact absurd (List.mem_singleton.mpr known) unqueued

section Round

variable {connections : List ServiceConnection} {layering : Layering} {current : String}
  {queue : List String}

theorem lookup_round (waiting : layering.queue = current :: queue) (id : String) :
    (layering.round connections).layerMap.lookup id =
      (layering.layerMap.lookup id).or
        (if id ∈ targetsOf connections current then some (layering.layerOf current + 1)
          else none) := by
  simp only [round, waiting]
  exact lookup_foldl_visit ..

theorem queue_round (connections : List ServiceConnection)
    (waiting : layering.queue = current :: queue) :
    ∃ fresh, (layering.round connections).queue = queue ++ fresh ∧
      ∀ id, id ∈ fresh ↔ id ∉ layering.layerMap ∧ id ∈ targetsOf connections current := by
  simp only [round, waiting]
  exact queue_foldl_visit ..

theorem mem_round (waiting : layering.queue = current :: queue) {id : String} :
    id ∈ (layering.round connections).layerMap ↔
      id ∈ layering.layerMap ∨ id ∈ targetsOf connections current := by
  rw [← Finmap.lookup_isSome, ← Finmap.lookup_isSome, lookup_round waiting]
  by_cases target : id ∈ targetsOf connections current
  · simp [target]
  · simp [target]

theorem layerOf_round_of_mem (waiting : layering.queue = current :: queue) {id : String}
    (known : id ∈ layering.layerMap) :
    (layering.round connections).layerOf id = layering.layerOf id := by
  apply layerOf_eq
  rw [lookup_round waiting, lookup_eq_layerOf known, Option.some_or]

theorem layerOf_round_of_notMem (waiting : layering.queue = current :: queue) {id : String}
    (unknown : id ∉ layering.layerMap) (target : id ∈ targetsOf connections current) :
    (layering.round connections).layerOf id = layering.layerOf current + 1 := by
  apply layerOf_eq
  rw [lookup_round waiting, Finmap.lookup_eq_none.mpr unknown, Option.none_or, if_pos target]

/-- After the round every layer is at most one above that of the id taken from the queue. -/
theorem Searched.layerOf_round_le {root : String} (searched : Searched connections root layering)
    (waiting : layering.queue = current :: queue) {id : String}
    (known : id ∈ (layering.round connections).layerMap) :
    (layering.round connections).layerOf id ≤ layering.layerOf current + 1 := by
  by_cases old : id ∈ layering.layerMap
  · rw [layerOf_round_of_mem waiting old]
    exact searched.near current queue waiting id old
  · have target := ((mem_round waiting).mp known).resolve_left old
    rw [layerOf_round_of_notMem waiting old target]

theorem Searched.queueKnown {root : String} (searched : Searched connections root layering)
    (waiting : layering.queue = current :: queue) : ∀ id ∈ queue, id ∈ layering.layerMap :=
  fun id queued => searched.queued id (by simp [waiting, queued])

/-- Along the new queue the layers are at least that of the id taken from it. -/
theorem Searched.le_layerOf_round {root : String} (searched : Searched connections root layering)
    (waiting : layering.queue = current :: queue) :
    ∀ id ∈ (layering.round connections).queue,
      layering.layerOf current ≤ (layering.round connections).layerOf id := by
  rcases queue_round connections waiting with ⟨fresh, queue_eq, mem_fresh⟩
  have ordered := searched.ordered
  rw [waiting, List.pairwise_cons] at ordered
  intro id queued
  rw [queue_eq, List.mem_append] at queued
  rcases queued with old | isFresh
  · rw [layerOf_round_of_mem waiting (searched.queueKnown waiting id old)]
    exact ordered.1 id old
  · rcases (mem_fresh id).mp isFresh with ⟨unknown, target⟩
    rw [layerOf_round_of_notMem waiting unknown target]
    exact Nat.le_succ _

theorem Searched.ordered_round {root : String} (searched : Searched connections root layering)
    (waiting : layering.queue = current :: queue) :
    (layering.round connections).queue.Pairwise fun id later =>
      (layering.round connections).layerOf id ≤ (layering.round connections).layerOf later := by
  rcases queue_round connections waiting with ⟨fresh, queue_eq, mem_fresh⟩
  have ordered := searched.ordered
  rw [waiting, List.pairwise_cons] at ordered
  have freshLayer : ∀ id ∈ fresh,
      (layering.round connections).layerOf id = layering.layerOf current + 1 := by
    intro id isFresh
    rcases (mem_fresh id).mp isFresh with ⟨unknown, target⟩
    exact layerOf_round_of_notMem waiting unknown target
  rw [queue_eq, List.pairwise_append]
  refine ⟨?_, ?_, ?_⟩
  · refine ordered.2.imp_of_mem ?_
    intro id later queued laterQueued le
    rwa [layerOf_round_of_mem waiting (searched.queueKnown waiting id queued),
      layerOf_round_of_mem waiting (searched.queueKnown waiting later laterQueued)]
  · refine List.pairwise_of_forall_mem_list ?_
    intro id isFresh later laterFresh
    rw [freshLayer id isFresh, freshLayer later laterFresh]
  · intro id queued later laterFresh
    rw [freshLayer later laterFresh]
    exact searched.layerOf_round_le waiting
      ((mem_round waiting).mpr (Or.inl (searched.queueKnown waiting id queued)))

theorem Searched.closed_round {root : String} (searched : Searched connections root layering)
    (waiting : layering.queue = current :: queue) {id next : String}
    (known : id ∈ (layering.round connections).layerMap)
    (unqueued : id ∉ (layering.round connections).queue)
    (target : next ∈ targetsOf connections id) :
    next ∈ (layering.round connections).layerMap ∧
      (layering.round connections).layerOf next ≤
        (layering.round connections).layerOf id + 1 := by
  rcases queue_round connections waiting with ⟨fresh, queue_eq, mem_fresh⟩
  rw [queue_eq, List.mem_append, mem_fresh, not_or, not_and] at unqueued
  have old : id ∈ layering.layerMap := by
    by_contra unknown
    exact unqueued.2 unknown (((mem_round waiting).mp known).resolve_left unknown)
  rw [layerOf_round_of_mem waiting old]
  by_cases isCurrent : id = current
  · subst isCurrent
    have nextKnown : next ∈ (layering.round connections).layerMap :=
      (mem_round waiting).mpr (Or.inr target)
    exact ⟨nextKnown, searched.layerOf_round_le waiting nextKnown⟩
  · have notWaiting : id ∉ layering.queue := by
      simp [waiting, isCurrent, unqueued.1]
    rcases searched.closed id old notWaiting next target with ⟨nextKnown, next_le⟩
    rw [mem_round waiting, layerOf_round_of_mem waiting nextKnown]
    exact ⟨Or.inl nextKnown, next_le⟩

theorem Searched.round {root : String} (searched : Searched connections root layering)
    (waiting : layering.queue = current :: queue) :
    Searched connections root (layering.round connections) where
  lookup_root := by rw [lookup_round waiting, searched.lookup_root, Option.some_or]
  hops := by
    intro id known
    by_cases old : id ∈ layering.layerMap
    · rw [layerOf_round_of_mem waiting old]
      exact searched.hops id old
    · have target := ((mem_round waiting).mp known).resolve_left old
      have currentKnown := searched.queued current (by simp [waiting])
      rw [layerOf_round_of_notMem waiting old target]
      exact (searched.hops current currentKnown).hop target
  queued := by
    rcases queue_round connections waiting with ⟨fresh, queue_eq, mem_fresh⟩
    intro id queued
    rw [queue_eq, List.mem_append, mem_fresh] at queued
    rw [mem_round waiting]
    rcases queued with old | ⟨-, target⟩
    · exact Or.inl (searched.queueKnown waiting id old)
    · exact Or.inr target
  ordered := searched.ordered_round waiting
  near := by
    intro first rest first_eq id known
    have le_first := searched.le_layerOf_round waiting first (by simp [first_eq])
    have le_current := searched.layerOf_round_le waiting known
    omega
  closed := fun _ known unqueued _ target => searched.closed_round waiting known unqueued target

end Round

theorem searched_iterate_round (connections : List ServiceConnection) (root : String)
    (rounds : Nat) :
    Searched connections root ((round connections)^[rounds]
      { layerMap := Finmap.singleton root 0, queue := [root] }) := by
  induction rounds with
  | zero => exact searched_start connections root
  | succ rounds ih =>
      rw [Function.iterate_succ_apply']
      cases waiting : ((round connections)^[rounds]
          { layerMap := Finmap.singleton root 0, queue := [root] }).queue with
      | nil =>
          simp only [round, waiting]
          exact ih
      | cons current queue => exact ih.round waiting

/-- With an empty queue every id in reach has a layer, and no larger one than its hops. -/
theorem Searched.layerOf_le_of_hops {connections : List ServiceConnection} {root : String}
    {layering : Layering} (searched : Searched connections root layering)
    (finished : layering.queue = []) {count : Nat} {id : String}
    (reached : Hops (targetsOf connections) root count id) :
    id ∈ layering.layerMap ∧ layering.layerOf id ≤ count := by
  induction reached with
  | root =>
      refine ⟨Finmap.mem_of_lookup_eq_some searched.lookup_root, ?_⟩
      rw [layerOf_eq searched.lookup_root]
  | @hop count node next _ link ih =>
      rcases searched.closed node ih.1 (by simp [finished]) next link with ⟨known, next_le⟩
      exact ⟨known, by omega⟩

end Layering

/-- The layers found from a root are the distances from it over downstream connections. -/
theorem lookup_layersFrom_iff {connections : List ServiceConnection} {root id : String}
    {layer : Nat} :
    (layersFrom connections root).lookup id = some layer ↔
      AtDistance (targetsOf connections) root layer id := by
  have searched := Layering.searched_iterate_round connections root (connections.length + 1)
  have finished := queue_layersFrom connections root
  constructor
  · intro found
    have known := Finmap.mem_of_lookup_eq_some found
    have reached := searched.hops id known
    rw [Layering.layerOf_eq found] at reached
    refine ⟨reached, ?_⟩
    intro count other
    have le := (searched.layerOf_le_of_hops finished other).2
    rwa [Layering.layerOf_eq found] at le
  · intro atDistance
    rcases searched.layerOf_le_of_hops finished atDistance.hops with ⟨known, layer_le⟩
    have le_layer := atDistance.le_of_hops _ (searched.hops id known)
    rw [layersFrom, Layering.lookup_eq_layerOf known, Option.some.injEq]
    omega

end Qubit.Ui
