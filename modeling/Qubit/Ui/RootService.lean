import Qubit.Lib.Pages
import Qubit.Ui.Layers
import Qubit.Ui.ShownEdges

/-!
# The root and the layers of the services

The out-degrees are a tally of the sources of the downstream connections, so the root
that heads them in descending order has the most. Without downstream connections every
service has none, and any of them will do. The layer of a service is its distance from
the root.
-/

namespace Qubit.Ui

open LevelSearch (Hops AtDistance)

/-- The number of downstream connections that leave an id. -/
def outgoing (connections : List ServiceConnection) (id : String) : Nat :=
  connections.countP fun connection => connection.source = id ∧ connection.type = .downstream

/-! ## Tallies -/

/-- Every source is listed once, with the number of times it was counted. -/
structure Tallies (degrees : List (String × Nat)) (sources : List String) : Prop where
  nodup : (degrees.map Prod.fst).Nodup
  degree : ∀ entry ∈ degrees, entry.2 = sources.count entry.1
  positive : ∀ entry ∈ degrees, 0 < entry.2
  listed : ∀ source ∈ sources, source ∈ degrees.map Prod.fst

theorem map_fst_countSource (source : String) (degrees : List (String × Nat)) :
    (countSource source degrees).map Prod.fst =
      if source ∈ degrees.map Prod.fst then degrees.map Prod.fst
      else degrees.map Prod.fst ++ [source] := by
  induction degrees with
  | nil => simp [countSource]
  | cons first rest ih =>
      rw [countSource]
      by_cases same : first.1 = source
      · simp [same]
      · simp only [same, if_false, List.map_cons, ih, List.mem_cons, Ne.symm same, false_or]
        split <;> rfl

theorem mem_countSource {source : String} {degrees : List (String × Nat)}
    (nodup : (degrees.map Prod.fst).Nodup) {entry : String × Nat}
    (member : entry ∈ countSource source degrees) :
    (entry.1 ≠ source ∧ entry ∈ degrees) ∨ ∃ degree, entry = (source, degree + 1) ∧
      ((source, degree) ∈ degrees ∨ source ∉ degrees.map Prod.fst ∧ degree = 0) := by
  induction degrees with
  | nil =>
      right
      exact ⟨0, by simpa [countSource] using member, by simp⟩
  | cons first rest ih =>
      rcases first with ⟨known, degree⟩
      rw [List.map_cons, List.nodup_cons] at nodup
      rw [countSource] at member
      split at member
      · rename_i same
        subst same
        rcases List.mem_cons.mp member with rfl | later
        · exact Or.inr ⟨degree, rfl, Or.inl List.mem_cons_self⟩
        · left
          refine ⟨?_, List.mem_cons_of_mem _ later⟩
          intro same
          exact nodup.1 (List.mem_map.mpr ⟨entry, later, same⟩)
      · rename_i different
        rcases List.mem_cons.mp member with rfl | later
        · exact Or.inl ⟨different, List.mem_cons_self⟩
        · rcases ih nodup.2 later with ⟨other, old⟩ | ⟨count, entry_eq, counted⟩
          · exact Or.inl ⟨other, List.mem_cons_of_mem _ old⟩
          · refine Or.inr ⟨count, entry_eq, ?_⟩
            rcases counted with old | ⟨unknown, count_eq⟩
            · exact Or.inl (List.mem_cons_of_mem _ old)
            · exact Or.inr ⟨by simp [unknown, Ne.symm different], count_eq⟩

theorem Tallies.countSource {degrees : List (String × Nat)} {sources : List String}
    (tallies : Tallies degrees sources) (source : String) :
    Tallies (countSource source degrees) (sources ++ [source]) where
  nodup := by
    rw [map_fst_countSource]
    split
    · exact tallies.nodup
    · rename_i unknown
      apply List.nodup_append.mpr
      refine ⟨tallies.nodup, by simp, ?_⟩
      intro known knownMem other otherMem
      obtain rfl := List.mem_singleton.mp otherMem
      exact ne_of_mem_of_not_mem knownMem unknown
  degree := by
    intro entry member
    rcases mem_countSource tallies.nodup member with ⟨other, old⟩ | ⟨degree, rfl, counted⟩
    · simp [tallies.degree entry old, List.count_append, Ne.symm other]
    · rcases counted with old | ⟨unknown, rfl⟩
      · have degree_eq := tallies.degree _ old
        simp [List.count_append, ← degree_eq]
      · have uncounted : source ∉ sources := mt (tallies.listed source) unknown
        simp [List.count_append, List.count_eq_zero.mpr uncounted]
  positive := by
    intro entry member
    rcases mem_countSource tallies.nodup member with ⟨-, old⟩ | ⟨degree, rfl, -⟩
    · exact tallies.positive entry old
    · exact Nat.succ_pos degree
  listed := by
    intro other otherMem
    rw [map_fst_countSource]
    rcases List.mem_append.mp otherMem with old | last
    · split
      · exact tallies.listed other old
      · exact List.mem_append_left _ (tallies.listed other old)
    · obtain rfl := List.mem_singleton.mp last
      split
      · rename_i known
        exact known
      · exact List.mem_append_right _ last

theorem tallies_foldl (sources : List String) :
    Tallies (sources.foldl (fun degrees source => Ui.countSource source degrees) []) sources := by
  induction sources using List.reverseRecOn with
  | nil => exact ⟨by simp, by simp, by simp, by simp⟩
  | append_singleton sources source ih =>
      rw [List.foldl_append]
      exact ih.countSource source

theorem tallies_outDegree (connections : List ServiceConnection) :
    Tallies (outDegree connections)
      ((connections.filter (·.type = .downstream)).map (·.source)) := by
  have folded := tallies_foldl ((connections.filter (·.type = .downstream)).map (·.source))
  rwa [List.foldl_map] at folded

theorem count_sources (connections : List ServiceConnection) (id : String) :
    ((connections.filter (·.type = .downstream)).map (·.source)).count id =
      outgoing connections id := by
  rw [List.count_eq_countP, List.countP_map, List.countP_filter, outgoing]
  apply List.countP_congr
  intro connection _
  simp

theorem degree_of_mem_outDegree {connections : List ServiceConnection} {entry : String × Nat}
    (member : entry ∈ outDegree connections) : entry.2 = outgoing connections entry.1 := by
  rw [(tallies_outDegree connections).degree entry member, count_sources]

theorem mem_outDegree_of_outgoing {connections : List ServiceConnection} {id : String}
    (leaves : 0 < outgoing connections id) :
    (id, outgoing connections id) ∈ outDegree connections := by
  rw [← count_sources, List.count_pos_iff] at leaves
  rcases List.mem_map.mp ((tallies_outDegree connections).listed id leaves) with
    ⟨entry, member, rfl⟩
  rwa [← degree_of_mem_outDegree member]

/-! ## The root -/

section Transformed

variable {data : QubitTopology} {nodes : AList fun _ : String => NodeDto}

theorem mem_keys_of_lookup_nameToId {name id : String}
    (found : (nameToId nodes).lookup name = some id) : id ∈ nodes.keys := by
  rcases List.mem_map.mp (Finmap.mem_of_lookup_collect found) with ⟨entry, listed, same⟩
  rw [← (Prod.mk.inj same).2]
  exact List.mem_map_of_mem listed

/-- Both ends of a connection are ids of nodes. -/
theorem ends_mem_keys {connection : ServiceConnection}
    (member : connection ∈ connectionsOf data nodes) :
    connection.source ∈ nodes.keys ∧ connection.target ∈ nodes.keys := by
  rw [connectionsOf_eq] at member
  have met := (KeepFirst.mem_of_mem_keep member).1
  have known : ∀ type flow, connection? (nameToId nodes) type flow = some connection →
      connection.source ∈ nodes.keys ∧ connection.target ∈ nodes.keys := by
    intro type flow built
    unfold connection? at built
    split at built
    · rename_i source target source_eq target_eq
      rw [Option.some.injEq] at built
      subst built
      exact ⟨mem_keys_of_lookup_nameToId (Option.eq_some_of_filter_eq_some source_eq),
        mem_keys_of_lookup_nameToId (Option.eq_some_of_filter_eq_some target_eq)⟩
    · cases built
  rw [metConnections, List.mem_append] at met
  rcases met with downstream | upstream
  · rcases List.mem_filterMap.mp downstream with ⟨flow, -, built⟩
    exact known _ flow built
  · rcases List.mem_filterMap.mp upstream with ⟨flow, -, built⟩
    exact known _ flow built

/-- When there are nodes, the chosen root is one of them. -/
theorem exists_rootId (nonempty : nodes.entries ≠ []) :
    ∃ root ∈ nodes.keys, rootId (connectionsOf data nodes) nodes = some root := by
  unfold rootId
  split
  · rename_i entry first
    have member := List.mem_of_head? first
    rw [List.mem_mergeSort] at member
    have counted := (tallies_outDegree (connectionsOf data nodes)).positive entry member
    rw [degree_of_mem_outDegree member, outgoing, List.countP_pos_iff] at counted
    rcases counted with ⟨connection, connectionMem, leaves⟩
    simp only [decide_eq_true_eq] at leaves
    exact ⟨entry.1, leaves.1 ▸ (ends_mem_keys connectionMem).1, rfl⟩
  · cases sorted : (nodes.entries.map (·.1)).mergeSort fun id other => utf16 id ≤ utf16 other with
    | nil =>
        have length := congrArg List.length sorted
        rw [List.length_mergeSort, List.length_map, List.length_nil,
          List.length_eq_zero_iff] at length
        exact absurd length nonempty
    | cons root rest =>
        refine ⟨root, ?_, rfl⟩
        have member : root ∈ (nodes.entries.map (·.1)).mergeSort
            fun id other => utf16 id ≤ utf16 other := by
          simp [sorted]
        exact List.mem_mergeSort.mp member

/-- No id has more downstream connections than the root. -/
theorem outgoing_le_of_rootId {connections : List ServiceConnection} {root : String}
    (root_eq : rootId connections nodes = some root) (id : String) :
    outgoing connections id ≤ outgoing connections root := by
  rcases Nat.eq_zero_or_pos (outgoing connections id) with none' | leaves
  · omega
  · have listed := mem_outDegree_of_outgoing leaves
    have ordered : Pages.IsOrdering Prod.snd (outDegree connections)
        ((outDegree connections).mergeSort fun entry other => other.2 ≤ entry.2) :=
      Pages.isOrdering_mergeSort Prod.snd _
    rw [rootId] at root_eq
    cases sorted : (outDegree connections).mergeSort fun entry other => other.2 ≤ entry.2 with
    | nil =>
        rw [sorted] at ordered
        cases ordered.perm.mem_iff.mpr listed
    | cons first rest =>
        rw [sorted] at ordered
        simp only [sorted, List.head?_cons, Option.some.injEq] at root_eq
        subst root_eq
        have first_eq := degree_of_mem_outDegree (ordered.perm.mem_iff.mp List.mem_cons_self)
        have most := Pages.le_head_of_isOrdering ordered listed
        omega

/-- The service made of a listed node. -/
def serviceOf (layerMap : Finmap fun _ : String => Nat) (entry : Sigma fun _ : String => NodeDto) :
    ServiceNode where
  id := entry.1
  name := entry.2.applicationName
  ns := entry.2.ns
  domain := entry.2.ns
  layer := (layerMap.lookup entry.1).getD 1

theorem layer_serviceOf {connections : List ServiceConnection} {root : String}
    (entry : Sigma fun _ : String => NodeDto) :
    (∀ count, Hops (targetsOf connections) root count entry.1 →
        AtDistance (targetsOf connections) root
          (serviceOf (layersFrom connections root) entry).layer entry.1) ∧
      ((∀ count, ¬Hops (targetsOf connections) root count entry.1) →
        (serviceOf (layersFrom connections root) entry).layer = 1) := by
  constructor
  · intro count reached
    rcases reached.exists_atDistance with ⟨distance, atDistance⟩
    rwa [serviceOf, lookup_layersFrom_iff.mpr atDistance]
  · intro unreached
    cases known : (layersFrom connections root).lookup entry.1 with
    | none => simp [serviceOf, known]
    | some layer => exact absurd (lookup_layersFrom_iff.mp known).hops (unreached layer)

end Transformed

/--
Every listed node is a service, and the connections are those of the flows between known names, the
first of each key. With a node the root is a node that no other one surpasses in downstream
connections, and the layer of a service is its distance from the root, or one if it cannot be
reached.
-/
theorem layers_transformTopologyData {data : QubitTopology}
    {nodes : AList fun _ : String => NodeDto} (received : data.nodes = some nodes)
    (nonempty : nodes.entries ≠ []) :
    let shown := transformTopologyData (some data)
    shown.services.map (·.id) = nodes.keys ∧
      shown.connections = KeepFirst.keep ServiceConnection.key ∅ (metConnections data nodes) ∧
      ∃ root ∈ nodes.keys, shown.rootService = some root ∧
        (∀ id ∈ nodes.keys, outgoing shown.connections id ≤ outgoing shown.connections root) ∧
        ∀ service ∈ shown.services,
          (∀ count, Hops (targetsOf shown.connections) root count service.id →
            AtDistance (targetsOf shown.connections) root service.layer service.id) ∧
          ((∀ count, ¬Hops (targetsOf shown.connections) root count service.id) →
            service.layer = 1) := by
  intro shown
  have exists_root : ∃ root ∈ nodes.keys, rootId (connectionsOf data nodes) nodes = some root :=
    exists_rootId nonempty
  rcases exists_root with ⟨root, rootMem, root_eq⟩
  have connections_eq : shown.connections = connectionsOf data nodes := by
    simp only [shown, transformTopologyData, received]
  have rootService_eq : shown.rootService = some root := by
    simp only [shown, transformTopologyData, received, root_eq]
  have services_eq : shown.services =
      nodes.entries.map (serviceOf (layersFrom (connectionsOf data nodes) root)) := by
    simp only [shown, transformTopologyData, received, root_eq]
    rfl
  refine ⟨?_, ?_, root, rootMem, rootService_eq, ?_, ?_⟩
  · rw [services_eq, List.map_map]
    rfl
  · rw [connections_eq, connectionsOf_eq]
  · intro id _
    rw [connections_eq]
    exact outgoing_le_of_rootId root_eq id
  · intro service serviceMem
    rw [services_eq] at serviceMem
    rcases List.mem_map.mp serviceMem with ⟨entry, -, rfl⟩
    rw [connections_eq]
    exact layer_serviceOf entry

theorem layers_sameNameListing :
    ∃ nodes, sameNameListing.nodes = some nodes ∧
      let shown := transformTopologyData (some sameNameListing)
      shown.services.map (·.id) = nodes.keys ∧
        shown.connections =
          KeepFirst.keep ServiceConnection.key ∅ (metConnections sameNameListing nodes) ∧
        ∃ root ∈ nodes.keys, shown.rootService = some root ∧
          (∀ id ∈ nodes.keys, outgoing shown.connections id ≤ outgoing shown.connections root) ∧
          ∀ service ∈ shown.services,
            (∀ count, Hops (targetsOf shown.connections) root count service.id →
              AtDistance (targetsOf shown.connections) root service.layer service.id) ∧
            ((∀ count, ¬Hops (targetsOf shown.connections) root count service.id) →
              service.layer = 1) :=
  ⟨_, rfl, layers_transformTopologyData rfl (by decide)⟩

end Qubit.Ui
