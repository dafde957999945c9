import Qubit.Core.Server
import Qubit.Lib.Run

/-!
# Deduplication of edges

An event is discarded when its edge key was seen before. The key is a text of
service names, the graph is keyed by application names, and resolutions rename the
nodes of the graph but not the keys, so a seen key does not say which edge was
recorded under it.

To state what a seen key does say, a book of the run notes for each key the edge of
the first event that had it, and carries every later renaming. The seen keys are the
keys of the book, and the edges of the graph are the edges of the book. Hence an event
reaches the graph exactly when its key is new or the book has its edge.
-/

namespace Qubit

/-- The edge of the first event of a run with a key, under the present names of its nodes. -/
structure RecordedEdge where
  key : String
  source : NodeId
  destination : NodeId
deriving DecidableEq, Repr

def RecordedEdge.rename (stale resolved : NodeId) (edge : RecordedEdge) : RecordedEdge where
  key := edge.key
  source := Function.update id stale resolved edge.source
  destination := Function.update id stale resolved edge.destination

namespace CoreState

/-- How the book continues with an operation performed in a state. -/
def note (state : CoreState) (book : List RecordedEdge) : Operation → List RecordedEdge
  | .ebpfEvent input =>
      match state.observed? input with
      | none => book
      | some src =>
          if ∃ edge ∈ book, edge.key = state.eventKey input src then book
          else book ++ [⟨state.eventKey input src, src.node, state.destination input⟩]
  | .podApplied podIp info =>
      if info.applicationName ≠ "" then
        book.map (RecordedEdge.rename (NodeId.unresolved podIp) info.node)
      else book
  | _ => book

def edgeBook (requests : List Request) : List RecordedEdge :=
  Run.book apply note empty [] (operationsOf requests)

/-- The book has the seen keys and the edges of the graph. -/
structure Books (state : CoreState) (book : List RecordedEdge) : Prop where
  seenEdges : ∀ key, key ∈ state.seenEdges ↔ ∃ edge ∈ book, edge.key = key
  edges : ∃ calls, state.topology.Represents calls ∧ ∀ source destination,
    calls.HasEdge source destination ↔
      ∃ edge ∈ book, edge.source = source ∧ edge.destination = destination

theorem books_empty : Books empty [] where
  seenEdges := by simp [empty]
  edges := ⟨0, Topology.represents_new, by simp [CallGraph.HasEdge]⟩

/-- A new key and its edge are added to the book. -/
theorem Books.record {state : CoreState} {book : List RecordedEdge} (books : Books state book)
    {calls : CallGraph} (edges : ∀ source destination, calls.HasEdge source destination ↔
      ∃ edge ∈ book, edge.source = source ∧ edge.destination = destination)
    (key : String) {flow : Flow} {topology : Topology}
    (represents : topology.Represents (calls.observe flow)) :
    Books { state with seenEdges := insert key state.seenEdges, topology }
      (book ++ [⟨key, flow.sourceNode, flow.destinationNode⟩]) where
  seenEdges := by
    intro other
    simp only [Finset.mem_insert, books.seenEdges, List.mem_append, List.mem_singleton]
    constructor
    · rintro (rfl | ⟨edge, edgeMem, rfl⟩)
      · exact ⟨_, Or.inr rfl, rfl⟩
      · exact ⟨edge, Or.inl edgeMem, rfl⟩
    · rintro ⟨edge, old | rfl, rfl⟩
      · exact Or.inr ⟨edge, old, rfl⟩
      · exact Or.inl rfl
  edges := by
    refine ⟨_, represents, ?_⟩
    intro source destination
    simp only [CallGraph.hasEdge_observe, edges, List.mem_append, List.mem_singleton]
    constructor
    · rintro (⟨rfl, rfl⟩ | ⟨edge, edgeMem, ends⟩)
      · exact ⟨_, Or.inr rfl, rfl, rfl⟩
      · exact ⟨edge, Or.inl edgeMem, ends⟩
    · rintro ⟨edge, old | rfl, ends⟩
      · exact Or.inr ⟨edge, old, ends⟩
      · exact Or.inl ends

/-- Renaming a node of the graph renames it in the book. -/
theorem hasEdge_rename_iff_of_book {calls : CallGraph} {book : List RecordedEdge}
    (edges : ∀ source destination, calls.HasEdge source destination ↔
      ∃ edge ∈ book, edge.source = source ∧ edge.destination = destination)
    (stale resolved source destination : NodeId) :
    (calls.rename stale resolved).HasEdge source destination ↔
      ∃ edge ∈ book.map (RecordedEdge.rename stale resolved),
        edge.source = source ∧ edge.destination = destination := by
  rw [CallGraph.hasEdge_rename]
  constructor
  · rintro ⟨oldSource, oldDestination, edge, rfl, rfl⟩
    rcases (edges _ _).mp edge with ⟨booked, bookedMem, rfl, rfl⟩
    exact ⟨_, List.mem_map_of_mem bookedMem, rfl, rfl⟩
  · rintro ⟨renamed, renamedMem, rfl, rfl⟩
    rcases List.mem_map.mp renamedMem with ⟨booked, bookedMem, rfl⟩
    exact ⟨_, _, (edges _ _).mpr ⟨booked, bookedMem, rfl, rfl⟩, rfl, rfl⟩

/-- The step lemma: the book stays right with every operation. -/
theorem Books.apply {state : CoreState} {book : List RecordedEdge} (books : Books state book)
    (operation : Operation) : Books (state.apply operation) (state.note book operation) := by
  rcases books.edges with ⟨calls, represents, edges⟩
  have represented := represents_apply represents operation
  cases operation with
  | ebpfEvent input =>
      simp only [CoreState.apply, observeOperation, note] at represented ⊢
      rw [recordEbpfEvent_fst] at represented ⊢
      cases observed : state.observed? input with
      | none => exact books
      | some src =>
          simp only [observed] at represented ⊢
          by_cases seen : state.eventKey input src ∈ state.seenEdges
          · have booked := (books.seenEdges _).mp seen
            rw [if_pos seen, if_pos booked]
            exact books
          · have notBooked := fun booked => seen ((books.seenEdges _).mpr booked)
            rw [if_neg seen, if_neg seen] at represented
            rw [if_neg seen, if_neg notBooked]
            exact books.record edges _ represented
  | podApplied podIp info =>
      by_cases named : info.applicationName ≠ ""
      · simp only [observeOperation, if_pos named] at represented
        simp only [note, if_pos named]
        refine ⟨?_, _, represented, hasEdge_rename_iff_of_book edges _ _⟩
        intro key
        rw [seenEdges_apply_podApplied, books.seenEdges]
        simp [RecordedEdge.rename]
      · simp only [observeOperation, if_neg named] at represented
        simp only [note, if_neg named]
        refine ⟨?_, calls, represented, edges⟩
        intro key
        rw [seenEdges_apply_podApplied, books.seenEdges]
  | podDeleted podIp => exact ⟨books.seenEdges, calls, represented, edges⟩
  | serviceApplied name info => exact ⟨books.seenEdges, calls, represented, edges⟩
  | serviceDeleted name ns => exact ⟨books.seenEdges, calls, represented, edges⟩
  | resourceEvent now resourceType name ns eventType resourceData =>
      exact ⟨books.seenEdges, calls, represented, edges⟩
  | envoyRoute domain serviceName ns => exact ⟨books.seenEdges, calls, represented, edges⟩

theorem books_run (requests : List Request) :
    Books (empty.run requests) (edgeBook requests) := by
  rw [run_eq_foldl]
  exact Run.book_correct Books (fun _ _ operation books => books.apply operation)
    (operationsOf requests) books_empty

/--
After an event from a named source, the graph shows its edge exactly when no earlier event had its
key, or the first event of some key had its edge.
-/
theorem showsEdge_recordEbpfEvent_iff (requests : List Request) (input : EbpfNetworkEventInput)
    (src : PodInfo) (notHealth : ¬Text.Contains "/health" input.path)
    (cached : (empty.run requests).podCache.lookup input.srcIpStr = some src)
    (named : src.applicationName ≠ "") :
    ((empty.run requests).recordEbpfEvent input).1.topology.ShowsEdge src.node
        ((empty.run requests).destination input) ↔
      (¬∃ edge ∈ edgeBook requests, edge.key = (empty.run requests).eventKey input src) ∨
        ∃ edge ∈ edgeBook requests, edge.source = src.node ∧
          edge.destination = (empty.run requests).destination input := by
  have books := books_run requests
  rcases books.edges with ⟨calls, represents, edges⟩
  have observed := observed?_eq_some.mpr ⟨notHealth, cached, named⟩
  have represented := represents_apply represents (.ebpfEvent input)
  rw [← books.seenEdges, ← edges]
  simp only [apply, observeOperation, observed] at represented
  rw [represented.showsEdge_iff]
  by_cases seen : (empty.run requests).eventKey input src ∈ (empty.run requests).seenEdges
  · simp [seen]
  · simp only [seen, if_false, not_false_eq_true, true_or, iff_true]
    exact CallGraph.hasEdge_observe.mpr (Or.inl ⟨rfl, rfl⟩)

/-- Two pods that belong to no service, one of which has called the API. -/
def podsWithoutService : List Request :=
  [.sendPodEvent ⟨"10.0.0.1", "default", 0, "web", "", ""⟩,
    .sendPodEvent ⟨"10.0.0.2", "default", 0, "job", "", ""⟩,
    .sendEbpfNetworkEvent ⟨16777226, 150994954, "GET", "/", "api.prod.svc"⟩]

def secondPodCalls : EbpfNetworkEventInput :=
  ⟨33554442, 150994954, "GET", "/", "api.prod.svc"⟩

theorem showsEdge_secondPodCalls_iff :
    ((empty.run podsWithoutService).recordEbpfEvent secondPodCalls).1.topology.ShowsEdge
        ⟨"job", "default"⟩ ((empty.run podsWithoutService).destination secondPodCalls) ↔
      (¬∃ edge ∈ edgeBook podsWithoutService, edge.key =
          (empty.run podsWithoutService).eventKey secondPodCalls ⟨"default", "job", "", ""⟩) ∨
        ∃ edge ∈ edgeBook podsWithoutService, edge.source = ⟨"job", "default"⟩ ∧
          edge.destination = (empty.run podsWithoutService).destination secondPodCalls :=
  showsEdge_recordEbpfEvent_iff podsWithoutService secondPodCalls ⟨"default", "job", "", ""⟩
    (by decide +kernel) (by decide +kernel) (by decide +kernel)

theorem exists_lost_edge :
    ¬∀ (requests : List Request) (input : EbpfNetworkEventInput) (src : PodInfo),
      ¬Text.Contains "/health" input.path →
        (empty.run requests).podCache.lookup input.srcIpStr = some src →
          src.applicationName ≠ "" →
            ((empty.run requests).recordEbpfEvent input).1.topology.ShowsEdge src.node
              ((empty.run requests).destination input) := by
  intro shown
  have edge := shown podsWithoutService secondPodCalls ⟨"default", "job", "", ""⟩
    (by decide +kernel) (by decide +kernel) (by decide +kernel)
  revert edge
  decide +kernel

end CoreState

end Qubit
