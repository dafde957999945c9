import Qubit.Core.FlushHistory
import Qubit.Core.Ledger
import Qubit.Lib.BatchWriter

/-!
# Core and its database

The flush timer runs beside the tasks of the requests. At a tick it copies the outgoing
flows, asks the database for the stored edge keys, and inserts the events whose keys are
new. Requests go on between these steps, each of the two queries can fail, Core can be
restarted at any time, and the database can drop rows that have expired. The table outlives
Core, which starts again with an empty graph.

Nothing else writes to the table, so it stays a record of the graph: each row was a flow of
the graph at a tick, each flow of a tick that meets no failure has a row with its edge key,
and neither failures nor restarts store an edge key a second time.
-/

namespace Qubit

/-- The tasks of Core, its flush timer and the table of the network events. -/
structure Backend where
  system : System
  events : BatchWriter.Store EbpfNetworkEvent

namespace Backend

/-- The timer ticks, or the database answers; an answer that nobody waits for does nothing. -/
inductive Action where
  | core (action : Qubit.Action)
  | tick (tick : FlushTick)
  | fetched
  | fetchFailed
  | inserted
  /-- The database may have stored some of the events when the insert fails. -/
  | insertFailed (stored : ℕ)
  | restart (stored : ℕ)
  | expire (index : ℕ)

/-- The action neither fails nor loses rows. -/
def Action.Smooth : Action → Prop
  | .core _ | .tick _ | .fetched | .inserted => True
  | _ => False

/-- The action loses no rows. -/
def Action.Keeps : Action → Prop
  | .expire _ => False
  | _ => True

/-- What an action means for the table. A tick lists the outgoing flows in some order. -/
def asks? (backend : Backend) : Action → Option (BatchWriter.Step EbpfNetworkEvent)
  | .core _ => none
  | .tick tick =>
      if tick.downstream.toFinmap = backend.system.state.topology.downstream then
        some (.submit tick.snapshot)
      else none
  | .fetched => some .checked
  | .fetchFailed => some .checkFailed
  | .inserted => some .inserted
  | .insertFailed stored => some (.insertFailed stored)
  | .restart stored => some (.restart stored)
  | .expire index => some (.lose index)

def step (backend : Backend) (action : Action) : Backend where
  system :=
    match action with
    | .core action => backend.system.step action
    | .restart _ => System.initial
    | _ => backend.system
  events :=
    (backend.asks? action).elim backend.events (backend.events.step EbpfNetworkEvent.edgeKey)

def run (backend : Backend) (actions : List Action) : Backend :=
  actions.foldl step backend

/-- Core is started on a table. -/
def start (table : List EbpfNetworkEvent) : Backend where
  system := System.initial
  events := { phase := .idle, table }

def host : BatchWriter.Host Backend Action EbpfNetworkEvent.edgeKey where
  step := step
  store := events
  asks? := asks?
  store_step _ _ := rfl

theorem run_cons (backend : Backend) (first : Action) (rest : List Action) :
    backend.run (first :: rest) = (backend.step first).run rest :=
  rfl

theorem run_append (backend : Backend) (earlier later : List Action) :
    backend.run (earlier ++ later) = (backend.run earlier).run later :=
  List.foldl_append

/-- A tick that is not disturbed stores what the table has after an atomic tick. -/
theorem run_tick (backend : Backend) (idle : backend.events.phase = .idle) (tick : FlushTick)
    (listing : tick.downstream.toFinmap = backend.system.state.topology.downstream) :
    backend.run [.tick tick, .fetched, .inserted] =
      { backend with
        events :=
          { phase := .idle
            table := flushTick tick.nowNs tick.downstream backend.events.table } } := by
  rcases backend with ⟨system, phase, table⟩
  obtain rfl : phase = .idle := idle
  dsimp only at listing
  rw [flushTick_eq, NewKeys.append, ← BatchWriter.Store.newRows]
  by_cases empty : tick.snapshot = []
  · simp [run, step, asks?, listing, BatchWriter.Store.step, empty, BatchWriter.Store.newRows]
  · by_cases known : BatchWriter.Store.newRows EbpfNetworkEvent.edgeKey table tick.snapshot = []
    · simp [run, step, asks?, listing, BatchWriter.Store.step, empty, known]
    · simp [run, step, asks?, listing, BatchWriter.Store.step, empty, known]

/-! ## The graph at a tick -/

/-- The graph of the backend is one that Core reaches. -/
theorem exists_system_run (table : List EbpfNetworkEvent) (actions : List Action) :
    ∃ coreActions, ((start table).run actions).system = System.initial.run coreActions := by
  have initially : ∃ coreActions, (start table).system = System.initial.run coreActions :=
    ⟨[], rfl⟩
  refine List.foldlRecOn actions step
    (motive := fun backend => ∃ coreActions, backend.system = System.initial.run coreActions)
    initially ?_
  rintro backend ⟨coreActions, reached⟩ action -
  cases action with
  | core action =>
      refine ⟨coreActions ++ [action], ?_⟩
      rw [System.run, List.foldl_append]
      exact congrArg (fun system => system.step action) reached
  | restart stored => exact ⟨[], rfl⟩
  | _ => exact ⟨coreActions, reached⟩

/-- The flows that a tick copies are the stored ones. -/
theorem mem_flows_iff {table : List EbpfNetworkEvent} {actions : List Action} {tick : FlushTick}
    (listing : tick.downstream.toFinmap =
      ((start table).run actions).system.state.topology.downstream) {flow : Flow} :
    flow ∈ tick.flows ↔ ((start table).run actions).system.state.topology.Stores flow := by
  rcases exists_system_run table actions with ⟨coreActions, reached⟩
  rw [reached] at listing ⊢
  rcases (System.accounts_run coreActions).calls with ⟨calls, represented, -⟩
  rw [FlushTick.flows, Finmap.mem_flatMap_entries_iff, listing, represented.stores_iff]
  simp only [represented.downstream.mem_row_iff]
  constructor
  · rintro ⟨_, stored, -⟩
    exact stored
  · intro stored
    exact ⟨flow.sourceNode, stored, rfl⟩

theorem mem_snapshot_iff {tick : FlushTick} {row : EbpfNetworkEvent} :
    row ∈ tick.snapshot ↔ ∃ flow ∈ tick.flows, flow.toEvent tick.nowNs = row :=
  List.mem_map

/-- The row is that of a flow of the graph at a tick of the run. -/
def RowOfTick (table : List EbpfNetworkEvent) (before : List Action) (tick : FlushTick)
    (row : EbpfNetworkEvent) : Prop :=
  ∃ flow, ((start table).run before).system.state.topology.Stores flow ∧
    flow.toEvent tick.nowNs = row

/-- A batch that is begun in a run is the snapshot of a tick. -/
theorem exists_tick_of_begunIn {table : List EbpfNetworkEvent} {actions : List Action}
    {batch : List EbpfNetworkEvent} (begun : host.BegunIn (start table) actions batch) :
    ∃ before tick after, actions = before ++ .tick tick :: after ∧
      ∀ row ∈ batch, RowOfTick table before tick row := by
  rcases begun with ⟨before, action, after, split, step, asked, begins⟩
  change asks? ((start table).run before) action = some step at asked
  cases action with
  | tick tick =>
      rw [asks?] at asked
      split at asked
      · rename_i listing
        rcases Option.some.inj asked
        refine ⟨before, tick, after, split, ?_⟩
        intro row rowMem
        have same : batch = tick.snapshot := by
          rw [BatchWriter.Store.begun?] at begins
          split at begins
          · exact (Option.some.inj begins).symm
          · cases begins
        rw [same, mem_snapshot_iff] at rowMem
        rcases rowMem with ⟨flow, flowMem, rfl⟩
        exact ⟨flow, (mem_flows_iff listing).mp flowMem, rfl⟩
      · cases asked
  | core _ => cases asked
  | _ => cases asked; cases begins

/-! ## The table after a run -/

theorem Action.Smooth.keeps {action : Action} (smooth : action.Smooth) : action.Keeps := by
  cases action with
  | expire index => exact absurd smooth id
  | _ => trivial

theorem asks_keeps {backend : Backend} {actions : List Action}
    (keeps : ∀ action ∈ actions, action.Keeps) :
    host.Asks BatchWriter.Step.Keeps backend actions := by
  refine Run.everyStep_iff.mpr ?_
  rintro before action after rfl step asked
  have kept := keeps action (List.mem_append_right _ List.mem_cons_self)
  change asks? _ action = some step at asked
  cases action with
  | core _ => cases asked
  | tick tick =>
      rw [asks?] at asked
      split at asked
      · cases asked
        trivial
      · cases asked
  | expire index => exact absurd kept id
  | _ => cases asked; trivial

theorem asks_smooth {backend : Backend} {actions : List Action}
    (smooth : ∀ action ∈ actions, action.Smooth) :
    host.Asks BatchWriter.Step.Smooth backend actions := by
  refine Run.everyStep_iff.mpr ?_
  rintro before action after rfl step asked
  have met := smooth action (List.mem_append_right _ List.mem_cons_self)
  change asks? _ action = some step at asked
  cases action with
  | core _ => cases asked
  | tick tick =>
      rw [asks?] at asked
      split at asked
      · cases asked
        trivial
      · cases asked
  | fetched => cases asked; trivial
  | inserted => cases asked; trivial
  | _ => exact absurd met id

/--
Whatever the interleaving, the failures, the restarts and the expired rows: each row that Core has
stored is the row of a flow that was in the graph at a tick, with the time of that tick.
-/
theorem row_provenance (table : List EbpfNetworkEvent) (actions : List Action) :
    ∀ row ∈ ((start table).run actions).events.table, row ∈ table ∨
      ∃ before tick after, actions = before ++ .tick tick :: after ∧
        RowOfTick table before tick row := by
  intro row rowMem
  rcases host.mem_table_run (start table) rfl rowMem with old | ⟨batch, begun, inBatch⟩
  · exact Or.inl old
  · rcases exists_tick_of_begunIn begun with ⟨before, tick, after, split, rows⟩
    exact Or.inr ⟨before, tick, after, split, rows row inBatch⟩

/-- A tick without failures leaves all the rows in the table that an atomic one leaves. -/
theorem mem_of_tick {backend : Backend} {tick : FlushTick} {during : List Action}
    (idle : backend.events.phase = .idle)
    (listing : tick.downstream.toFinmap = backend.system.state.topology.downstream)
    (smooth : ∀ action ∈ during, action.Smooth)
    (ended : ((backend.step (.tick tick)).run during).events.phase = .idle) :
    ∀ row ∈ flushTick tick.nowNs tick.downstream backend.events.table,
      row ∈ ((backend.step (.tick tick)).run during).events.table := by
  intro row rowMem
  rw [flushTick_eq] at rowMem
  by_cases empty : tick.snapshot = []
  · rw [empty, NewKeys.append, List.filter_nil, List.append_nil] at rowMem
    have unchanged : (backend.step (.tick tick)).events = backend.events := by
      simp [step, asks?, listing, BatchWriter.Store.step, idle, empty]
    refine host.mem_run _ (asks_keeps fun action actionMem => (smooth action actionMem).keeps) ?_
    change row ∈ (backend.step (.tick tick)).events.table
    rwa [unchanged]
  · have began : (backend.step (.tick tick)).events =
        { phase := .checking tick.snapshot, table := backend.events.table } := by
      simp [step, asks?, listing, BatchWriter.Store.step, idle, empty]
    have checking : (host.store (backend.step (.tick tick))).phase = .checking tick.snapshot :=
      congrArg BatchWriter.Store.phase began
    refine host.mem_of_batch _ checking (asks_smooth smooth) ended row ?_
    change row ∈ NewKeys.append _ (backend.step (.tick tick)).events.table _
    rwa [began]

/-- A pod is announced and calls a service. -/
def callRecorded (podIp : String) (srcIp : UInt32) (ns : String) (task : ℕ) : List Action :=
  [.core (.arrive (.sendPodEvent ⟨podIp, ns, 0, "web", "web", "ClusterIP"⟩)),
    .core (.advance task), .core (.advance task),
    .core (.arrive (.sendEbpfNetworkEvent ⟨srcIp, 33554442, "GET", "/", "api.prod.svc"⟩)),
    .core (.advance (task + 1)), .core (.advance (task + 1)), .core (.advance (task + 1)),
    .core (.advance (task + 1)), .core (.advance (task + 1)), .core (.advance (task + 1))]

/-- Pods of one name in two namespaces call the same service. -/
def callsRecorded : List Action :=
  callRecorded "10.0.0.1" 16777226 "team-a" 0 ++ callRecorded "10.0.0.3" 50331658 "team-b" 2

def callFrom (ns : String) : Flow where
  sourceNode := { applicationName := "web", ns }
  destinationNode := { applicationName := "api", ns := "prod" }
  path := "/"
  method := "GET"

def callTick (nowNs : UInt64) : FlushTick where
  nowNs
  downstream := (AList.singleton (callFrom "team-b").sourceNode [callFrom "team-b"]).insert
    (callFrom "team-a").sourceNode [callFrom "team-a"]

/-- The insert of the first tick fails, but the events are stored; Core is restarted later. -/
def flushedTwice : List Action :=
  callsRecorded ++ [.tick (callTick 7), .fetched, .insertFailed 2, .tick (callTick 8), .fetched,
    .restart 0]

theorem row_provenance_flushedTwice :
    (callFrom "team-b").toEvent 7 ∈ ([] : List EbpfNetworkEvent) ∨
      ∃ before tick after, flushedTwice = before ++ .tick tick :: after ∧
        RowOfTick [] before tick ((callFrom "team-b").toEvent 7) :=
  row_provenance [] flushedTwice ((callFrom "team-b").toEvent 7) (by decide +kernel)

/--
When the queries of a tick succeed and no row expires meanwhile, the table has all the rows that an
atomic tick leaves, however requests interleave with it; so every flow that was in the graph at the
tick has a row with its edge key. Rows stay through all failures and restarts until they expire.
-/
theorem flow_has_row (table : List EbpfNetworkEvent) (before during after : List Action)
    (tick : FlushTick) (idle : ((start table).run before).events.phase = .idle)
    (listing : tick.downstream.toFinmap =
      ((start table).run before).system.state.topology.downstream)
    (smooth : ∀ action ∈ during, action.Smooth)
    (ended : ((start table).run (before ++ .tick tick :: during)).events.phase = .idle)
    (keeps : ∀ action ∈ after, action.Keeps) :
    (∀ row ∈ flushTick tick.nowNs tick.downstream ((start table).run before).events.table,
      row ∈ ((start table).run (before ++ .tick tick :: during ++ after)).events.table) ∧
    ∀ flow, ((start table).run before).system.state.topology.Stores flow →
      ∃ row ∈ ((start table).run (before ++ .tick tick :: during ++ after)).events.table,
        row.edgeKey = flow.edgeKey := by
  have left : ∀ row ∈ flushTick tick.nowNs tick.downstream
      ((start table).run before).events.table,
      row ∈ ((start table).run (before ++ .tick tick :: during ++ after)).events.table := by
    intro row rowMem
    rw [run_append, run_cons] at ended
    rw [run_append, run_append, run_cons]
    exact host.mem_run _ (asks_keeps keeps) (mem_of_tick idle listing smooth ended row rowMem)
  refine ⟨left, ?_⟩
  intro flow stored
  have flowMem := (mem_flows_iff listing).mpr stored
  have has : NewKeys.Has EbpfNetworkEvent.edgeKey flow.edgeKey
      (flushTick tick.nowNs tick.downstream ((start table).run before).events.table) := by
    rw [flushTick_eq, NewKeys.has_append, has_snapshot]
    exact Or.inr ⟨flow, flowMem, rfl⟩
  rcases has with ⟨row, rowMem, same⟩
  exact ⟨row, left row rowMem, same⟩

theorem flow_has_row_callsRecorded :
    (∀ row ∈ flushTick 7 (callTick 7).downstream ((start []).run callsRecorded).events.table,
      row ∈ ((start []).run (callsRecorded ++ .tick (callTick 7) :: [.fetched, .inserted] ++
        [.restart 0])).events.table) ∧
    ∀ flow, ((start []).run callsRecorded).system.state.topology.Stores flow →
      ∃ row ∈ ((start []).run (callsRecorded ++ .tick (callTick 7) :: [.fetched, .inserted] ++
        [.restart 0])).events.table, row.edgeKey = flow.edgeKey :=
  flow_has_row [] callsRecorded [.fetched, .inserted] [.restart 0] (callTick 7) (by decide +kernel)
    (by decide +kernel) (by simp [Action.Smooth]) (by decide +kernel) (by simp [Action.Keeps])

/--
As long as no row expires, rows with one edge key were there at the start or are rows of one tick:
neither a failed insert that is repeated nor a restart stores an edge key a second time.
-/
theorem same_tick_of_edgeKey (table : List EbpfNetworkEvent) (actions : List Action)
    (keeps : ∀ action ∈ actions, action.Keeps) (row other : EbpfNetworkEvent)
    (rowMem : row ∈ ((start table).run actions).events.table)
    (otherMem : other ∈ ((start table).run actions).events.table)
    (sameKey : row.edgeKey = other.edgeKey) :
    (row ∈ table ∧ other ∈ table) ∨
      ∃ before tick after, actions = before ++ .tick tick :: after ∧
        RowOfTick table before tick row ∧ RowOfTick table before tick other := by
  rcases host.same_batch (start table) rfl (asks_keeps keeps) rowMem otherMem sameKey with
    old | ⟨batch, begun, inBatch, otherInBatch⟩
  · exact Or.inl old
  · rcases exists_tick_of_begunIn begun with ⟨before, tick, after, split, rows⟩
    exact Or.inr ⟨before, tick, after, split, rows row inBatch, rows other otherInBatch⟩

theorem same_tick_of_edgeKey_flushedTwice :
    ((callFrom "team-a").toEvent 7 ∈ ([] : List EbpfNetworkEvent) ∧
        (callFrom "team-b").toEvent 7 ∈ ([] : List EbpfNetworkEvent)) ∨
      ∃ before tick after, flushedTwice = before ++ .tick tick :: after ∧
        RowOfTick [] before tick ((callFrom "team-a").toEvent 7) ∧
          RowOfTick [] before tick ((callFrom "team-b").toEvent 7) :=
  same_tick_of_edgeKey [] flushedTwice
    (by simp [flushedTwice, callsRecorded, callRecorded, Action.Keeps])
    ((callFrom "team-a").toEvent 7) ((callFrom "team-b").toEvent 7) (by decide +kernel)
    (by decide +kernel) (by decide +kernel)

end Backend

end Qubit
