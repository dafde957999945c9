import Qubit.Lib.NewKeys
import Qubit.Lib.Run

/-!
# A writer that checks before it inserts

A single writer brings batches of rows into a table. For each batch it asks the table for
the keys that are there, and then inserts the rows whose keys are new. Both requests can
fail, and an insert that failed may have stored the first of its rows. The writer can start
anew at any time, and the table can lose rows.

The writer is a part of a larger system, whose actions move it by at most one step each.
Whatever the system does, the table has no rows but those of batches. When no row is lost,
it is the table that atomic batches leave, each of them a prefix of a batch of the writer;
and after a batch that met no failure it has all the rows that an atomic one leaves.
-/

universe u v w x

namespace BatchWriter

open NewKeys (Has)

variable {Row : Type u} {Key : Type v}

inductive Phase (Row : Type u) where
  | idle
  | checking (batch : List Row)
  | inserting (batch newRows : List Row)
deriving DecidableEq

structure Store (Row : Type u) where
  phase : Phase Row
  table : List Row

inductive Step (Row : Type u) where
  | submit (batch : List Row)
  | checked
  | checkFailed
  | inserted
  | insertFailed (stored : ℕ)
  | restart (stored : ℕ)
  | lose (index : ℕ)

/-- The rows that a phase may still bring into the table. -/
def Phase.rows : Phase Row → List Row
  | .idle => []
  | .checking batch => batch
  | .inserting _ newRows => newRows

/-- The step neither fails nor loses a row. -/
def Step.Smooth : Step Row → Prop
  | .submit _ | .checked | .inserted => True
  | _ => False

/-- The step loses no row of the table. -/
def Step.Keeps : Step Row → Prop
  | .lose _ => False
  | _ => True

namespace Store

variable [DecidableEq Key] (keyOf : Row → Key)

def newRows (table batch : List Row) : List Row :=
  batch.filter fun row => ¬Has keyOf (keyOf row) table

/-- One step; a step that does not fit the phase does nothing. -/
def step (store : Store Row) : Step Row → Store Row
  | .submit batch =>
      match store.phase with
      | .idle => if batch.isEmpty then store else { store with phase := .checking batch }
      | _ => store
  | .checked =>
      match store.phase with
      | .checking batch =>
          if (newRows keyOf store.table batch).isEmpty then { store with phase := .idle }
          else { store with phase := .inserting batch (newRows keyOf store.table batch) }
      | _ => store
  | .checkFailed =>
      match store.phase with
      | .checking _ => { store with phase := .idle }
      | _ => store
  | .inserted =>
      match store.phase with
      | .inserting _ newRows => { phase := .idle, table := store.table ++ newRows }
      | _ => store
  | .insertFailed stored =>
      match store.phase with
      | .inserting _ newRows => { phase := .idle, table := store.table ++ newRows.take stored }
      | _ => store
  | .restart stored =>
      match store.phase with
      | .inserting _ newRows => { phase := .idle, table := store.table ++ newRows.take stored }
      | _ => { store with phase := .idle }
  | .lose index => { store with table := store.table.eraseIdx index }

/-- What a step can do to the store. -/
inductive Effect (store : Store Row) : Step Row → Store Row → Prop where
  | nothing {step : Step Row} : Effect store step store
  | begins {batch : List Row} (idle : store.phase = .idle) :
      Effect store (.submit batch) { store with phase := .checking batch }
  | checks {batch : List Row} (checking : store.phase = .checking batch) :
      Effect store .checked
        { store with phase := .inserting batch (newRows keyOf store.table batch) }
  | nothingNew {batch : List Row} (checking : store.phase = .checking batch)
      (known : newRows keyOf store.table batch = []) :
      Effect store .checked { store with phase := .idle }
  | inserts {batch rows : List Row} (inserting : store.phase = .inserting batch rows) :
      Effect store .inserted { phase := .idle, table := store.table ++ rows }
  | givesUp {step : Step Row} (rough : ¬step.Smooth) :
      Effect store step { store with phase := .idle }
  | insertsSome {step : Step Row} {batch rows : List Row} (stored : ℕ) (rough : ¬step.Smooth)
      (inserting : store.phase = .inserting batch rows) :
      Effect store step { phase := .idle, table := store.table ++ rows.take stored }
  | loses (index : ℕ) :
      Effect store (.lose index) { store with table := store.table.eraseIdx index }

theorem effect_step (store : Store Row) (step : Step Row) :
    Effect keyOf store step (store.step keyOf step) := by
  rcases store with ⟨phase, table⟩
  cases step with
  | submit batch =>
      cases phase with
      | idle =>
          simp only [Store.step]
          split
          · exact .nothing
          · exact .begins rfl
      | checking _ => exact .nothing
      | inserting _ _ => exact .nothing
  | checked =>
      cases phase with
      | idle => exact .nothing
      | checking batch =>
          simp only [Store.step]
          split
          · rename_i known
            exact .nothingNew rfl (List.isEmpty_iff.mp known)
          · exact .checks rfl
      | inserting _ _ => exact .nothing
  | checkFailed =>
      cases phase with
      | idle => exact .nothing
      | checking _ => exact .givesUp id
      | inserting _ _ => exact .nothing
  | inserted =>
      cases phase with
      | idle => exact .nothing
      | checking _ => exact .nothing
      | inserting _ rows => exact .inserts rfl
  | insertFailed stored =>
      cases phase with
      | idle => exact .nothing
      | checking _ => exact .nothing
      | inserting _ rows => exact .insertsSome stored id rfl
  | restart stored =>
      cases phase with
      | idle => exact .givesUp id
      | checking _ => exact .givesUp id
      | inserting _ rows => exact .insertsSome stored id rfl
  | lose index => exact .loses index

/-- The batch of a step that begins one. -/
def begun? (store : Store Row) : Step Row → Option (List Row)
  | .submit batch =>
      match store.phase with
      | .idle => some batch
      | _ => none
  | _ => none

theorem begun?_submit {store : Store Row} (idle : store.phase = .idle) (batch : List Row) :
    store.begun? (.submit batch) = some batch := by
  simp [begun?, idle]

variable {keyOf}

/-- A step brings no rows but those of a batch that it begins. -/
theorem mem_rows_of_step {store : Store Row} {step : Step Row} {row : Row}
    (rowMem : row ∈ (store.step keyOf step).table ∨ row ∈ (store.step keyOf step).phase.rows) :
    (row ∈ store.table ∨ row ∈ store.phase.rows) ∨
      ∃ batch ∈ store.begun? step, row ∈ batch := by
  have effect := store.effect_step keyOf step
  generalize store.step keyOf step = after at effect rowMem
  cases effect with
  | nothing => exact Or.inl rowMem
  | begins idle =>
      rcases rowMem with inTable | inBatch
      · exact Or.inl (Or.inl inTable)
      · exact Or.inr ⟨_, begun?_submit idle _, inBatch⟩
  | checks checking =>
      refine Or.inl (rowMem.imp_right fun isNew => ?_)
      rw [checking]
      exact List.mem_of_mem_filter isNew
  | nothingNew _ _ => exact Or.inl (rowMem.imp_right fun none => absurd none List.not_mem_nil)
  | inserts inserting =>
      rcases rowMem with inTable | none
      · rw [inserting]
        exact Or.inl (List.mem_append.mp inTable)
      · exact absurd none List.not_mem_nil
  | givesUp _ => exact Or.inl (rowMem.imp_right fun none => absurd none List.not_mem_nil)
  | insertsSome stored _ inserting =>
      rcases rowMem with inTable | none
      · rw [inserting]
        exact Or.inl ((List.mem_append.mp inTable).imp_right List.mem_of_mem_take)
      · exact absurd none List.not_mem_nil
  | loses index => exact Or.inl (rowMem.imp_left List.mem_of_mem_eraseIdx)

/-- A batch on its way into a table that has the rows `known`, or its arrival there. -/
inductive Underway (keyOf : Row → Key) (known batch : List Row) (store : Store Row) : Prop where
  | checking (checking : store.phase = .checking batch) (unchanged : store.table = known)
  | inserting (inserting : store.phase = .inserting batch (newRows keyOf known batch))
      (unchanged : store.table = known)
  | arrived (stored : ∀ row ∈ NewKeys.append keyOf known batch, row ∈ store.table)

/-- A row that is there stays when no row is lost. -/
theorem mem_step {store : Store Row} {step : Step Row} (keeps : step.Keeps) {row : Row}
    (rowMem : row ∈ store.table) : row ∈ (store.step keyOf step).table := by
  have effect := store.effect_step keyOf step
  generalize store.step keyOf step = after at effect
  cases effect with
  | inserts _ => exact List.mem_append_left _ rowMem
  | insertsSome stored _ _ => exact List.mem_append_left _ rowMem
  | loses index => exact absurd keeps id
  | _ => exact rowMem

/-- A step that does not fail brings a batch on. -/
theorem Underway.step {known batch : List Row} {store : Store Row}
    (underway : Underway keyOf known batch store) {step : Step Row} (smooth : step.Smooth) :
    Underway keyOf known batch (store.step keyOf step) := by
  have keeps : step.Keeps := by
    cases step with
    | lose index => exact absurd smooth id
    | _ => trivial
  cases underway with
  | arrived stored => exact .arrived fun row rowMem => mem_step keeps (stored row rowMem)
  | checking checking unchanged =>
      have effect := store.effect_step keyOf step
      generalize store.step keyOf step = after at effect
      cases effect with
      | nothing => exact .checking checking unchanged
      | begins idle => rw [checking] at idle; cases idle
      | checks same =>
          rw [checking] at same
          cases same
          refine .inserting ?_ unchanged
          rw [unchanged]
      | nothingNew same none =>
          rw [checking] at same
          cases same
          rw [unchanged] at none
          refine .arrived fun row rowMem => ?_
          rw [NewKeys.append, ← newRows, none, List.append_nil] at rowMem
          exact unchanged ▸ rowMem
      | inserts inserting => rw [checking] at inserting; cases inserting
      | givesUp rough => exact absurd smooth rough
      | insertsSome _ rough _ => exact absurd smooth rough
      | loses index => exact absurd smooth id
  | inserting inserting unchanged =>
      have effect := store.effect_step keyOf step
      generalize store.step keyOf step = after at effect
      cases effect with
      | nothing => exact .inserting inserting unchanged
      | begins idle => rw [inserting] at idle; cases idle
      | checks checking => rw [inserting] at checking; cases checking
      | nothingNew checking _ => rw [inserting] at checking; cases checking
      | inserts same =>
          rw [inserting] at same
          cases same
          refine .arrived fun row rowMem => ?_
          rw [NewKeys.append, ← newRows] at rowMem
          rwa [unchanged]
      | givesUp rough => exact absurd smooth rough
      | insertsSome _ rough _ => exact absurd smooth rough
      | loses index => exact absurd smooth id

/-! ## The table as batches -/

theorem exists_prefix_take (rows : List Row) (isNew : Row → Bool) (stored : ℕ) :
    ∃ part, part <+: rows ∧ part.filter isNew = (rows.filter isNew).take stored := by
  induction rows generalizing stored with
  | nil => exact ⟨[], List.prefix_rfl, by simp⟩
  | cons row rest ih =>
      cases stored with
      | zero => exact ⟨[], List.nil_prefix, by simp⟩
      | succ stored =>
          by_cases new : isNew row
          · rcases ih stored with ⟨part, isPrefix, taken⟩
            exact ⟨row :: part, List.cons_prefix_cons.mpr ⟨rfl, isPrefix⟩, by simp [new, taken]⟩
          · rcases ih (stored + 1) with ⟨part, isPrefix, taken⟩
            exact ⟨row :: part, List.cons_prefix_cons.mpr ⟨rfl, isPrefix⟩, by simp [new, taken]⟩

/--
The table is what atomic batches make of an initial one, each a prefix of a batch that was begun,
and the rows of an insert are the new ones of its batch.
-/
structure Replays (keyOf : Row → Key) (table : List Row) (Begun : List Row → Prop)
    (store : Store Row) : Prop where
  table : ∃ parts, (∀ part ∈ parts, ∃ batch, Begun batch ∧ part <+: batch) ∧
    store.table = NewKeys.appendAll keyOf table parts
  checking : ∀ batch, store.phase = .checking batch → Begun batch
  inserting : ∀ batch rows, store.phase = .inserting batch rows →
    Begun batch ∧ rows = newRows keyOf store.table batch

theorem Replays.initial (table : List Row) (Begun : List Row → Prop) :
    Replays keyOf table Begun { phase := .idle, table } where
  table := ⟨[], by simp, rfl⟩
  checking := by simp
  inserting := by simp

namespace Replays

variable {table : List Row} {Begun : List Row → Prop} {store : Store Row}

/-- After some of the new rows of a batch are stored, the table has one batch more. -/
theorem store_rows (replays : Replays keyOf table Begun store) {batch rows : List Row}
    (inserting : store.phase = .inserting batch rows) (stored : ℕ) :
    Replays keyOf table Begun { phase := .idle, table := store.table ++ rows.take stored } where
  table := by
    rcases replays.table with ⟨parts, prefixes, same⟩
    rcases replays.inserting batch rows inserting with ⟨begun, rfl⟩
    rcases exists_prefix_take batch (fun row => ¬Has keyOf (keyOf row) store.table) stored with
      ⟨part, isPrefix, taken⟩
    refine ⟨parts ++ [part], ?_, ?_⟩
    · intro other otherMem
      rcases List.mem_append.mp otherMem with earlier | last
      · exact prefixes other earlier
      · rw [List.mem_singleton.mp last]
        exact ⟨batch, begun, isPrefix⟩
    · rw [NewKeys.appendAll_concat, ← same, NewKeys.append, taken, newRows]
  checking := by simp
  inserting := by simp

theorem step (replays : Replays keyOf table Begun store) {step : Step Row} (keeps : step.Keeps)
    (begun : ∀ batch ∈ store.begun? step, Begun batch) :
    Replays keyOf table Begun (store.step keyOf step) := by
  have effect := store.effect_step keyOf step
  generalize store.step keyOf step = after at effect
  cases effect with
  | nothing => exact replays
  | begins idle =>
      refine ⟨replays.table, ?_, by simp⟩
      rintro batch same
      cases same
      exact begun _ (begun?_submit idle _)
  | checks checking =>
      refine ⟨replays.table, by simp, ?_⟩
      rintro batch rows same
      cases same
      exact ⟨replays.checking _ checking, rfl⟩
  | nothingNew _ _ => exact ⟨replays.table, by simp, by simp⟩
  | inserts inserting =>
      rename_i rows
      simpa using replays.store_rows inserting rows.length
  | givesUp _ => exact ⟨replays.table, by simp, by simp⟩
  | insertsSome stored _ inserting => exact replays.store_rows inserting stored
  | loses index => exact absurd keeps id

end Replays

/-- Rows with one key come from one of the batches. -/
def FromOne (keyOf : Row → Key) (batches : List (List Row)) (rows : List Row) : Prop :=
  ∀ row ∈ rows, ∀ other ∈ rows, keyOf row = keyOf other →
    ∃ batch ∈ batches, row ∈ batch ∧ other ∈ batch

theorem FromOne.append {batches : List (List Row)} {rows batch : List Row}
    (fromOne : FromOne keyOf batches rows) (batchMem : batch ∈ batches) :
    FromOne keyOf batches (NewKeys.append keyOf rows batch) := by
  have isNew {row : Row} (rowMem : row ∈ batch.filter fun row => ¬Has keyOf (keyOf row) rows) :
      row ∈ batch ∧ ¬Has keyOf (keyOf row) rows := by
    simpa using rowMem
  intro row rowMem other otherMem same
  rcases List.mem_append.mp rowMem with old | new
  · rcases List.mem_append.mp otherMem with otherOld | otherNew
    · exact fromOne row old other otherOld same
    · exact absurd ⟨row, old, same⟩ (isNew otherNew).2
  · rcases List.mem_append.mp otherMem with otherOld | otherNew
    · exact absurd ⟨other, otherOld, same.symm⟩ (isNew new).2
    · exact ⟨batch, batchMem, (isNew new).1, (isNew otherNew).1⟩

theorem FromOne.appendAll {batches more : List (List Row)} {rows : List Row}
    (fromOne : FromOne keyOf batches rows) (subset : more ⊆ batches) :
    FromOne keyOf batches (NewKeys.appendAll keyOf rows more) := by
  induction more generalizing rows with
  | nil => exact fromOne
  | cons batch more ih =>
      rw [List.cons_subset] at subset
      exact ih (fromOne.append subset.1) subset.2

theorem fromOne_appendAll (table : List Row) (batches : List (List Row)) :
    FromOne keyOf (table :: batches) (NewKeys.appendAll keyOf table batches) := by
  have atFirst : FromOne keyOf (table :: batches) table := fun _ rowMem _ otherMem _ =>
    ⟨table, List.mem_cons_self, rowMem, otherMem⟩
  exact atFirst.appendAll (List.subset_cons_self _ _)

end Store

/-! ## A system with a writer -/

/-- A system of which the writer and its table are a part. -/
structure Host (State : Type w) (Action : Type x) (keyOf : Row → Key) [DecidableEq Key] where
  step : State → Action → State
  store : State → Store Row
  asks? : State → Action → Option (Step Row)
  store_step : ∀ state action, store (step state action) =
    (asks? state action).elim (store state) ((store state).step keyOf)

namespace Host

variable {State : Type w} {Action : Type x} [DecidableEq Key] {keyOf : Row → Key}
  (host : Host State Action keyOf)

/-- The action begins the batch. -/
def Begins (state : State) (action : Action) (batch : List Row) : Prop :=
  ∃ step ∈ host.asks? state action, batch ∈ (host.store state).begun? step

/-- The batch is begun in the run. -/
def BegunIn (state : State) (actions : List Action) (batch : List Row) : Prop :=
  ∃ before action after, actions = before ++ action :: after ∧
    host.Begins (before.foldl host.step state) action batch

/-- Every step that an action of the run asks for is of some kind. -/
def Asks (allowed : Step Row → Prop) (state : State) (actions : List Action) : Prop :=
  Run.EveryStep host.step (fun state action => ∀ step ∈ host.asks? state action, allowed step)
    state actions

theorem begins_everyStep (state : State) (actions : List Action) :
    Run.EveryStep host.step
      (fun now action => ∀ batch, host.Begins now action batch → host.BegunIn state actions batch)
      state actions :=
  Run.everyStep_iff.mpr fun before action after split _ begins =>
    ⟨before, action, after, split, begins⟩

/-- Every row of the table was there at first, or in a batch that was begun. -/
theorem mem_table_run (state : State) (idle : (host.store state).phase = .idle)
    {actions : List Action} {row : Row}
    (rowMem : row ∈ (host.store (actions.foldl host.step state)).table) :
    row ∈ (host.store state).table ∨ ∃ batch, host.BegunIn state actions batch ∧ row ∈ batch := by
  refine Run.holds_of_everyStep (fun now => ∀ row,
    row ∈ (host.store now).table ∨ row ∈ (host.store now).phase.rows →
      row ∈ (host.store state).table ∨ ∃ batch, host.BegunIn state actions batch ∧ row ∈ batch)
    ?_ ?_ (host.begins_everyStep state actions) row (Or.inl rowMem)
  · intro now action sound begun row rowMem
    rw [host.store_step] at rowMem
    cases asked : host.asks? now action with
    | none =>
        rw [asked] at rowMem
        exact sound row rowMem
    | some step =>
        rw [asked] at rowMem
        rcases Store.mem_rows_of_step rowMem with old | ⟨batch, begins, inBatch⟩
        · exact sound row old
        · exact Or.inr ⟨batch, begun batch ⟨step, asked, begins⟩, inBatch⟩
  · rintro row (inTable | inPhase)
    · exact Or.inl inTable
    · rw [idle] at inPhase
      exact absurd inPhase List.not_mem_nil

/-- When no row is lost, every row that is there stays. -/
theorem mem_run (state : State) {actions : List Action}
    (keeps : host.Asks Step.Keeps state actions) {row : Row}
    (rowMem : row ∈ (host.store state).table) :
    row ∈ (host.store (actions.foldl host.step state)).table := by
  refine Run.holds_of_everyStep (fun now => row ∈ (host.store now).table) ?_ rowMem keeps
  intro now action rowMem keeps
  rw [host.store_step]
  cases asked : host.asks? now action with
  | none => exact rowMem
  | some step => exact Store.mem_step (keeps step asked) rowMem

/-- A batch that meets no failure leaves all the rows in the table that an atomic one leaves. -/
theorem mem_of_batch (state : State) {batch : List Row} {actions : List Action}
    (began : (host.store state).phase = .checking batch)
    (smooth : host.Asks Step.Smooth state actions)
    (ended : (host.store (actions.foldl host.step state)).phase = .idle) :
    ∀ row ∈ NewKeys.append keyOf (host.store state).table batch,
      row ∈ (host.store (actions.foldl host.step state)).table := by
  have underway : Store.Underway keyOf (host.store state).table batch
      (host.store (actions.foldl host.step state)) := by
    refine Run.holds_of_everyStep
      (fun now => Store.Underway keyOf (host.store state).table batch (host.store now)) ?_
      (.checking began rfl) smooth
    intro now action underway smooth
    rw [host.store_step]
    cases asked : host.asks? now action with
    | none => exact underway
    | some step => exact underway.step (smooth step asked)
  cases underway with
  | checking checking _ => rw [ended] at checking; cases checking
  | inserting inserting _ => rw [ended] at inserting; cases inserting
  | arrived stored => exact stored

/-- When no row is lost, rows with one key were there at first or come from one batch. -/
theorem same_batch (state : State) (idle : (host.store state).phase = .idle)
    {actions : List Action} (keeps : host.Asks Step.Keeps state actions) {row other : Row}
    (rowMem : row ∈ (host.store (actions.foldl host.step state)).table)
    (otherMem : other ∈ (host.store (actions.foldl host.step state)).table)
    (same : keyOf row = keyOf other) :
    (row ∈ (host.store state).table ∧ other ∈ (host.store state).table) ∨
      ∃ batch, host.BegunIn state actions batch ∧ row ∈ batch ∧ other ∈ batch := by
  have replays : Store.Replays keyOf (host.store state).table (host.BegunIn state actions)
      (host.store (actions.foldl host.step state)) := by
    refine Run.holds_of_everyStep (fun now => Store.Replays keyOf (host.store state).table
      (host.BegunIn state actions) (host.store now)) ?_ ?_
      (keeps.and (host.begins_everyStep state actions))
    · intro now action replays ⟨keeps, begun⟩
      rw [host.store_step]
      cases asked : host.asks? now action with
      | none => exact replays
      | some step =>
          exact replays.step (keeps step asked) fun batch begins =>
            begun batch ⟨step, asked, begins⟩
    · have initial : Store.Replays keyOf (host.store state).table (host.BegunIn state actions)
          { phase := .idle, table := (host.store state).table } := .initial _ _
      rwa [← idle] at initial
  rcases replays.table with ⟨parts, prefixes, table_eq⟩
  rw [table_eq] at rowMem otherMem
  rcases Store.fromOne_appendAll _ _ row rowMem other otherMem same with
    ⟨part, partMem, inPart, otherInPart⟩
  rcases List.mem_cons.mp partMem with rfl | partMem
  · exact Or.inl ⟨inPart, otherInPart⟩
  · rcases prefixes part partMem with ⟨batch, begun, isPrefix⟩
    exact Or.inr ⟨batch, begun, isPrefix.subset inPart, isPrefix.subset otherInPart⟩

end Host

end BatchWriter
