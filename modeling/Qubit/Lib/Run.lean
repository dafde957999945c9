import Mathlib.Data.List.Basic

/-!
# Conditions along a run

A system that takes actions one after another is a left fold of its step function.
An invariant of the step function is an invariant of the run (`List.foldlRecOn`).
This file adds the rules for a property that is kept only by the steps meeting a
condition: if the condition is enough at every step, the property holds after the
run, and if it is exact at every step, the property holds after the run precisely
when every step met the condition.

A run may also be observed by a bookkeeper, who sees each action together with the
state it is taken in and never changes that state.
-/

namespace Run

universe u v w

variable {State : Type u} {Action : Type v} {Record : Type w}

/-- Every action of the run meets the condition in the state in which it is taken. -/
def EveryStep (step : State → Action → State) (condition : State → Action → Prop) :
    State → List Action → Prop
  | _, [] => True
  | state, action :: rest =>
      condition state action ∧ EveryStep step condition (step state action) rest

instance decidableEveryStep {step : State → Action → State}
    {condition : State → Action → Prop} [∀ state, DecidablePred (condition state)] :
    ∀ state actions, Decidable (EveryStep step condition state actions)
  | _, [] => .isTrue trivial
  | state, action :: rest =>
      have : Decidable (EveryStep step condition (step state action) rest) :=
        decidableEveryStep (step state action) rest
      inferInstanceAs (Decidable (_ ∧ _))

theorem everyStep_iff {step : State → Action → State} {condition : State → Action → Prop}
    {state : State} {actions : List Action} :
    EveryStep step condition state actions ↔
      ∀ before action after, actions = before ++ action :: after →
        condition (before.foldl step state) action := by
  induction actions generalizing state with
  | nil => simp [EveryStep]
  | cons first rest ih =>
      simp only [EveryStep, ih]
      constructor
      · rintro ⟨firstMeets, restMeets⟩ before action after split
        cases before with
        | nil =>
            simp only [List.nil_append, List.cons.injEq] at split
            rcases split with ⟨rfl, rfl⟩
            exact firstMeets
        | cons head before =>
            simp only [List.cons_append, List.cons.injEq] at split
            rcases split with ⟨rfl, restSplit⟩
            exact restMeets before action after restSplit
      · intro meets
        refine ⟨meets [] first rest rfl, ?_⟩
        intro before action after split
        exact meets (first :: before) action after (by rw [split, List.cons_append])

/-- Two positions of a run are the same, or one comes after the other. -/
theorem same_or_later {before after before' after' : List Action} {action other : Action}
    (same : before ++ action :: after = before' ++ other :: after') :
    (action = other ∧ after = after') ∨ other ∈ after ∨ action ∈ after' := by
  induction before generalizing before' with
  | nil =>
      cases before' with
      | nil =>
          simp only [List.nil_append, List.cons.injEq] at same
          exact Or.inl same
      | cons head rest =>
          simp only [List.nil_append, List.cons_append, List.cons.injEq] at same
          rw [same.2]
          exact Or.inr (Or.inl (List.mem_append_right _ List.mem_cons_self))
  | cons head before ih =>
      cases before' with
      | nil =>
          simp only [List.nil_append, List.cons_append, List.cons.injEq] at same
          rw [← same.2]
          exact Or.inr (Or.inr (List.mem_append_right _ List.mem_cons_self))
      | cons head' rest =>
          simp only [List.cons_append, List.cons.injEq] at same
          exact ih same.2

/-- A condition on the actions alone, met by all of them, is met at every step. -/
theorem EveryStep.and_forall {step : State → Action → State}
    {condition : State → Action → Prop} {allowed : Action → Prop} {state : State}
    {actions : List Action} (meets : EveryStep step condition state actions)
    (all : ∀ action ∈ actions, allowed action) :
    EveryStep step (fun state action => condition state action ∧ allowed action) state
      actions := by
  rw [everyStep_iff] at meets ⊢
  intro before action after split
  refine ⟨meets before action after split, all action ?_⟩
  rw [split]
  exact List.mem_append_right _ List.mem_cons_self

theorem EveryStep.and {step : State → Action → State} {first second : State → Action → Prop}
    {state : State} {actions : List Action} (meetsFirst : EveryStep step first state actions)
    (meetsSecond : EveryStep step second state actions) :
    EveryStep step (fun state action => first state action ∧ second state action)
      state actions := by
  rw [everyStep_iff] at meetsFirst meetsSecond ⊢
  intro before action after split
  exact ⟨meetsFirst before action after split, meetsSecond before action after split⟩

/-- A property kept by every step that meets the condition. -/
theorem holds_of_everyStep {step : State → Action → State}
    {condition : State → Action → Prop} (property : State → Prop)
    (keeps : ∀ state action, property state → condition state action →
      property (step state action))
    {state : State} {actions : List Action} (initially : property state)
    (meets : EveryStep step condition state actions) :
    property (actions.foldl step state) := by
  induction actions generalizing state with
  | nil => exact initially
  | cons first rest ih =>
      rcases meets with ⟨firstMeets, restMeets⟩
      exact ih (keeps state first initially firstMeets) restMeets

/--
A property that a step establishes exactly when it held before and the step meets the condition.
The invariant carries what the two sides need to know of a reachable state, and every action of
the run is one that is allowed.
-/
theorem holds_iff_everyStep {step : State → Action → State}
    {condition : State → Action → Prop} {invariant : State → Prop} {allowed : Action → Prop}
    (property : State → Prop)
    (invariant_step : ∀ state action, invariant state → allowed action →
      invariant (step state action))
    (exact_step : ∀ state action, invariant state → allowed action →
      (property (step state action) ↔ property state ∧ condition state action))
    {state : State} {actions : List Action} (initially : invariant state)
    (all : ∀ action ∈ actions, allowed action) :
    property (actions.foldl step state) ↔
      property state ∧ EveryStep step condition state actions := by
  induction actions generalizing state with
  | nil => simp [EveryStep]
  | cons first rest ih =>
      have firstAllowed := all first List.mem_cons_self
      have restAllowed := fun action member => all action (List.mem_cons_of_mem first member)
      rw [List.foldl_cons, ih (invariant_step state first initially firstAllowed) restAllowed,
        exact_step state first initially firstAllowed, EveryStep, and_assoc]

section Stored

variable {Item : Type w} (step : State → Action → State) (invariant : State → Prop)
  (stores : State → Item → Prop) (carry : Action → Item → Item)
  (adds : State → Action → Option Item)

/-- What an item has become after some actions. -/
def carried (actions : List Action) (item : Item) : Item :=
  actions.foldl (fun item action => carry action item) item

/--
If a step stores nothing but what it adds and what was stored before, carried by its action, a
run stores only what was stored at its start or added on the way, carried by what followed.
-/
theorem of_stored
    (invariant_step : ∀ state action, invariant state → invariant (step state action))
    (stores_step : ∀ state action item, invariant state → stores (step state action) item →
      (∃ old, stores state old ∧ carry action old = item) ∨ item ∈ adds state action)
    {state : State} {actions : List Action} (initially : invariant state) {item : Item}
    (stored : stores (actions.foldl step state) item) :
    (∃ old, stores state old ∧ carried carry actions old = item) ∨
      ∃ before action after, actions = before ++ action :: after ∧
        ∃ new ∈ adds (before.foldl step state) action, carried carry after new = item := by
  induction actions generalizing state with
  | nil => exact Or.inl ⟨item, stored, rfl⟩
  | cons first rest ih =>
      rcases ih (invariant_step state first initially) stored with
        ⟨old, oldStored, same⟩ | ⟨before, action, after, rfl, new, added, same⟩
      · rcases stores_step state first old initially oldStored with
          ⟨older, olderStored, rfl⟩ | added
        · exact Or.inl ⟨older, olderStored, same⟩
        · exact Or.inr ⟨[], first, rest, rfl, old, added, same⟩
      · exact Or.inr ⟨first :: before, action, after, rfl, new, added, same⟩

/-- If every step stores what it adds and carries along what was stored, so does the run. -/
theorem stored_carried
    (invariant_step : ∀ state action, invariant state → invariant (step state action))
    (stores_step : ∀ state action item, invariant state → stores state item →
      stores (step state action) (carry action item))
    {state : State} {actions : List Action} (initially : invariant state) {item : Item}
    (stored : stores state item) :
    stores (actions.foldl step state) (carried carry actions item) := by
  induction actions generalizing state item with
  | nil => exact stored
  | cons first rest ih =>
      exact ih (invariant_step state first initially)
        (stores_step state first item initially stored)

theorem invariant_foldl {step : State → Action → State} {invariant : State → Prop}
    (invariant_step : ∀ state action, invariant state → invariant (step state action))
    {state : State} (initially : invariant state) (actions : List Action) :
    invariant (actions.foldl step state) :=
  List.foldlRecOn actions step initially fun state holds action _ =>
    invariant_step state action holds

/-- When a step does exactly this, a run stores exactly this. -/
theorem stored_iff
    (invariant_step : ∀ state action, invariant state → invariant (step state action))
    (stores_step : ∀ state action item, invariant state →
      (stores (step state action) item ↔
        (∃ old, stores state old ∧ carry action old = item) ∨ item ∈ adds state action))
    {state : State} {actions : List Action} (initially : invariant state) {item : Item} :
    stores (actions.foldl step state) item ↔
      (∃ old, stores state old ∧ carried carry actions old = item) ∨
        ∃ before action after, actions = before ++ action :: after ∧
          ∃ new ∈ adds (before.foldl step state) action, carried carry after new = item := by
  have keeps : ∀ state action item, invariant state → stores state item →
      stores (step state action) (carry action item) := fun state action item holds stored =>
    (stores_step state action _ holds).mpr (Or.inl ⟨item, stored, rfl⟩)
  constructor
  · exact of_stored step invariant stores carry adds invariant_step
      (fun state action item holds => (stores_step state action item holds).mp) initially
  · rintro (⟨old, oldStored, rfl⟩ | ⟨before, action, after, rfl, new, added, rfl⟩)
    · exact stored_carried step invariant stores carry invariant_step keeps initially oldStored
    · have reached := invariant_foldl invariant_step initially before
      rw [List.foldl_append, List.foldl_cons]
      exact stored_carried step invariant stores carry invariant_step keeps
        (invariant_step _ action reached) ((stores_step _ action new reached).mpr (Or.inr added))

end Stored

section Collected

variable {Item : Type w} {step : State → Action → State} (output : State → Action → List Item)

/-- What the steps of a run put out, one after another. -/
def collect (step : State → Action → State) (output : State → Action → List Item) :
    State → List Action → List Item
  | _, [] => []
  | state, action :: rest => output state action ++ collect step output (step state action) rest

theorem mem_collect_iff {state : State} {actions : List Action} {item : Item} :
    item ∈ collect step output state actions ↔
      ∃ before action after, actions = before ++ action :: after ∧
        item ∈ output (before.foldl step state) action := by
  induction actions generalizing state with
  | nil => simp [collect]
  | cons first rest ih =>
      rw [collect, List.mem_append, ih]
      constructor
      · rintro (here | ⟨before, action, after, rfl, put⟩)
        · exact ⟨[], first, rest, rfl, here⟩
        · exact ⟨first :: before, action, after, rfl, put⟩
      · rintro ⟨before, action, after, split, put⟩
        cases before with
        | nil =>
            rw [List.nil_append, List.cons.injEq] at split
            rcases split with ⟨rfl, rfl⟩
            exact Or.inl put
        | cons head before =>
            rw [List.cons_append, List.cons.injEq] at split
            rcases split with ⟨rfl, rfl⟩
            exact Or.inr ⟨before, action, after, rfl, put⟩

theorem collect_flatMap {Piece : Type*} (pieces : Item → List Piece) (state : State)
    (actions : List Action) :
    collect step (fun state action => (output state action).flatMap pieces) state actions =
      (collect step output state actions).flatMap pieces := by
  induction actions generalizing state with
  | nil => rfl
  | cons first rest ih => rw [collect, collect, ih, List.flatMap_append]

theorem collect_map {Piece : Type*} (piece : Item → Piece) (state : State)
    (actions : List Action) :
    collect step (fun state action => (output state action).map piece) state actions =
      (collect step output state actions).map piece := by
  induction actions generalizing state with
  | nil => rfl
  | cons first rest ih => rw [collect, collect, ih, List.map_append]

theorem collect_filter (keep : Item → Bool) (state : State) (actions : List Action) :
    collect step (fun state action => (output state action).filter keep) state actions =
      (collect step output state actions).filter keep := by
  induction actions generalizing state with
  | nil => rfl
  | cons first rest ih => rw [collect, collect, ih, List.filter_append]

theorem collect_append_perm (other : State → Action → List Item) (state : State)
    (actions : List Action) :
    (collect step (fun state action => output state action ++ other state action) state
      actions).Perm (collect step output state actions ++ collect step other state actions) := by
  induction actions generalizing state with
  | nil => exact List.Perm.refl _
  | cons first rest ih =>
      simp only [collect, List.append_assoc]
      refine List.Perm.append_left _ ?_
      refine (List.Perm.append_left _ (ih (step state first))).trans ?_
      rw [← List.append_assoc, ← List.append_assoc]
      exact List.Perm.append_right _ List.perm_append_comm

end Collected

/-- The book after a run in which `note` writes down every action. -/
def book (step : State → Action → State) (note : State → Record → Action → Record) :
    State → Record → List Action → Record
  | _, noted, [] => noted
  | state, noted, action :: rest =>
      book step note (step state action) (note state noted action) rest

theorem book_append {step : State → Action → State} {note : State → Record → Action → Record}
    (state : State) (noted : Record) (earlier later : List Action) :
    book step note state noted (earlier ++ later) =
      book step note (earlier.foldl step state) (book step note state noted earlier) later := by
  induction earlier generalizing state noted with
  | nil => rfl
  | cons first rest ih => exact ih _ _

/-- What the book says of the state is kept along the run when every step keeps it. -/
theorem book_correct {step : State → Action → State} {note : State → Record → Action → Record}
    (correct : State → Record → Prop)
    (keeps : ∀ state noted action, correct state noted →
      correct (step state action) (note state noted action))
    {state : State} {noted : Record} (actions : List Action) (initially : correct state noted) :
    correct (actions.foldl step state) (book step note state noted actions) := by
  induction actions generalizing state noted with
  | nil => exact initially
  | cons first rest ih => exact ih (keeps state noted first initially)

end Run
