import Mathlib.Algebra.Order.Group.Multiset
import Qubit.Lib.Run

/-!
# Pools

A pool holds what has been posted and not yet been taken: messages on their way, tasks that
have not finished, the rows of a table. Items are taken in any order. Whatever a system does
with its pool, what is posted is either still there or has been taken, each item as often as
it was posted. So when one pool is filled from another one, nothing is invented or doubled on
the way, and what is missing at the end was taken somewhere else.
-/

universe u v w

namespace Pool

variable {Item : Type u} {State : Type v} {Action : Type w}

/-- What a step does to a pool. -/
inductive Move (Item : Type u) where
  | post (items : List Item)
  | take (index : ℕ)

namespace Move

def perform (pool : List Item) : Move Item → List Item
  | .post items => pool ++ items
  | .take index => pool.eraseIdx index

def posted : Move Item → List Item
  | .post items => items
  | .take _ => []

def taken (pool : List Item) : Move Item → List Item
  | .post _ => []
  | .take index => pool[index]?.toList

theorem perm_perform (move : Move Item) (pool : List Item) :
    (move.perform pool ++ move.taken pool).Perm (pool ++ move.posted) := by
  cases move with
  | post items => simp [perform, taken, posted]
  | take index =>
      simp only [perform, taken, posted, List.append_nil]
      cases found : pool[index]? with
      | none =>
          rw [List.getElem?_eq_none_iff] at found
          rw [List.eraseIdx_of_length_le found, Option.toList_none, List.append_nil]
      | some item =>
          rcases List.getElem?_eq_some_iff.mp found with ⟨inside, rfl⟩
          exact (List.perm_append_singleton _ _).trans (List.getElem_cons_eraseIdx_perm inside)

theorem mem_or_posted_of_mem_perform {move : Move Item} {pool : List Item} {item : Item}
    (member : item ∈ move.perform pool) : item ∈ pool ∨ item ∈ move.posted :=
  List.mem_append.mp ((move.perm_perform pool).mem_iff.mp (List.mem_append_left _ member))

end Move

/-- A system with a pool. -/
structure Host (State : Type v) (Action : Type w) (Item : Type u) where
  step : State → Action → State
  pool : State → List Item
  move : State → Action → Move Item
  pool_step : ∀ state action, pool (step state action) = (move state action).perform (pool state)

namespace Host

variable (host : Host State Action Item)

def posted (state : State) (action : Action) : List Item :=
  (host.move state action).posted

def taken (state : State) (action : Action) : List Item :=
  (host.move state action).taken (host.pool state)

theorem perm_step (state : State) (action : Action) :
    (host.pool (host.step state action) ++ host.taken state action).Perm
      (host.pool state ++ host.posted state action) := by
  rw [host.pool_step]
  exact (host.move state action).perm_perform (host.pool state)

/-- What was there and what was posted is there or was taken. -/
theorem perm_run (state : State) (actions : List Action) :
    (host.pool (actions.foldl host.step state) ++
        Run.collect host.step host.taken state actions).Perm
      (host.pool state ++ Run.collect host.step host.posted state actions) := by
  induction actions generalizing state with
  | nil => exact List.Perm.refl _
  | cons first rest ih =>
      have here := Multiset.coe_eq_coe.mpr (host.perm_step state first)
      have later := Multiset.coe_eq_coe.mpr (ih (host.step state first))
      rw [← Multiset.coe_eq_coe]
      simp only [List.foldl_cons, Run.collect, ← Multiset.coe_add] at here later ⊢
      rw [add_left_comm, later, ← add_assoc, add_comm (Multiset.ofList _), here, add_assoc]

end Host

end Pool
