import Mathlib.Order.Basic

/-!
# Loops

A loop repeats a body that leaves it with a result or goes on in a new state. A run is
given the number of repetitions it may take, and has no result if they are not enough.
The rule for total correctness takes an invariant and a measure: if the body keeps the
invariant and lowers the measure whenever it goes on, the loop is left after at most one
repetition more than the measure.
-/

universe u v

namespace Loop

variable {State : Type u} {Result : Type v}

/-- The result within `fuel` repetitions of the body. -/
def run (body : State → State ⊕ Result) : ℕ → State → Option Result
  | 0, _ => none
  | fuel + 1, state =>
      match body state with
      | .inl next => run body fuel next
      | .inr result => some result

variable {body : State → State ⊕ Result}

/-- A body that keeps the invariant and lowers the measure leads to a result it may leave with. -/
theorem exists_run {invariant : State → Prop} {measure : State → ℕ} {post : Result → Prop}
    (goesOn : ∀ state next, invariant state → body state = .inl next →
      invariant next ∧ measure next < measure state)
    (leaves : ∀ state result, invariant state → body state = .inr result → post result)
    {state : State} (holds : invariant state) :
    ∃ result, post result ∧ ∀ fuel, measure state < fuel → run body fuel state = some result := by
  induction bound : measure state using Nat.strongRecOn generalizing state with
  | _ bound ih =>
      cases step : body state with
      | inl next =>
          rcases goesOn state next holds step with ⟨nextHolds, falls⟩
          rcases ih (measure next) (by omega) nextHolds rfl with ⟨result, good, returned⟩
          refine ⟨result, good, ?_⟩
          intro fuel enough
          cases fuel with
          | zero => omega
          | succ fuel =>
              simp only [run, step]
              apply returned
              omega
      | inr result =>
          refine ⟨result, leaves state result holds step, ?_⟩
          intro fuel enough
          cases fuel with
          | zero => omega
          | succ fuel => simp only [run, step]

end Loop
