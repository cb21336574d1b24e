import FieldQuery.Execution.Basic

/-!
# Outcomes of computations

How the outcome of a compound computation follows from the outcomes of its parts. Proofs about
executions use these laws and never the representation of computations.
-/

set_option autoImplicit false

namespace FieldQuery.Execution

namespace Computation

variable {State α β : Type}

/-- Computations with the same outcomes are equal. -/
theorem ext_outcome {first second : Computation State α}
    (same : ∀ state, outcome first state = outcome second state) : first = second := funext same

@[simp] theorem outcome_pure (value : α) (state : State) :
    outcome (pure value : Computation State α) state = (.ok value, state) := rfl

@[simp] theorem outcome_throw (error : ExecutionError) (state : State) :
    outcome (throw error : Computation State α) state = (.error error, state) := rfl

@[simp] theorem outcome_liftM (step : StateM State α) (state : State) :
    outcome (liftM step : Computation State α) state =
      (.ok (step.run state).1, (step.run state).2) := rfl

@[simp] theorem outcome_adapt (step : ExceptT String (StateM State) α)
    (wrap : String → ExecutionError) (state : State) :
    outcome (step.adapt wrap : Computation State α) state =
      ((step.run.run state).1.mapError wrap, (step.run.run state).2) := rfl

def continued (next : α → Computation State β) :
    Except ExecutionError α × State → Except ExecutionError β × State
  | (.ok value, state) => outcome (next value) state
  | (.error error, state) => (.error error, state)

theorem outcome_bind (first : Computation State α) (next : α → Computation State β)
    (state : State) : outcome (first >>= next) state = continued next (outcome first state) := by
  have unfolded : outcome (first >>= next) state =
      (StateT.run (ExceptT.bindCont next (StateT.run first state).1)
        (StateT.run first state).2) := rfl
  rw [unfolded]
  cases ran : outcome first state with
  | mk result after =>
      have ran : StateT.run first state = (result, after) := ran
      rw [ran]
      cases result <;> rfl

theorem outcome_bind_eq_ok_iff {first : Computation State α} {next : α → Computation State β}
    {before after : State} {result : β} :
    outcome (first >>= next) before = (.ok result, after) ↔
      ∃ value between, outcome first before = (.ok value, between) ∧
        outcome (next value) between = (.ok result, after) := by
  rw [outcome_bind]
  constructor
  · intro succeeded
    cases ran : outcome first before with
    | mk result between =>
        rw [ran] at succeeded
        cases result with
        | error error => cases succeeded
        | ok value => exact ⟨value, between, rfl, succeeded⟩
  · rintro ⟨value, between, ran, succeeded⟩
    rw [ran]
    exact succeeded

end Computation

end FieldQuery.Execution
