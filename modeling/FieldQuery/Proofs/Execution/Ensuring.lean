import FieldQuery.Proofs.Execution.Outcome

/-!
# Conditions before and behind computations

What a computation ensures in the state that it leaves, when it succeeds and when it fails, from
what held in the state before it. Where only the errors matter, no condition is put on states.
-/

set_option autoImplicit false

namespace FieldQuery.Execution.Computation

variable {State α β : Type} {stopped : ExecutionError → State → Prop}

/-- How a computation may end: with a value and a state that it ensures, or stopped by an error. -/
inductive Ends (ensured : α → State → Prop) (stopped : ExecutionError → State → Prop) :
    Except ExecutionError α × State → Prop where
  | ok {value : α} {after : State} (holds : ensured value after) :
      Ends ensured stopped (.ok value, after)
  | error {error : ExecutionError} {after : State} (holds : stopped error after) :
      Ends ensured stopped (.error error, after)

def Ensures (before : State → Prop) (computation : Computation State α)
    (ensured : α → State → Prop) (stopped : ExecutionError → State → Prop) : Prop :=
  ∀ state, before state → Ends ensured stopped (outcome computation state)

variable {before : State → Prop} {ensured weaker : α → State → Prop}

theorem ensures_pure {value : α} (holds : ∀ state, before state → ensured value state) :
    Ensures before (pure value) ensured stopped :=
  fun state condition => .ok (holds state condition)

theorem ensures_throw {error : ExecutionError} (holds : ∀ state, before state → stopped error state) :
    Ensures before (throw error) ensured stopped :=
  fun state condition => .error (holds state condition)

theorem ensures_liftM {step : StateM State α}
    (holds : ∀ state, before state → ensured (step.run state).1 (step.run state).2) :
    Ensures before (liftM step) ensured stopped :=
  fun state condition => .ok (holds state condition)

theorem ensures_adapt {step : ExceptT String (StateM State) α} {wrap : String → ExecutionError}
    (holds : ∀ state, before state →
      match (step.run.run state).1 with
      | .ok value => ensured value (step.run.run state).2
      | .error text => stopped (wrap text) (step.run.run state).2) :
    Ensures before (step.adapt wrap) ensured stopped := by
  intro state condition
  have ends := holds state condition
  rw [outcome_adapt]
  cases result : (step.run.run state).1 with
  | ok value =>
      rw [result] at ends
      exact .ok ends
  | error text =>
      rw [result] at ends
      exact .error ends

theorem Ensures.weaken {computation : Computation State α}
    {laxer : ExecutionError → State → Prop}
    (ensures : Ensures before computation ensured stopped)
    (weakens : ∀ value state, ensured value state → weaker value state)
    (laxens : ∀ error state, stopped error state → laxer error state) :
    Ensures before computation weaker laxer := by
  intro state condition
  have ends := ensures state condition
  generalize outcome computation state = ended at ends
  cases ends with
  | ok holds => exact .ok (weakens _ _ holds)
  | error holds => exact .error (laxens _ _ holds)

theorem ensures_of_fact {fact : Prop} {computation : Computation State α}
    (ensures : fact → Ensures before computation ensured stopped) :
    Ensures (fun state => fact ∧ before state) computation ensured stopped :=
  fun state condition => ensures condition.1 state condition.2

theorem Ensures.bind {first : Computation State α} {next : α → Computation State β}
    {later : β → State → Prop} (ensuresFirst : Ensures before first ensured stopped)
    (ensuresNext : ∀ value, Ensures (ensured value) (next value) later stopped) :
    Ensures before (first >>= next) later stopped := by
  intro state condition
  rw [outcome_bind]
  have ends := ensuresFirst state condition
  generalize outcome first state = ended at ends
  cases ends with
  | ok holds => exact ensuresNext _ _ holds
  | error holds => exact .error holds

/-- A condition that advances with each element holds of their number behind all of them. -/
theorem ensures_mapM (invariant : Nat → State → Prop) {each : α → Computation State β}
    (values : List α)
    (advances : ∀ index value, values[index]? = some value →
      Ensures (invariant index) (each value) (fun _ => invariant (index + 1)) stopped) :
    Ensures (invariant 0) (values.mapM each) (fun _ => invariant values.length) stopped := by
  induction values generalizing invariant with
  | nil => exact ensures_pure fun state holds => holds
  | cons value values ih =>
      rw [List.mapM_cons]
      apply (advances 0 value rfl).bind
      intro first
      apply (ih (fun index => invariant (index + 1)) fun index other found =>
        advances (index + 1) other found).bind
      intro rest
      exact ensures_pure fun state holds => holds

def FailsWith (kind : ExecutionError → Prop) (computation : Computation State α) : Prop :=
  Ensures (fun _ => True) computation (fun _ _ => True) fun error _ => kind error

variable {kind other : ExecutionError → Prop}

theorem FailsWith.of_outcome {computation : Computation State α}
    (fails : FailsWith kind computation) {state after : State} {error : ExecutionError}
    (ended : outcome computation state = (.error error, after)) : kind error := by
  have ends := fails state trivial
  rw [ended] at ends
  cases ends with
  | error ofKind => exact ofKind

theorem failsWith_pure (value : α) : FailsWith kind (pure value : Computation State α) :=
  ensures_pure fun _ _ => trivial

theorem failsWith_throw {error : ExecutionError} (ofKind : kind error) :
    FailsWith kind (throw error : Computation State α) := ensures_throw fun _ _ => ofKind

theorem failsWith_liftM (step : StateM State α) :
    FailsWith kind (liftM step : Computation State α) := ensures_liftM fun _ _ => trivial

theorem failsWith_adapt (step : ExceptT String (StateM State) α)
    {wrap : String → ExecutionError} (ofKind : ∀ text, kind (wrap text)) :
    FailsWith kind (step.adapt wrap : Computation State α) := by
  apply ensures_adapt
  intro state _
  cases (step.run.run state).1 with
  | ok => trivial
  | error text => exact ofKind text

theorem FailsWith.mono {computation : Computation State α} (fails : FailsWith kind computation)
    (weaker : ∀ error, kind error → other error) : FailsWith other computation :=
  fails.weaken (fun _ _ _ => trivial) fun error _ => weaker error

theorem FailsWith.bind {first : Computation State α} {next : α → Computation State β}
    (failsFirst : FailsWith kind first) (failsNext : ∀ value, FailsWith kind (next value)) :
    FailsWith kind (first >>= next) := Ensures.bind failsFirst failsNext

theorem FailsWith.mapM {each : α → Computation State β}
    (fails : ∀ value, FailsWith kind (each value)) (values : List α) :
    FailsWith kind (values.mapM each) :=
  ensures_mapM (fun _ _ => True) values fun _ value _ => fails value

end FieldQuery.Execution.Computation
