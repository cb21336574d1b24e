import FieldQuery.Proofs.Execution.Equations
import FieldQuery.Proofs.Execution.Outcome

/-!
# Determined computations

A computation is determined by a condition on states if it ends alike wherever the condition holds,
and makes the same change to all of these states. If the change keeps the condition and is none
when it is made a second time, then so is the whole computation.
-/

set_option autoImplicit false

namespace FieldQuery.Execution

open Query DataGraph

variable {State Node α β : Type}

/-- Changes of states that keep a condition, and of which none or two are such a change again. -/
structure Composable (condition : State → Prop) (changes : (State → State) → Prop) : Prop where
  none : changes id
  both : ∀ {first second}, changes first → changes second → changes (second ∘ first)
  keeps : ∀ {change}, changes change → ∀ {state}, condition state → condition (change state)

namespace Computation

/-- Wherever the condition holds, a computation ends in one way and makes one of the changes. -/
def Determined (condition : State → Prop) (changes : (State → State) → Prop)
    (computation : Computation State α) : Prop :=
  ∃ result change, changes change ∧
    ∀ state, condition state → outcome computation state = (result, change state)

variable {condition between : State → Prop} {changes later all : (State → State) → Prop}

theorem Determined.mono {computation : Computation State α}
    (determined : Determined between later computation)
    (stronger : ∀ state, condition state → between state)
    (weaker : ∀ change, later change → changes change) :
    Determined condition changes computation := by
  obtain ⟨result, change, allowed, ends⟩ := determined
  exact ⟨result, change, weaker change allowed, fun state holds => ends state (stronger state holds)⟩

theorem determined_pure (none : changes id) (value : α) :
    Determined condition changes (pure value) := ⟨.ok value, id, none, fun _ _ => rfl⟩

theorem determined_throw (none : changes id) (error : ExecutionError) :
    Determined condition changes (throw error : Computation State α) :=
  ⟨.error error, id, none, fun _ _ => rfl⟩

theorem determined_liftM {step : StateM State α} {value : α} {change : State → State}
    (allowed : changes change)
    (runs : ∀ state, condition state → step.run state = (value, change state)) :
    Determined condition changes (liftM step : Computation State α) := by
  refine ⟨.ok value, change, allowed, ?_⟩
  intro state holds
  rw [outcome_liftM, runs state holds]

theorem determined_adapt {step : ExceptT String (StateM State) α} {result : Except String α}
    {change : State → State} (allowed : changes change)
    (runs : ∀ state, condition state → step.run.run state = (result, change state))
    (wrap : String → ExecutionError) :
    Determined condition changes (step.adapt wrap : Computation State α) := by
  refine ⟨result.mapError wrap, change, allowed, ?_⟩
  intro state holds
  rw [outcome_adapt, runs state holds]

/-- A step that only looks at the state hands its value on. -/
theorem determined_liftM_bind {step : StateM State α} {value : α}
    {next : α → Computation State β}
    (gives : ∀ state, condition state → step.run state = (value, state))
    (determined : Determined condition changes (next value)) :
    Determined condition changes (liftM step >>= next) := by
  obtain ⟨result, change, allowed, ends⟩ := determined
  refine ⟨result, change, allowed, ?_⟩
  intro state holds
  rw [outcome_bind, outcome_liftM, gives state holds, continued, ends state holds]

/-- What follows may be determined by what the first computation brings about. -/
theorem Determined.andThen {first : Computation State α} {next : α → Computation State β}
    (determined : Determined condition changes first)
    (determinedNext : ∀ value, Determined between later (next value))
    (brings : ∀ change, changes change → ∀ state, condition state → between (change state))
    (alone : ∀ change, changes change → all change)
    (both : ∀ change other, changes change → later other → all (other ∘ change)) :
    Determined condition all (first >>= next) := by
  obtain ⟨result, change, allowed, ends⟩ := determined
  cases result with
  | error error =>
      refine ⟨.error error, change, alone change allowed, ?_⟩
      intro state holds
      rw [outcome_bind, ends state holds, continued]
  | ok value =>
      obtain ⟨last, other, alsoAllowed, endsNext⟩ := determinedNext value
      refine ⟨last, other ∘ change, both change other allowed alsoAllowed, ?_⟩
      intro state holds
      rw [outcome_bind, ends state holds, continued, Function.comp_apply]
      exact endsNext (change state) (brings change allowed state holds)

section Composed

variable (composable : Composable condition changes)
include composable

theorem Determined.bind {first : Computation State α} {next : α → Computation State β}
    (determined : Determined condition changes first)
    (determinedNext : ∀ value, Determined condition changes (next value)) :
    Determined condition changes (first >>= next) :=
  determined.andThen determinedNext (fun _ allowed _ => composable.keeps allowed) (fun _ => id)
    fun _ _ => composable.both

theorem determined_mapM {each : α → Computation State β} {values : List α}
    (determined : ∀ value ∈ values, Determined condition changes (each value)) :
    Determined condition changes (values.mapM each) := by
  induction values with
  | nil => exact determined_pure composable.none []
  | cons value values ih =>
      obtain ⟨determinedFirst, determinedRest⟩ := List.forall_mem_cons.mp determined
      rw [List.mapM_cons]
      apply determinedFirst.bind composable
      intro first
      apply (ih determinedRest).bind composable
      intro rest
      exact determined_pure composable.none (first :: rest)

theorem determined_evalSelections {graph : DataGraph State Node} {limit : DepthLimit} {path : Path}
    {depth : Nat} {node : Node} {selections : List Selection} (seen : List String)
    (each : ∀ selection ∈ selections,
      Determined condition changes (evalSelection graph limit path depth node selection)) :
    Determined condition changes
      (evalSelections graph limit path depth node seen selections) := by
  induction selections generalizing seen with
  | nil =>
      rw [evalSelections_nil]
      exact determined_pure composable.none Dict.empty
  | cons selection rest ih =>
      obtain ⟨first, others⟩ := List.forall_mem_cons.mp each
      by_cases known : selection.name ∈ seen
      · rw [evalSelections_of_seen known]
        exact ih seen others
      · rw [evalSelections_of_new known]
        apply first.bind composable
        intro value
        apply (ih (selection.name :: seen) others).bind composable
        intro members
        exact determined_pure composable.none (members.insert selection.name value)

/-- A selection is determined if its field gives one value, or nodes on which the nested selections
are determined. -/
theorem determined_evalSelection {graph : DataGraph State Node} {limit : DepthLimit} {path : Path}
    {depth : Nat} {node : Node} (selection : Selection)
    (scalars : ∀ stored resolver,
      (graph.view node).field? selection.name = some (.scalar stored resolver) →
        ∃ value, ∀ state, condition state → (supply stored resolver).run state = (value, state))
    (collections : ∀ name arguments nested stored resolver,
      selection = .branch name arguments nested →
        (graph.view node).field? name = some (.collection stored resolver) →
          ∃ children,
            (∀ state, condition state →
              (supply stored (resolver.map fun resolve => resolve arguments)).run state =
                (children, state)) ∧
            ∀ child ∈ children, Determined condition changes
              (evalLevel graph limit (path ++ [name]) (depth + 1) nested child)) :
    Determined condition changes (evalSelection graph limit path depth node selection) := by
  cases selection with
  | leaf name =>
      rw [evalSelection_leaf]
      split
      · next stored resolver declared =>
          obtain ⟨value, gives⟩ := scalars stored resolver declared
          exact determined_liftM composable.none gives
      · exact determined_throw composable.none _
  | branch name arguments nested =>
      rw [evalSelection_branch]
      split
      · next stored resolver declared =>
          obtain ⟨children, gives, below⟩ :=
            collections name arguments nested stored resolver rfl declared
          apply determined_liftM_bind gives
          apply (determined_mapM composable below).bind composable
          intro items
          exact determined_pure composable.none (Value.array items)
      · exact determined_throw composable.none _

/-- On a node without a hook, a level is determined if its selections are. -/
theorem determined_evalLevel {graph : DataGraph State Node} {limit : DepthLimit} {path : Path}
    {depth : Nat} {node : Node} {selections : List Selection}
    (unhooked : (graph.view node).hook = none)
    (each : ∀ selection ∈ selections,
      Determined condition changes (evalSelection graph limit path depth node selection)) :
    Determined condition changes (evalLevel graph limit path depth selections node) := by
  have entering : Determined condition changes
      (enter graph limit path depth (requested selections) node) := by
    rw [enter, unhooked]
    split
    · exact determined_throw composable.none _
    · exact determined_pure composable.none ()
  rw [evalLevel]
  apply entering.bind composable
  rintro ⟨⟩
  apply (determined_evalSelections composable [] each).bind composable
  intro members
  exact determined_pure composable.none (Value.ofDict members)

/-- A computation that is made again ends alike, and changes nothing if its change is idempotent. -/
theorem Determined.again {computation : Computation State α}
    (determined : Determined condition changes computation)
    (idempotent : ∀ change, changes change → ∀ state, change (change state) = change state)
    {before : State} (holds : condition before) :
    outcome computation (outcome computation before).2 = outcome computation before := by
  obtain ⟨result, change, allowed, ends⟩ := determined
  rw [ends before holds, ends _ (composable.keeps allowed holds), idempotent change allowed]

end Composed

end Computation

end FieldQuery.Execution
