import FieldQuery.Proofs.Execution.Equations
import FieldQuery.Proofs.Execution.Outcome

/-!
# Executions on images of states

If the hooks and resolvers of one graph do on the image of a state what those of another graph do
on the state itself, then so do executions, with the same results.
-/

set_option autoImplicit false

namespace FieldQuery.Execution

open Query DataGraph

variable {State Image Node α β : Type} {carry : State → Image}

def StepCarries (carry : State → Image) (source : StateM State α) (image : StateM Image α) : Prop :=
  ∀ state, image.run (carry state) = ((source.run state).1, carry (source.run state).2)

theorem stepCarries_pure (value : α) :
    StepCarries carry (pure value : StateM State α) (pure value : StateM Image α) := by
  intro state
  rfl

theorem StepCarries.map {source : StateM State α} {image : StateM Image α}
    (steps : StepCarries carry source image) (change : α → β) :
    StepCarries carry (do return change (← source)) (do return change (← image)) := by
  intro state
  exact congrArg (Prod.map change id) (steps state)

namespace Computation

/-- A computation does on the image of a state what another one does on the state. -/
def Carries (carry : State → Image) (source : Computation State α)
    (image : Computation Image α) : Prop :=
  ∀ state, outcome image (carry state) = ((outcome source state).1, carry (outcome source state).2)

theorem carries_pure (value : α) :
    Carries carry (pure value : Computation State α) (pure value : Computation Image α) := by
  intro state
  rfl

theorem carries_throw (error : ExecutionError) :
    Carries carry (throw error : Computation State α) (throw error : Computation Image α) := by
  intro state
  rfl

theorem carries_liftM {source : StateM State α} {image : StateM Image α}
    (steps : StepCarries carry source image) :
    Carries carry (liftM source : Computation State α) (liftM image : Computation Image α) := by
  intro state
  exact congrArg (Prod.map Except.ok id) (steps state)

theorem carries_adapt {source : ExceptT String (StateM State) α}
    {image : ExceptT String (StateM Image) α} (wrap : String → ExecutionError)
    (steps : StepCarries carry source.run image.run) :
    Carries carry (source.adapt wrap) (image.adapt wrap) := by
  intro state
  exact congrArg (Prod.map (Except.mapError wrap) id) (steps state)

theorem Carries.bind {source : Computation State α} {image : Computation Image α}
    {sourceNext : α → Computation State β} {imageNext : α → Computation Image β}
    (first : Carries carry source image)
    (next : ∀ value, Carries carry (sourceNext value) (imageNext value)) :
    Carries carry (source >>= sourceNext) (image >>= imageNext) := by
  intro state
  rw [outcome_bind, outcome_bind, first]
  cases outcome source state with
  | mk result between =>
      cases result with
      | error error => rfl
      | ok value => exact next value between

theorem Carries.mapM {source : α → Computation State β} {image : α → Computation Image β}
    (each : ∀ value, Carries carry (source value) (image value)) (values : List α) :
    Carries carry (values.mapM source) (values.mapM image) := by
  induction values with
  | nil => exact carries_pure []
  | cons value values ih =>
      rw [List.mapM_cons, List.mapM_cons]
      apply (each value).bind
      intro first
      apply ih.bind
      intro rest
      exact carries_pure (first :: rest)

end Computation

inductive FieldCarries (carry : State → Image) :
    Option (Field State Node) → Option (Field Image Node) → Prop where
  | none : FieldCarries carry none none
  | scalar {stored : Value} {source : Option (StateM State (Resolution Value))}
      {image : Option (StateM Image (Resolution Value))}
      (steps : StepCarries carry (supply stored source) (supply stored image)) :
      FieldCarries carry (some (.scalar stored source)) (some (.scalar stored image))
  | collection {stored : List Node}
      {source : Option (Arguments → StateM State (Resolution (List Node)))}
      {image : Option (Arguments → StateM Image (Resolution (List Node)))}
      (steps : ∀ arguments, StepCarries carry
        (supply stored (source.map fun resolve => resolve arguments))
        (supply stored (image.map fun resolve => resolve arguments))) :
      FieldCarries carry (some (.collection stored source)) (some (.collection stored image))

/-- A graph does on images of states what another one does on the states. -/
structure GraphCarries (carry : State → Image) (source : DataGraph State Node)
    (image : DataGraph Image Node) : Prop where
  hook : ∀ node names, StepCarries carry (runHook (source.view node).hook names).run
    (runHook (image.view node).hook names).run
  field : ∀ node name,
    FieldCarries carry ((source.view node).field? name) ((image.view node).field? name)

open FieldQuery.Execution.Computation

section

variable {source : DataGraph State Node} {image : DataGraph Image Node}

theorem carries_evalLevel (carries : GraphCarries carry source image) {limit : DepthLimit}
    {path : Path} {depth : Nat} {node : Node} {selections : List Selection}
    (inside : Carries carry (evalSelections source limit path depth node [] selections)
      (evalSelections image limit path depth node [] selections)) :
    Carries carry (evalLevel source limit path depth selections node)
      (evalLevel image limit path depth selections node) := by
  rw [evalLevel, evalLevel, enter_eq, enter_eq]
  apply Carries.bind
  · split
    · exact carries_throw _
    · exact carries_adapt _ (carries.hook node _)
  intro _
  apply inside.bind
  intro members
  exact carries_pure (Value.ofDict members)

mutual

theorem carries_evalSelection (carries : GraphCarries carry source image) (limit : DepthLimit)
    (path : Path) (depth : Nat) (node : Node) (selection : Selection) :
    Carries carry (evalSelection source limit path depth node selection)
      (evalSelection image limit path depth node selection) := by
  match selection with
  | .leaf name =>
      rw [evalSelection_leaf, evalSelection_leaf]
      have declared := carries.field node name
      generalize (source.view node).field? name = first at declared
      generalize (image.view node).field? name = second at declared
      cases declared with
      | none => exact carries_throw _
      | scalar steps => exact carries_liftM steps
      | collection => exact carries_throw _
  | .branch name arguments selections =>
      rw [evalSelection_branch, evalSelection_branch]
      have declared := carries.field node name
      generalize (source.view node).field? name = first at declared
      generalize (image.view node).field? name = second at declared
      cases declared with
      | none => exact carries_throw _
      | scalar => exact carries_throw _
      | collection steps =>
          apply (carries_liftM (steps arguments)).bind
          intro children
          refine Carries.bind (.mapM ?_ children) fun items => carries_pure (Value.array items)
          intro child
          apply carries_evalLevel carries
          exact carries_evalSelections carries limit (path ++ [name]) (depth + 1) child []
            selections

theorem carries_evalSelections (carries : GraphCarries carry source image) (limit : DepthLimit)
    (path : Path) (depth : Nat) (node : Node) (seen : List String)
    (selections : List Selection) :
    Carries carry (evalSelections source limit path depth node seen selections)
      (evalSelections image limit path depth node seen selections) := by
  match selections with
  | [] =>
      rw [evalSelections_nil, evalSelections_nil]
      exact carries_pure Dict.empty
  | selection :: rest =>
      by_cases known : selection.name ∈ seen
      · rw [evalSelections_of_seen known, evalSelections_of_seen known]
        exact carries_evalSelections carries limit path depth node seen rest
      · rw [evalSelections_of_new known, evalSelections_of_new known]
        apply (carries_evalSelection carries limit path depth node selection).bind
        intro value
        apply (carries_evalSelections carries limit path depth node (selection.name :: seen)
          rest).bind
        intro members
        exact carries_pure (members.insert selection.name value)

end

theorem carries_execute (carries : GraphCarries carry source image) (limit : DepthLimit)
    (selections : List Selection) (root : Node) :
    Carries carry (execute source limit selections root) (execute image limit selections root) :=
  carries_evalLevel carries (carries_evalSelections carries limit [] 1 root [] selections)

end

end FieldQuery.Execution
