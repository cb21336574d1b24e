import FieldQuery.Proofs.Execution.Carrying

/-!
# One path for all levels

An execution can keep the names of the branches around the node at hand in one list that all its
levels change: a branch appends its name, visits its nodes and takes the name off again, also when
a visit fails. Every level then finds the names that it would be given, and leaves the list as it
was.
-/

set_option autoImplicit false

namespace FieldQuery.Execution.SharedPath

open Query DataGraph

variable {State Node α : Type}

/-! ## Executions that share a path -/

/-- A step on the state. Hooks and resolvers do not see the path. -/
def beside (step : StateM State α) : StateM (Path × State) α := fun (path, state) =>
  let (value, after) := step.run state
  (value, path, after)

def current : Computation (Path × State) Path := do return (← get).1

/-- A computation with a name at the end of the path, which is taken off also when it fails. -/
def within (name : String) (computation : Computation (Path × State) α) :
    Computation (Path × State) α := ExceptT.mk do
  modify fun (path, state) => (path ++ [name], state)
  let walked ← computation.run
  modify fun (path, state) => (path.dropLast, state)
  return walked

def enter (graph : DataGraph State Node) (limit : DepthLimit) (depth : Nat) (names : List String)
    (node : Node) : Computation (Path × State) Unit :=
  if limit.exceededBy depth then do throw (.depthLimitExceeded limit (← current))
  else
    match (graph.view node).hook with
    | none => pure ()
    | some hook => (ExceptT.mk (beside (hook names).run)).adapt ExecutionError.batchResolve

mutual

def evalSelection (graph : DataGraph State Node) (limit : DepthLimit) (depth : Nat) (node : Node) :
    Selection → Computation (Path × State) Value
  | .leaf name =>
      match (graph.view node).scalar? name with
      | none => do throw (.fieldNotFound ((← current) ++ [name]))
      | some value => liftM (beside value)
  | .branch name arguments selections => do
      -- The name is on the path before it is known whether there is a collection.
      let walked ← within name <|
        match (graph.view node).nodes? name with
        | none => pure none
        | some nodes => do
            let children ← liftM (beside (nodes arguments))
            let items ← children.mapM fun child => do
              enter graph limit (depth + 1) (requested selections) child
              let members ← evalSelections graph limit (depth + 1) child [] selections
              return Value.ofDict members
            return some items
      match walked with
      | none => do throw (.collectionNotFound ((← current) ++ [name]))
      | some items => return .array items

def evalSelections (graph : DataGraph State Node) (limit : DepthLimit) (depth : Nat) (node : Node)
    (seen : List String) : List Selection → Computation (Path × State) (Dict Value)
  | [] => return .empty
  | selection :: rest =>
      if seen.contains selection.name then evalSelections graph limit depth node seen rest
      else do
        let value ← evalSelection graph limit depth node selection
        let members ← evalSelections graph limit depth node (selection.name :: seen) rest
        return members.insert selection.name value

end

def evalLevel (graph : DataGraph State Node) (limit : DepthLimit) (depth : Nat)
    (selections : List Selection) (node : Node) : Computation (Path × State) Value := do
  enter graph limit depth (requested selections) node
  let members ← evalSelections graph limit depth node [] selections
  return .ofDict members

def execute (graph : DataGraph State Node) (limit : DepthLimit) (selections : List Selection)
    (root : Node) : Computation (Path × State) Value :=
  evalLevel graph limit 1 selections root

/-! ## The path behind a computation -/

open FieldQuery.Execution.Computation

variable {path : Path}

theorem stepCarries_beside (path : Path) (step : StateM State α) :
    StepCarries (Prod.mk path) step (beside step) := fun _ => rfl

/-- The errors of a node name it by the path that is current there. -/
theorem carries_throw_current (error : Path → ExecutionError) :
    Carries (Prod.mk path) (throw (error path) : Computation State α)
      (do throw (error (← current))) := fun _ => rfl

theorem carries_within {name : String} {plain : Computation State α}
    {shared : Computation (Path × State) α}
    (carries : Carries (Prod.mk (path ++ [name])) plain shared) :
    Carries (Prod.mk path) plain (within name shared) := by
  intro state
  have unfolded : outcome (within name shared) (path, state) =
      ((outcome shared (path ++ [name], state)).1,
        (outcome shared (path ++ [name], state)).2.map List.dropLast id) := rfl
  rw [unfolded, carries state]
  exact congrArg (fun names => (_, names, _)) List.dropLast_concat

/-- Behind its walk a branch is named by the same path, with the name that was taken off. -/
theorem carries_walked {name : String} {plain : Computation State (Option (List Value))}
    {shared : Computation (Path × State) (Option (List Value))}
    (walks : Carries (Prod.mk (path ++ [name])) plain shared) :
    Carries (Prod.mk path)
      (do
        match ← plain with
        | none => throw (.collectionNotFound (path ++ [name]))
        | some items => return Value.array items)
      (do
        match ← within name shared with
        | none => throw (.collectionNotFound ((← current) ++ [name]))
        | some items => return Value.array items) := by
  apply (carries_within walks).bind
  intro walked
  cases walked with
  | none => exact carries_throw_current fun path => .collectionNotFound (path ++ [name])
  | some items => exact carries_pure (Value.array items)

section

variable (graph : DataGraph State Node) (limit : DepthLimit) (depth : Nat) (node : Node)

theorem carries_enter (names : List String) :
    Carries (Prod.mk path) (Execution.enter graph limit path depth names node)
      (enter graph limit depth names node) := by
  rw [Execution.enter, enter]
  split
  · exact carries_throw_current _
  · cases (graph.view node).hook with
    | none => exact carries_pure ()
    | some hook => exact carries_adapt _ (stepCarries_beside path (hook names).run)

theorem carries_evalLevel {selections : List Selection}
    (inside : Carries (Prod.mk path)
      (Execution.evalSelections graph limit path depth node [] selections)
      (evalSelections graph limit depth node [] selections)) :
    Carries (Prod.mk path) (Execution.evalLevel graph limit path depth selections node)
      (evalLevel graph limit depth selections node) := by
  apply (carries_enter graph limit depth node _).bind
  intro _
  apply inside.bind
  intro members
  exact carries_pure (Value.ofDict members)

end

mutual

theorem carries_evalSelection (path : Path) (graph : DataGraph State Node) (limit : DepthLimit)
    (depth : Nat) (node : Node) (selection : Selection) :
    Carries (Prod.mk path) (Execution.evalSelection graph limit path depth node selection)
      (evalSelection graph limit depth node selection) := by
  match selection with
  | .leaf name =>
      rw [Execution.evalSelection, evalSelection]
      cases (graph.view node).scalar? name with
      | none => exact carries_throw_current fun path => .fieldNotFound (path ++ [name])
      | some value => exact carries_liftM (stepCarries_beside path value)
  | .branch name arguments selections =>
      rw [Execution.evalSelection, evalSelection]
      cases (graph.view node).nodes? name with
      | none => exact carries_walked (carries_pure none)
      | some nodes =>
          have level (child : Node) := carries_evalLevel graph limit (depth + 1) child
            (carries_evalSelections (path ++ [name]) graph limit (depth + 1) child [] selections)
          have supplied := carries_liftM (stepCarries_beside (path ++ [name]) (nodes arguments))
          have walks := supplied.bind fun children =>
            (Carries.mapM level children).bind fun items => carries_pure (some items)
          have whole := carries_walked walks
          simp only [bind_assoc, pure_bind] at whole
          exact whole

theorem carries_evalSelections (path : Path) (graph : DataGraph State Node) (limit : DepthLimit)
    (depth : Nat) (node : Node) (seen : List String) (selections : List Selection) :
    Carries (Prod.mk path) (Execution.evalSelections graph limit path depth node seen selections)
      (evalSelections graph limit depth node seen selections) := by
  match selections with
  | [] =>
      rw [evalSelections_nil, evalSelections]
      exact carries_pure Dict.empty
  | selection :: rest =>
      rw [Execution.evalSelections, evalSelections]
      split
      · exact carries_evalSelections path graph limit depth node seen rest
      · apply (carries_evalSelection path graph limit depth node selection).bind
        intro value
        apply (carries_evalSelections path graph limit depth node (selection.name :: seen)
          rest).bind
        intro members
        exact carries_pure (members.insert selection.name value)

end

/-- With one path for all levels an execution has the same outcome and leaves the same state. The
path is empty again behind it, also where it fails. -/
theorem outcome_execute (graph : DataGraph State Node) (limit : DepthLimit)
    (selections : List Selection) (root : Node) (before : State) :
    outcome (execute graph limit selections root) ([], before) =
      ((outcome (Execution.execute graph limit selections root) before).1, [],
        (outcome (Execution.execute graph limit selections root) before).2) :=
  carries_evalLevel graph limit 1 root
    (carries_evalSelections [] graph limit 1 root [] selections) before

end FieldQuery.Execution.SharedPath
