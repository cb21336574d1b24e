import FieldQuery.Execution.Error
import FieldQuery.DataGraph.Basic

/-!
# Executing queries

A query is executed level by level. On each node its hook comes first, with the names asked for;
then the selections are resolved in order, leaves by scalars and branches by collections, whose
nodes are executed one level deeper. Of selections with the same name in one set only the first
counts. The first error ends the execution; what happened to the shared state before it remains.
-/

set_option autoImplicit false

namespace FieldQuery.Execution

open Query

/-- A computation that may fail and keeps the shared state also when it does. -/
abbrev Computation (State α : Type) := ExceptT ExecutionError (StateM State) α

/-- The names of a selection set, each at its first occurrence. -/
def requested (selections : List Selection) : List String :=
  (selections.map Selection.name).eraseDups

variable {State Node : Type}

/-- Enters a node: checks the depth, then runs the hook. -/
def enter (graph : DataGraph State Node) (limit : DepthLimit) (path : Path) (depth : Nat)
    (names : List String) (node : Node) : Computation State Unit :=
  if limit.exceededBy depth then throw (.depthLimitExceeded limit path)
  else
    match (graph.view node).hook with
    | none => pure ()
    | some hook => (hook names).adapt ExecutionError.batchResolve

mutual

def evalSelection (graph : DataGraph State Node) (limit : DepthLimit) (path : Path) (depth : Nat)
    (node : Node) : Selection → Computation State Value
  | .leaf name =>
      match (graph.view node).scalar? name with
      | none => throw (.fieldNotFound (path ++ [name]))
      | some value => liftM value
  | .branch name arguments selections =>
      match (graph.view node).nodes? name with
      | none => throw (.collectionNotFound (path ++ [name]))
      | some nodes => do
          let children ← liftM (nodes arguments)
          let items ← children.mapM fun child => do
            enter graph limit (path ++ [name]) (depth + 1) (requested selections) child
            let members ←
              evalSelections graph limit (path ++ [name]) (depth + 1) child [] selections
            return Value.ofDict members
          return .array items

/-- The values of a selection set on a node, without the names already seen. -/
def evalSelections (graph : DataGraph State Node) (limit : DepthLimit) (path : Path) (depth : Nat)
    (node : Node) (seen : List String) : List Selection → Computation State (Dict Value)
  | [] => return .empty
  | selection :: rest =>
      if seen.contains selection.name then
        evalSelections graph limit path depth node seen rest
      else do
        let value ← evalSelection graph limit path depth node selection
        let members ←
          evalSelections graph limit path depth node (selection.name :: seen) rest
        return members.insert selection.name value

end

/-- The object that a selection set gives on a node that is entered for it. -/
def evalLevel (graph : DataGraph State Node) (limit : DepthLimit) (path : Path) (depth : Nat)
    (selections : List Selection) (node : Node) : Computation State Value := do
  enter graph limit path depth (requested selections) node
  let members ← evalSelections graph limit path depth node [] selections
  return .ofDict members

def execute (graph : DataGraph State Node) (limit : DepthLimit) (selections : List Selection)
    (root : Node) : Computation State Value :=
  evalLevel graph limit [] 1 selections root

def executeInterchange (graph : DataGraph State Node) (limit : DepthLimit) (query : Json)
    (root : Node) : Computation State Value :=
  match Interchange.decode query with
  | .error error => throw (.malformedQuery error)
  | .ok selections => execute graph limit selections root

def Computation.outcome {α : Type} (computation : Computation State α) (state : State) :
    Except ExecutionError α × State :=
  (ExceptT.run computation).run state

end FieldQuery.Execution
