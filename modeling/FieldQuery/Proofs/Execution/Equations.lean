import FieldQuery.Execution.Basic

/-!
# Equations of execution

What is executed for one selection and for a list of selections, in terms of the field that the
node declares under a name.
-/

set_option autoImplicit false

namespace FieldQuery.Execution

open Query DataGraph

variable {State Node : Type}

def supply {α : Type} (stored : α) : Option (StateM State (Resolution α)) → StateM State α
  | none => pure stored
  | some resolver => do return (← resolver).getD stored

/-- What a node does on being entered. Without a hook this is nothing. -/
def runHook (hook : Option (Hook State)) : Hook State := hook.getD fun _ => pure ()

theorem enter_eq (graph : DataGraph State Node) (limit : DepthLimit) (path : Path) (depth : Nat)
    (names : List String) (node : Node) :
    enter graph limit path depth names node =
      if limit.exceededBy depth then throw (.depthLimitExceeded limit path)
      else (runHook (graph.view node).hook names).adapt ExecutionError.batchResolve := by
  rw [enter]
  cases (graph.view node).hook with
  | none => rfl
  | some hook => rfl

section

variable {graph : DataGraph State Node} {limit : DepthLimit} {path : Path} {depth : Nat}
  {node : Node}

theorem evalLevel_of_exceeded (exceeded : limit.exceededBy depth) (selections : List Selection) :
    evalLevel graph limit path depth selections node = throw (.depthLimitExceeded limit path) := by
  rw [evalLevel, enter, if_pos exceeded]
  rfl

theorem evalSelection_leaf (name : String) :
    evalSelection graph limit path depth node (.leaf name) =
      match (graph.view node).field? name with
      | some (.scalar stored resolver) => liftM (supply stored resolver)
      | _ => throw (.fieldNotFound (path ++ [name])) := by
  rw [evalSelection, NodeView.scalar?]
  cases (graph.view node).field? name with
  | none => rfl
  | some field =>
      cases field with
      | scalar stored resolver => cases resolver <;> rfl
      | collection stored resolver => rfl

theorem evalSelection_branch (name : String) (arguments : Arguments)
    (selections : List Selection) :
    evalSelection graph limit path depth node (.branch name arguments selections) =
      match (graph.view node).field? name with
      | some (.collection stored resolver) => do
          let children ← liftM (supply stored (resolver.map fun resolve => resolve arguments))
          let items ←
            children.mapM (evalLevel graph limit (path ++ [name]) (depth + 1) selections)
          return .array items
      | _ => throw (.collectionNotFound (path ++ [name])) := by
  rw [evalSelection, NodeView.nodes?]
  cases (graph.view node).field? name with
  | none => rfl
  | some field =>
      cases field with
      | scalar stored resolver => rfl
      | collection stored resolver => cases resolver <;> rfl

theorem evalSelections_nil (seen : List String) :
    evalSelections graph limit path depth node seen [] = pure .empty := by
  rw [evalSelections]

variable {seen : List String} {selection : Selection} {rest : List Selection}

theorem evalSelections_of_seen (known : selection.name ∈ seen) :
    evalSelections graph limit path depth node seen (selection :: rest) =
      evalSelections graph limit path depth node seen rest := by
  rw [evalSelections, if_pos (List.contains_iff_mem.mpr known)]

theorem evalSelections_of_new (new : selection.name ∉ seen) :
    evalSelections graph limit path depth node seen (selection :: rest) = do
      let value ← evalSelection graph limit path depth node selection
      let members ← evalSelections graph limit path depth node (selection.name :: seen) rest
      return members.insert selection.name value := by
  rw [evalSelections, if_neg fun contained => new (List.contains_iff_mem.mp contained)]

end

end FieldQuery.Execution
