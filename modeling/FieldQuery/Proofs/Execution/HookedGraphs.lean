import FieldQuery.Proofs.Execution.Carrying
import FieldQuery.Proofs.Execution.DepthFilter

/-!
# Graphs with hooks on every node

An execution tells a node that it is entered by calling its hook. To see also the nodes that
declare no hook, every such node is given one that does nothing. This changes neither the result
nor the state, and it only adds the calls of these hooks to the calls of the graph itself. With
them, hooks are called on all entered nodes and on no others.
-/

set_option autoImplicit false

namespace FieldQuery

open DataGraph

variable {State Node : Type}

/-- The graph in which every node has a hook; one that was not declared does nothing. -/
def DataGraph.hooked (graph : DataGraph State Node) : DataGraph State Node where
  view node := { graph.view node with hook := some (Execution.runHook (graph.view node).hook) }

def DataGraph.declares (graph : DataGraph State Node) (event : Event Node) : Bool :=
  match event.call with
  | .hook _ _ => (graph.view event.visit.node).hook.isSome
  | .scalar _ | .collection _ _ => true

namespace Execution

open Query

/-- An observed state without the calls that the graph does not declare. -/
def declaredOnly (graph : DataGraph State Node) (now : Observed State Node) :
    Observed State Node :=
  (now.1, now.2.filter graph.declares)

section

variable {graph : DataGraph State Node}

theorem stepCarries_observed {α : Type} {event : α → Event Node}
    (declared : ∀ value, graph.declares (event value) = true) (step : StateM State α) :
    StepCarries (declaredOnly graph) (observed event step) (observed event step) := by
  intro now
  have kept : (now.2 ++ [event (step.run now.1).1]).filter graph.declares =
      now.2.filter graph.declares ++ [event (step.run now.1).1] := by
    rw [List.filter_append, List.filter_cons_of_pos (declared _), List.filter_nil]
  exact congrArg (fun events => ((step.run now.1).1, (step.run now.1).2, events)) kept.symm

/-- A field of an observed node is seen through images of states if its calls are. -/
theorem fieldCarries_observed {carry : Observed State Node → Observed State Node}
    {visit : Visit Node} {name : String}
    (scalars : ∀ step : StateM State (Resolution Value),
      StepCarries carry (observed (fun _ => ⟨visit, .scalar name⟩) step)
        (observed (fun _ => ⟨visit, .scalar name⟩) step))
    (collections : ∀ arguments (step : StateM State (Resolution (List Node))),
      StepCarries carry (observed (fun _ => ⟨visit, .collection name arguments⟩) step)
        (observed (fun _ => ⟨visit, .collection name arguments⟩) step))
    (field : Option (Field State Node)) :
    FieldCarries carry (field.map (Field.observed visit name))
      (field.map (Field.observed visit name)) := by
  cases field with
  | none => exact .none
  | some field =>
      cases field with
      | scalar stored resolver =>
          apply FieldCarries.scalar
          cases resolver with
          | none => exact stepCarries_pure stored
          | some resolve => exact (scalars resolve).map _
      | collection stored resolver =>
          apply FieldCarries.collection
          intro arguments
          cases resolver with
          | none => exact stepCarries_pure _
          | some resolve => exact ((collections arguments (resolve arguments)).map _).map _

theorem runHook_observing_hooked (visit : Visit Node) :
    runHook (graph.hooked.observing.view visit).hook =
      (runHook (graph.view visit.node).hook).observed visit := rfl

theorem graphCarries_hooked (graph : DataGraph State Node) :
    GraphCarries (declaredOnly graph) graph.hooked.observing graph.observing := by
  constructor
  · intro visit names
    rw [runHook_observing_hooked, hook_observing]
    cases declared : (graph.view visit.node).hook with
    | some hook =>
        have isDeclared (result : Except String Unit) :
            graph.declares ⟨visit, .hook names (refusal? result)⟩ = true := by
          rw [DataGraph.declares, declared, Option.isSome_some]
        exact stepCarries_observed isDeclared (hook names).run
    | none =>
        intro now
        let call : Event Node := ⟨visit, .hook names none⟩
        have undeclared : graph.declares call = false := by
          rw [DataGraph.declares, declared, Option.isSome_none]
        have dropped : (now.2 ++ [call]).filter graph.declares = now.2.filter graph.declares := by
          rw [List.filter_append, List.filter_cons_of_neg (by rw [undeclared]; decide),
            List.filter_nil, List.append_nil]
        exact congrArg (fun events => (Except.ok (), now.1, events)) dropped.symm
  · intro visit name
    apply fieldCarries_observed
    · exact fun step => stepCarries_observed (fun _ => rfl) step
    · exact fun arguments step => stepCarries_observed (fun _ => rfl) step

theorem observes_hooked (graph : DataGraph State Node) :
    Observes (fun _ => true) graph.hooked.observing graph where
  field _ _ := rfl
  telling _ _ _ := rfl
  silent _ untold := nomatch untold

/-- An execution calls the hooks of the nodes that it enters, in the order of entering. -/
theorem hookVisits_watch (graph : DataGraph State Node) (limit : DepthLimit)
    (selections : List Selection) (root : Node) (before : State) :
    hookVisits (watch graph limit selections root before).2.2 =
      (entries graph limit selections root before).filter fun visit =>
        (graph.view visit.node).hook.isSome := by
  obtain ⟨calls, records, ran⟩ :=
    watches_execute (observes_observing graph) limit selections root before []
  rw [watch, ran, List.nil_append, records.hooks]

/-- If all nodes have hooks, then they are called on all nodes that are entered. -/
theorem hookVisits_watch_hooked (graph : DataGraph State Node) (limit : DepthLimit)
    (selections : List Selection) (root : Node) (before : State) :
    hookVisits (watch graph.hooked limit selections root before).2.2 =
      entries graph limit selections root before := by
  obtain ⟨calls, records, ran⟩ :=
    watches_execute (observes_hooked graph) limit selections root before []
  rw [watch, ran, List.nil_append, records.hooks]
  exact List.filter_eq_self.mpr fun _ _ => rfl

/-- Entering is all that hooking adds to an execution. -/
theorem watch_eq_of_hooked (graph : DataGraph State Node) (limit : DepthLimit)
    (selections : List Selection) (root : Node) (before : State) :
    watch graph limit selections root before =
      ((watch graph.hooked limit selections root before).1,
        declaredOnly graph (watch graph.hooked limit selections root before).2) :=
  carries_execute (graphCarries_hooked graph) limit selections (Visit.root root) (before, [])

end

end Execution

end FieldQuery
