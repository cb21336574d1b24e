import FieldQuery.DataGraph.Basic
import FieldQuery.Query.Path

/-!
# Observed graphs

A graph can be observed: its hooks and resolvers keep a list of their calls beside the state, and
its nodes know the place at which they were reached.
-/

set_option autoImplicit false

namespace FieldQuery.DataGraph

open Query

/-- A node with the collections, and the positions in them, that led to it from the root. -/
structure Visit (Node : Type) where
  node : Node
  place : List (String × Nat)

inductive Call where
  /-- The hook, with the names asked for and the text of its refusal, if it refused. -/
  | hook (names : List String) (refusal : Option String)
  /-- The resolver of a scalar. -/
  | scalar (name : String)
  /-- The resolver of a collection. -/
  | collection (name : String) (arguments : Arguments)

structure Event (Node : Type) where
  visit : Visit Node
  call : Call

/-- The shared state of an observed graph: that of the graph itself, and the calls in order. -/
abbrev Observed (State Node : Type) := State × List (Event Node)

variable {State Node α : Type}

namespace Visit

def root (node : Node) : Visit Node := ⟨node, []⟩

def level (visit : Visit Node) : Nat := visit.place.length + 1

def names (visit : Visit Node) : Path := visit.place.map Prod.fst

def children (visit : Visit Node) (name : String) (nodes : List Node) : List (Visit Node) :=
  nodes.mapIdx fun index child => ⟨child, visit.place ++ [(name, index)]⟩

theorem map_node_children (visit : Visit Node) (name : String) (nodes : List Node) :
    (visit.children name nodes).map Visit.node = nodes := by
  apply List.ext_getElem?
  intro index
  rw [children, List.getElem?_map, List.getElem?_mapIdx, Option.map_map]
  cases nodes[index]? <;> rfl

theorem level_of_mem_children {visit child : Visit Node} {name : String} {nodes : List Node}
    (member : child ∈ visit.children name nodes) : child.level = visit.level + 1 := by
  obtain ⟨index, bound, rfl⟩ := List.mem_mapIdx.mp member
  rw [level, level, List.length_append, List.length_singleton]

theorem names_of_mem_children {visit child : Visit Node} {name : String} {nodes : List Node}
    (member : child ∈ visit.children name nodes) : child.names = visit.names ++ [name] := by
  obtain ⟨index, bound, rfl⟩ := List.mem_mapIdx.mp member
  exact List.map_append

end Visit

/-- A step that adds a call to the list. The call may tell what came of it. -/
def observed (event : α → Event Node) (step : StateM State α) : StateM (Observed State Node) α :=
  fun (state, events) =>
    let (value, after) := step.run state
    (value, after, events ++ [event value])

namespace Resolution

def map {β : Type} (change : α → β) : Resolution α → Resolution β
  | .override value => .override (change value)
  | .useStored => .useStored

theorem getD_map {β : Type} (change : α → β) (stored : α) (resolution : Resolution α) :
    (resolution.map change).getD (change stored) = change (resolution.getD stored) := by
  cases resolution <;> rfl

end Resolution

def refusal? : Except String Unit → Option String
  | .ok _ => none
  | .error text => some text

def Hook.observed (hook : Hook State) (visit : Visit Node) : Hook (Observed State Node) :=
  fun names =>
    ExceptT.mk (DataGraph.observed (fun result => ⟨visit, .hook names (refusal? result)⟩)
      (hook names).run)

def Field.observedNodes (visit : Visit Node) (name : String)
    (resolve : Arguments → StateM State (Resolution (List Node))) (arguments : Arguments) :
    StateM (Observed State Node) (Resolution (List (Visit Node))) := do
  let resolution ←
    DataGraph.observed (fun _ => ⟨visit, .collection name arguments⟩) (resolve arguments)
  return resolution.map (visit.children name)

/-- A field of an observed node. Stored values are not calls. -/
def Field.observed (visit : Visit Node) (name : String) :
    Field State Node → Field (Observed State Node) (Visit Node)
  | .scalar stored resolver =>
      .scalar stored (resolver.map (DataGraph.observed fun _ => ⟨visit, .scalar name⟩))
  | .collection stored resolver =>
      .collection (visit.children name stored) (resolver.map (observedNodes visit name))

end FieldQuery.DataGraph

namespace FieldQuery

open DataGraph

variable {State Node : Type}

def DataGraph.observing (graph : DataGraph State Node) :
    DataGraph (Observed State Node) (Visit Node) where
  view visit :=
    { hook := (graph.view visit.node).hook.map fun hook => hook.observed visit
      field? := fun name => ((graph.view visit.node).field? name).map (Field.observed visit name) }

namespace DataGraph

theorem hook_observing (graph : DataGraph State Node) (visit : Visit Node) :
    (graph.observing.view visit).hook =
      (graph.view visit.node).hook.map fun hook => hook.observed visit := rfl

end DataGraph

end FieldQuery
