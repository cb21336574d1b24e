import FieldQuery.DataGraph.FieldTable
import Mathlib.Logic.Relation

/-!
# Plain graphs and projections

A graph is plain behind a root if no node that is stored there has a hook or a resolver, so that all
its fields are what is stored. The projection of the stored data on a query follows the query into
the collections and keeps what it asks for.
-/

set_option autoImplicit false

namespace FieldQuery.DataGraph

open Query

variable {State Subject Node : Type}

inductive Field.Plain : Field State Node → Prop where
  | scalar {stored : Value} : Plain (.scalar stored none)
  | collection {stored : List Node} : Plain (.collection stored none)

structure NodeView.Plain (view : NodeView State Node) : Prop where
  hookless : view.hook = none
  fields {name : String} {field : Field State Node} (declared : view.field? name = some field) :
    field.Plain

namespace FieldTable

inductive PlainDeclaration : Declaration State Subject Node → Prop where
  | scalar {stored : Subject → Value} : PlainDeclaration (.scalar stored none)
  | collection {stored : Subject → List Node} : PlainDeclaration (.collection stored none)

/-- A table without a hook whose declarations have no resolvers. -/
structure Plain (table : FieldTable State Subject Node) : Prop where
  hookless : table.hook = none
  fields {name : String} {declaration : Declaration State Subject Node}
    (declared : table.declarations.get? name = some declaration) : PlainDeclaration declaration

theorem plain_empty : Plain (empty : FieldTable State Subject Node) where
  hookless := rfl
  fields := nofun

namespace Plain

variable {table : FieldTable State Subject Node}

theorem declare (plain : table.Plain) (name : String)
    {declaration : Declaration State Subject Node} (added : PlainDeclaration declaration) :
    (table.declare name declaration).Plain where
  hookless := plain.hookless
  fields := by
    intro other found declared
    rw [FieldTable.declare, Dict.get?_insert] at declared
    split at declared
    · cases declared
      exact added
    · exact plain.fields declared

theorem scalar (plain : table.Plain) (name : String) (stored : Subject → Value) :
    (table.scalar name stored).Plain := plain.declare name .scalar

theorem collection (plain : table.Plain) (name : String) (stored : Subject → List Node) :
    (table.collection name stored).Plain := plain.declare name .collection

theorem view (plain : table.Plain) (subject : Subject) : (table.view subject).Plain where
  hookless := by rw [FieldTable.view, plain.hookless, Option.map_none]
  fields := by
    intro name field declared
    obtain ⟨declaration, found, rfl⟩ := Option.map_eq_some_iff.mp declared
    cases plain.fields found
    · exact .scalar
    · exact .collection

end Plain

end FieldTable

section

variable {graph : DataGraph State Node} {node : Node}

inductive Stores (graph : DataGraph State Node) (node child : Node) : Prop where
  | collection {name : String} {stored : List Node}
      {resolver : Option (Arguments → StateM State (Resolution (List Node)))}
      (declared : (graph.view node).field? name = some (.collection stored resolver))
      (member : child ∈ stored)

/-- All nodes that are stored behind a root, and the root itself, are plain. -/
def PlainFrom (graph : DataGraph State Node) (root : Node) : Prop :=
  ∀ node, Relation.ReflTransGen (Stores graph) root node → (graph.view node).Plain

theorem PlainFrom.here (plain : PlainFrom graph node) : (graph.view node).Plain :=
  plain node .refl

theorem PlainFrom.child (plain : PlainFrom graph node) {child : Node}
    (stores : Stores graph node child) : PlainFrom graph child :=
  fun other reached => plain other (.head stores reached)

end

mutual

/-- The stored value of a selection on a node. Where no field of its kind has the name, it is
null. -/
def projected (graph : DataGraph State Node) (node : Node) : Selection → Value
  | .leaf name =>
      match (graph.view node).field? name with
      | some (.scalar stored _) => stored
      | _ => .null
  | .branch name _ selections =>
      match (graph.view node).field? name with
      | some (.collection stored _) =>
          .array (stored.map fun child => .ofDict (projectedMembers graph child selections))
      | _ => .null

def projectedMembers (graph : DataGraph State Node) (node : Node) : List Selection → Dict Value
  | [] => .empty
  | selection :: rest =>
      (projectedMembers graph node rest).insert selection.name (projected graph node selection)

end

def projection (graph : DataGraph State Node) (node : Node) (selections : List Selection) : Value :=
  .ofDict (projectedMembers graph node selections)

section

variable {graph : DataGraph State Node} {node : Node} {name : String}

theorem projected_leaf {stored : Value} {resolver : Option (StateM State (Resolution Value))}
    (declared : (graph.view node).field? name = some (.scalar stored resolver)) :
    projected graph node (.leaf name) = stored := by
  rw [projected, declared]

theorem projected_branch {stored : List Node}
    {resolver : Option (Arguments → StateM State (Resolution (List Node)))}
    (declared : (graph.view node).field? name = some (.collection stored resolver))
    (arguments : Arguments) (selections : List Selection) :
    projected graph node (.branch name arguments selections) =
      .array (stored.map fun child => projection graph child selections) := by
  rw [projected, declared]
  rfl

theorem get?_projectedMembers_cons (selection : Selection) (rest : List Selection) :
    (projectedMembers graph node (selection :: rest)).get? name =
      if name = selection.name then some (projected graph node selection)
      else (projectedMembers graph node rest).get? name := by
  rw [projectedMembers, Dict.get?_insert]

end

end FieldQuery.DataGraph
