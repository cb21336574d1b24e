import FieldQuery.Query.Selection
import FieldQuery.Value.Basic

/-!
# Data graphs

A data graph is what a query is executed against. Each of its nodes has named fields, scalars and
collections of further nodes, and may have a hook that sees which fields are asked for before any
of them is resolved. A field holds a stored value and may have a resolver that overrides it.
Hooks and resolvers share a state, whose type is a parameter.
-/

set_option autoImplicit false

namespace FieldQuery.DataGraph

open Query

/-- What a resolver decides. -/
inductive Resolution (α : Type) where
  /-- This value is used in place of the stored one. -/
  | override (value : α)
  /-- The stored value is used. -/
  | useStored

namespace Resolution

def getD {α : Type} (stored : α) : Resolution α → α
  | .override value => value
  | .useStored => stored

def ofOption {α : Type} : Option α → Resolution α
  | some value => .override value
  | none => .useStored

end Resolution

inductive FieldKind where
  | scalar
  | collection
  deriving DecidableEq

inductive Field (State Node : Type) where
  | scalar (stored : Value) (resolver : Option (StateM State (Resolution Value)))
  | collection (stored : List Node)
      (resolver : Option (Arguments → StateM State (Resolution (List Node))))

namespace Field

variable {State Node : Type}

def kind : Field State Node → FieldKind
  | .scalar _ _ => .scalar
  | .collection _ _ => .collection

def scalar? : Field State Node → Option (StateM State Value)
  | .scalar stored none => some (pure stored)
  | .scalar stored (some resolver) => some do return (← resolver).getD stored
  | .collection _ _ => none

def nodes? : Field State Node → Option (Arguments → StateM State (List Node))
  | .scalar _ _ => none
  | .collection stored none => some fun _ => pure stored
  | .collection stored (some resolver) => some fun arguments => do
      return (← resolver arguments).getD stored

end Field

/-- A hook gets the names of the fields asked for. It may refuse with a text. -/
abbrev Hook (State : Type) := List String → ExceptT String (StateM State) Unit

/-- What an execution sees of a node. -/
structure NodeView (State Node : Type) where
  hook : Option (Hook State)
  field? : String → Option (Field State Node)

namespace NodeView

variable {State Node : Type}

def scalar? (view : NodeView State Node) (name : String) : Option (StateM State Value) :=
  (view.field? name).bind Field.scalar?

def nodes? (view : NodeView State Node) (name : String) :
    Option (Arguments → StateM State (List Node)) :=
  (view.field? name).bind Field.nodes?

end NodeView

end FieldQuery.DataGraph

namespace FieldQuery

structure DataGraph (State Node : Type) where
  view : Node → DataGraph.NodeView State Node

end FieldQuery
