import FieldQuery.Dict.Basic
import FieldQuery.DataGraph.Basic

/-!
# Tables of fields

The fields that all nodes of one type have. A table is built by declarations, and the last
declaration of a name counts, whatever kinds the earlier ones had.
-/

set_option autoImplicit false

namespace FieldQuery.DataGraph

open Query

inductive Declaration (State Subject Node : Type) where
  | scalar (stored : Subject → Value)
      (resolver : Option (Subject → StateM State (Resolution Value)))
  | collection (stored : Subject → List Node)
      (resolver : Option (Subject → Arguments → StateM State (Resolution (List Node))))

namespace Declaration

variable {State Subject Node : Type}

def kind : Declaration State Subject Node → FieldKind
  | .scalar _ _ => .scalar
  | .collection _ _ => .collection

def of (subject : Subject) : Declaration State Subject Node → Field State Node
  | .scalar stored resolver =>
      .scalar (stored subject) (resolver.map fun resolve => resolve subject)
  | .collection stored resolver =>
      .collection (stored subject) (resolver.map fun resolve => resolve subject)

end Declaration

/-- The fields of one type of subjects. -/
structure FieldTable (State Subject Node : Type) where
  declarations : Dict (Declaration State Subject Node)
  hook : Option (Subject → Hook State)

namespace FieldTable

variable {State Subject Node : Type}

def empty : FieldTable State Subject Node := ⟨.empty, none⟩

def declare (table : FieldTable State Subject Node) (name : String)
    (declaration : Declaration State Subject Node) : FieldTable State Subject Node :=
  { table with declarations := table.declarations.insert name declaration }

def scalar (table : FieldTable State Subject Node) (name : String) (stored : Subject → Value) :
    FieldTable State Subject Node :=
  table.declare name (.scalar stored none)

def scalarWith (table : FieldTable State Subject Node) (name : String) (stored : Subject → Value)
    (resolver : Subject → StateM State (Resolution Value)) : FieldTable State Subject Node :=
  table.declare name (.scalar stored (some resolver))

def collection (table : FieldTable State Subject Node) (name : String)
    (stored : Subject → List Node) : FieldTable State Subject Node :=
  table.declare name (.collection stored none)

def collectionWith (table : FieldTable State Subject Node) (name : String)
    (stored : Subject → List Node)
    (resolver : Subject → Arguments → StateM State (Resolution (List Node))) :
    FieldTable State Subject Node :=
  table.declare name (.collection stored (some resolver))

/-- Gives the table a hook, in place of the one that it had. -/
def batchResolve (table : FieldTable State Subject Node) (hook : Subject → Hook State) :
    FieldTable State Subject Node :=
  { table with hook := some hook }

def kind? (table : FieldTable State Subject Node) (name : String) : Option FieldKind :=
  (table.declarations.get? name).map Declaration.kind

def names (table : FieldTable State Subject Node) : List String := table.declarations.keys

def hasBatchResolve (table : FieldTable State Subject Node) : Bool := table.hook.isSome

def kinds (table : FieldTable State Subject Node) : List (String × FieldKind) :=
  table.declarations.entries.map fun (name, declaration) => (name, declaration.kind)

/-- What an execution sees of a subject. -/
def view (table : FieldTable State Subject Node) (subject : Subject) : NodeView State Node where
  hook := table.hook.map fun hook => hook subject
  field? name := (table.declarations.get? name).map (Declaration.of subject)

end FieldTable

end FieldQuery.DataGraph
