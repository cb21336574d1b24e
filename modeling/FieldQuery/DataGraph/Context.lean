import FieldQuery.Value.Basic

/-!
# Contexts

The values that the hooks and resolvers of a graph share during an execution, under string keys.
-/

set_option autoImplicit false

namespace FieldQuery.DataGraph

abbrev Context := Dict Value

namespace Context

/-- Stores a value and gives the one that stood under its key. -/
def exchange (context : Context) (key : String) (value : Value) : Option Value × Context :=
  (context.get? key, context.insert key value)

def take (context : Context) (key : String) : Option Value × Context :=
  (context.get? key, context.erase key)

end Context

end FieldQuery.DataGraph
