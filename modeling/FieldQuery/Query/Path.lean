/-!
# Paths of fields

The names of the fields that lead from the root of a query to one of its places.
-/

set_option autoImplicit false

namespace FieldQuery.Query

/-- The names of the enclosing branches, the outermost first, and of the field itself. -/
abbrev Path := List String

def Path.text (path : Path) : String :=
  if path.isEmpty then "(root)" else ".".intercalate path

end FieldQuery.Query
