import FieldQuery.DepthLimit
import FieldQuery.Json.Basic

/-!
# Settings

The depth limits for reading and for executing queries.
-/

set_option autoImplicit false

namespace FieldQuery

/-- One limit for each of the two stages. -/
structure Settings where
  parser : DepthLimit
  executor : DepthLimit
  deriving DecidableEq

namespace Settings

def unlimited : Settings := ⟨.unlimited, .unlimited⟩

instance : Inhabited Settings := ⟨unlimited⟩

def withMaxDepth (limit : DepthLimit) : Settings := ⟨limit, limit⟩

def limitToJson (limit : DepthLimit) : Json :=
  .object [("maxDepth", .number (.ofUInt64 limit.maximum))]

def toJson (settings : Settings) : Json :=
  .object [("parser", limitToJson settings.parser), ("executor", limitToJson settings.executor)]

end Settings

end FieldQuery
