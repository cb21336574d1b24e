import FieldQuery.DepthLimit
import FieldQuery.Interchange.Decode

/-!
# Causes of failed executions

Every cause but the refusal of a hook names its place by a path from the root of the query.
-/

set_option autoImplicit false

namespace FieldQuery

open Query

inductive ExecutionError where
  /-- The node has no scalar of that name. -/
  | fieldNotFound (path : Path)
  /-- The node has no collection of that name. -/
  | collectionNotFound (path : Path)
  /-- A query in interchange form does not have that form. -/
  | malformedQuery (error : Interchange.ShapeError)
  /-- The branch at the path reaches nodes beyond the limit. -/
  | depthLimitExceeded (limit : DepthLimit) (path : Path)
  /-- A hook refused, with its own text. -/
  | batchResolve (text : String)
  deriving DecidableEq

def ExecutionError.message : ExecutionError → String
  | .fieldNotFound path => path.text ++ " not found"
  | .collectionNotFound path => path.text ++ " field not found"
  | .malformedQuery error => error.message
  | .depthLimitExceeded limit path =>
      "maximum query depth of " ++ Text.decimal limit.maximum.toNat ++ " exceeded at " ++ path.text
  | .batchResolve text => text

end FieldQuery
