import FieldQuery.Json.Basic
import FieldQuery.Value.Printer

/-!
# Reports for older readers

Readers that look at nothing but the printed JSON get an object with the key `errors` in place
of a result when there is none.
-/

set_option autoImplicit false

namespace FieldQuery

/-- The printed body of an outcome, and whether it reports a failure. -/
structure Report where
  body : String
  failed : Bool
  deriving DecidableEq

namespace Report

variable {Part Error : Type}

def errors (messages : List String) : Json := .object [("errors", .array (messages.map .string))]

def errorsBody (library : Json.Library Part Error) (messages : List String) : String :=
  library.display (errors messages)

def ofOutcome (library : Json.Library Part Error) : Except String Value → Report
  | .ok value =>
      match value.write library.compact with
      | .ok text => ⟨text, false⟩
      | .error _ => ⟨errorsBody library ["JSON converting error"], true⟩
  | .error message => ⟨errorsBody library [message], true⟩

end Report

end FieldQuery
