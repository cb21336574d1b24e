/-!
# Outcomes of reading one character

The parts of a query that end by a character of their own are read one character at a time. After
each character such a part either waits for more or is complete.
-/

set_option autoImplicit false

namespace FieldQuery.Query

/-- What a part of a query has become after one more character. -/
inductive Progress (State Result : Type) where
  /-- More characters belong to the part. -/
  | waiting (state : State)
  /-- The character closed the part. -/
  | closed (result : Result)

end FieldQuery.Query
