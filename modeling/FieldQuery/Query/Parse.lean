import FieldQuery.Query.Level

/-!
# Reading queries

A query is the outermost level of a text, and every block of a level is a level of its own that
lies one deeper. Entries are taken in order, so the fault of a block comes before a later fault
of the level around it, and the depth of a level is checked before anything in it is read.
-/

set_option autoImplicit false

namespace FieldQuery.Query

/-- Reads the level at a depth whose first character stands at `origin`. -/
def parseLevel (limit : DepthLimit) (depth : Nat) (origin : Position) (text : String) :
    Except ParseError (List Selection) :=
  if limit.exceededBy depth then .error (.depthLimitExceeded limit origin)
  else do
    let level := Level.start.scan origin text.toList
    let selections ← level.entries.attach.mapM fun entry =>
      match entry with
      | ⟨.leaf name, _⟩ => .ok (.leaf name)
      | ⟨.block name arguments within body, _⟩ => do
          let nested ← parseLevel limit (depth + 1) within body
          return .branch name arguments nested
    match level.fault with
    | none => return selections
    | some fault => throw fault
termination_by text.length
decreasing_by exact Level.length_text_lt_of_mem_scan ‹_›

/-- Reads a whole query. Braces round the outermost level are optional. -/
def parse (limit : DepthLimit) (text : String) : Except ParseError (List Selection) :=
  parseLevel limit 1 .start text

end FieldQuery.Query
