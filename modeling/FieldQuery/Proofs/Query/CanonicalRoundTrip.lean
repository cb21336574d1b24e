import FieldQuery.Proofs.Query.CanonicalReading
import FieldQuery.Proofs.Query.WellFormedness

/-!
# Writing what was read

What a parse returns can be written as canonical text, and that text reads back as the same
selections.
-/

set_option autoImplicit false

namespace FieldQuery.Query

open Fallible

theorem allWellFormed_of_parse {limit : DepthLimit} {text : String} {selections : List Selection}
    (parsed : parse limit text = .ok selections) : AllWellFormed selections := by
  rw [← toOption_eq_some_iff, toOption_parse] at parsed
  exact OnePass.allWellFormed_of_read parsed

theorem parse_canonicalText {selections : List Selection} (wellFormed : AllWellFormed selections) :
    parse .unlimited (canonicalText selections) = .ok selections := by
  rw [← toOption_eq_some_iff, toOption_parse]
  exact OnePass.Reader.read_canonicalText wellFormed

/-- Parsing gives well-formed selections only, all well-formed selections come back from their
canonical text, and therefore writing and reading a parsed query changes nothing. -/
theorem canonicalText_roundTrip :
    (∀ (limit : DepthLimit) (text : String) (selections : List Selection),
      parse limit text = .ok selections → AllWellFormed selections) ∧
    (∀ selections : List Selection, AllWellFormed selections →
      parse .unlimited (canonicalText selections) = .ok selections) ∧
    (∀ (limit : DepthLimit) (text : String) (selections : List Selection),
      parse limit text = .ok selections →
        parse .unlimited (canonicalText selections) = .ok selections) := by
  refine ⟨?_, ?_, ?_⟩
  · intro limit text selections parsed
    exact allWellFormed_of_parse parsed
  · intro selections wellFormed
    exact parse_canonicalText wellFormed
  · intro limit text selections parsed
    exact parse_canonicalText (allWellFormed_of_parse parsed)

/-- A query whose arguments need care: a closing brace, a comment sign, a parenthesis, quotation
marks and a line feed inside a text, and the least number. -/
def awkwardSelections : List Selection :=
  [.leaf "size",
    .branch "child"
      ((Dict.empty.insert "low" (.integer Int64.minValue)).insert "text" (.text "a\"\\\x7d#\n(b"))
      [.branch "inner" .empty []]]

def awkwardText : String :=
  "size # first\nchild (text: \"a\\\"\\\\\" \"\x7d#\\n(b\", low: -9223372036854775808)"
    ++ " \x7b inner \x7b\x7d \x7d"

theorem canonicalText_awkwardSelections :
    parse ⟨3⟩ awkwardText = .ok awkwardSelections ∧
      AllWellFormed awkwardSelections ∧
      parse .unlimited
        ("size,child(low:-9223372036854775808,text:\"a\\\"\\\\\x7d#\\n(b\")"
          ++ "\x7binner\x7b\x7d\x7d") = .ok awkwardSelections := by
  have parsed : parse ⟨3⟩ awkwardText = .ok awkwardSelections := by
    rw [← toOption_eq_some_iff, toOption_parse]
    decide +kernel
  obtain ⟨ofParse, ofWellFormed, _⟩ := canonicalText_roundTrip
  have wellFormed : AllWellFormed awkwardSelections := ofParse ⟨3⟩ awkwardText _ parsed
  exact ⟨parsed, wellFormed, ofWellFormed awkwardSelections wellFormed⟩

end FieldQuery.Query
