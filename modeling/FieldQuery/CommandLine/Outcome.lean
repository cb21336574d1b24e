import FieldQuery.Execution.Error
import FieldQuery.Films.Detail
import FieldQuery.Json.Reading
import FieldQuery.Query.ParseError
import FieldQuery.Report

/-!
# Outcomes of commands

A command either prints a text, fails with an error on the error output, or reports a failure in
its printed text. Arguments that are not understood have a status of their own.
-/

set_option autoImplicit false

namespace FieldQuery.CommandLine

inductive CommandError where
  | parse (error : Query.ParseError)
  | execution (error : ExecutionError)
  /-- The execution broke off without an outcome. -/
  | broken (fault : Films.Fault)
  | invalidJson (fault : Json.Fault)
  /-- The query is neither in the arguments nor on a standard input that holds one. -/
  | noQuery
  | inputNotText
  /-- A file cannot be read, for a reason that the system gives. -/
  | unreadable (reason : String)
  | unknownCategory (name : String)
  deriving DecidableEq

namespace CommandError

private def faultText : Json.Fault → String
  | .ended => "unexpected end of text"
  | .malformed => "malformed text"
  | .mismatched => "unexpected type or value"

def message : CommandError → String
  | .parse error => "Parse error: " ++ error.message
  | .execution error => "Execution error: " ++ error.message
  | .broken fault => fault.message
  | .invalidJson fault => "Invalid JSON: " ++ faultText fault
  | .noQuery => "No query provided. Pass it as an argument or pipe it to stdin."
  | .inputNotText => "IO error: stream did not contain valid UTF-8"
  | .unreadable reason => "IO error: " ++ reason
  | .unknownCategory name =>
      "Unknown category: '" ++ name ++ "'\nRun 'hypeql docs' to see available categories."

/-- The message of an error that older readers expect in the printed text. -/
def legacyMessage? : CommandError → Option String
  | .parse error => some error.message
  | .execution error => some error.message
  | _ => none

end CommandError

inductive Outcome where
  | printed (text : String)
  /-- The printed text reports the failure. -/
  | reported (text : String)
  | failed (error : CommandError)
  /-- The arguments are not understood. -/
  | usage

namespace Outcome

def status : Outcome → Nat
  | .printed _ => 0
  | .reported _ => 1
  | .failed (.broken _) => 101
  | .failed _ => 1
  | .usage => 2

def output : Outcome → String
  | .printed text => text
  | .reported text => text
  | .failed _ => ""
  | .usage => ""

def errors : Outcome → String
  | .printed _ => ""
  | .reported _ => ""
  | .failed error => error.message ++ "\n"
  | .usage => "error: the arguments are not understood\n\n"
      ++ "Usage: hypeql [OPTIONS] <check|parse|docs|doc> [ARGUMENTS]\n"

end Outcome

end FieldQuery.CommandLine
