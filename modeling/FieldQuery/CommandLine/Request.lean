import FieldQuery.CommandLine.Arguments
import FieldQuery.DepthLimit

/-!
# Requests on the command line

What the arguments ask for. The file of settings and the depth limit may be given before the
command or among its arguments, where they take precedence.
-/

set_option autoImplicit false

namespace FieldQuery.CommandLine

structure GlobalOptions where
  /-- The path of the file of settings. -/
  config : Option String
  maxDepth : Option DepthLimit

/-- A command with its own arguments. A query that is not given, or is a hyphen, is the standard
input. -/
inductive Command where
  | check (query : Option String) (pretty syntaxOnly legacyErrors : Bool) (seed : Int64)
  | parse (query : Option String) (pretty : Bool)
  | docs
  | doc (category : String)

inductive Request where
  | version
  | run (options : GlobalOptions) (command : Command)

namespace GlobalOptions

def names : List String := ["config", "max-depth"]

/-- A path is any text but the empty one. -/
private def path? (text : String) : Option String := if text.isEmpty then none else some text

def ofParts? (parts : List Part) : Option GlobalOptions := do
  let config ← optionAs? parts "config" path?
  let maxDepth ← optionAs? parts "max-depth" Text.uint64?
  return ⟨config, maxDepth.map DepthLimit.mk⟩

/-- The options given inside a command over those given before it. -/
def withDefaults (inner outer : GlobalOptions) : GlobalOptions :=
  ⟨inner.config.or outer.config, inner.maxDepth.or outer.maxDepth⟩

end GlobalOptions

namespace Command

def grammar? (name : String) : Option Grammar :=
  match name with
  | "check" => some {
      flags := ["pretty", "syntax-only", "legacy-errors"]
      letters := [('p', "pretty")]
      options := "seed" :: GlobalOptions.names
      final := []
      hasCommands := false }
  | "parse" => some {
      flags := ["pretty"]
      letters := [('p', "pretty")]
      options := GlobalOptions.names
      final := []
      hasCommands := false }
  | "docs" | "doc" => some {
      flags := []
      letters := []
      options := GlobalOptions.names
      final := []
      hasCommands := false }
  | _ => none

private def atMostOne? : List String → Option (Option String)
  | [] => some none
  | [argument] => some (some argument)
  | _ => none

def ofParts? (name : String) (parts : List Part) : Option Command :=
  match name with
  | "check" => do
      let query ← atMostOne? (plains parts)
      let pretty ← flag? parts "pretty"
      let syntaxOnly ← flag? parts "syntax-only"
      let legacyErrors ← flag? parts "legacy-errors"
      let seed ← optionAs? parts "seed" Text.int64?
      return .check query pretty syntaxOnly legacyErrors (seed.getD 0)
  | "parse" => do
      let query ← atMostOne? (plains parts)
      let pretty ← flag? parts "pretty"
      return .parse query pretty
  | "docs" => if (plains parts).isEmpty then some .docs else none
  | "doc" =>
      match plains parts with
      | [category] => some (.doc category)
      | _ => none
  | _ => none

end Command

namespace Request

def grammar : Grammar where
  flags := []
  letters := [('V', "version")]
  options := GlobalOptions.names
  final := ["version"]
  hasCommands := true

def ofCommand? (outer : GlobalOptions) (name : String) (arguments : List String) :
    Option Request := do
  let parts ← parts? (← Command.grammar? name) arguments
  let inner ← GlobalOptions.ofParts? parts
  let command ← Command.ofParts? name parts
  return .run (inner.withDefaults outer) command

/-- The request of all arguments; none if they are not understood. -/
def ofArguments? (arguments : List String) : Option Request := do
  let parts ← parts? grammar arguments
  let options ← GlobalOptions.ofParts? parts
  match parts.getLast? with
  | some (.flag "version") => return .version
  | some (.command name arguments) => ofCommand? options name arguments
  | _ => none

end Request

end FieldQuery.CommandLine
