import FieldQuery.Text.Decimal

/-!
# Arguments of the command line

An argument is an option, a group of one-letter flags, or plain. An option takes its value from
behind an equals sign or from the next argument, which then has to be plain; a single hyphen is
plain. Behind `--` every argument is plain. Options may stand in any order, none twice.
-/

set_option autoImplicit false

namespace FieldQuery.CommandLine

structure Grammar where
  /-- Flags by name. -/
  flags : List String
  /-- The one-letter forms of flags. -/
  letters : List (Char × String)
  /-- Options that take a value. -/
  options : List String
  /-- Flags behind which nothing is looked at. -/
  final : List String
  /-- Whether the first plain argument is the name of a command with arguments of its own. -/
  hasCommands : Bool

inductive Part where
  | flag (name : String)
  | option (name value : String)
  | plain (argument : String)
  /-- A command with its arguments. -/
  | command (name : String) (arguments : List String)

inductive Shape where
  | separator
  | long (name : String) (value : Option String)
  | letters (letters : List Char)
  | plain

/-- The form of an argument, told by its first characters. -/
def shape (argument : String) : Shape :=
  match argument.toList with
  | ['-', '-'] => .separator
  | '-' :: '-' :: rest =>
      let name := rest.takeWhile (· != '=')
      match rest.dropWhile (· != '=') with
      | [] => .long (String.ofList name) none
      | _ :: value => .long (String.ofList name) (some (String.ofList value))
  | '-' :: first :: rest => .letters (first :: rest)
  | _ => .plain

def isPlain (argument : String) : Bool :=
  match shape argument with
  | .plain => true
  | _ => false

/-- The flags of a group of letters, up to a final one, and whether there was a final one. -/
def flagsOf? (grammar : Grammar) : List Char → Option (List Part × Bool)
  | [] => some ([], false)
  | letter :: rest => do
      let name ← grammar.letters.lookup letter
      if grammar.final.contains name then return ([.flag name], true)
      let (flags, final) ← flagsOf? grammar rest
      return (.flag name :: flags, final)

/-- The parts of the arguments, unless one of them is not known. -/
def parts? (grammar : Grammar) : List String → Option (List Part)
  | [] => some []
  | argument :: rest =>
      match shape argument with
      | .separator => if grammar.hasCommands then none else some (rest.map .plain)
      | .long name none =>
          if grammar.final.contains name then some [.flag name]
          else if grammar.flags.contains name then (parts? grammar rest).map (.flag name :: ·)
          else if grammar.options.contains name then
            match rest with
            | value :: behind =>
                if isPlain value then (parts? grammar behind).map (.option name value :: ·)
                else none
            | [] => none
          else none
      | .long name (some value) =>
          if grammar.options.contains name then
            (parts? grammar rest).map (.option name value :: ·)
          else none
      | .letters letters => do
          let (flags, final) ← flagsOf? grammar letters
          if final then return flags
          return flags ++ (← parts? grammar rest)
      | .plain =>
          if grammar.hasCommands then some [.command argument rest]
          else (parts? grammar rest).map (.plain argument :: ·)

/-- Whether a flag is given; giving it twice is refused. -/
def flag? (parts : List Part) (name : String) : Option Bool :=
  match parts.filter fun part => match part with | .flag given => given == name | _ => false with
  | [] => some false
  | [_] => some true
  | _ => none

def option? (parts : List Part) (name : String) : Option (Option String) :=
  let values := parts.filterMap fun part =>
    match part with
    | .option given value => if given == name then some value else none
    | _ => none
  match values with
  | [] => some none
  | [value] => some (some value)
  | _ => none

def plains (parts : List Part) : List String :=
  parts.filterMap fun part =>
    match part with
    | .plain argument => some argument
    | _ => none

/-- The value of an option as another type; a value that does not fit is refused. -/
def optionAs? {α : Type} (parts : List Part) (name : String) (read : String → Option α) :
    Option (Option α) := do
  match ← option? parts name with
  | none => return none
  | some value => return some (← read value)

end FieldQuery.CommandLine
