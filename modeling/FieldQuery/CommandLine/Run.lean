import FieldQuery.CommandLine.Outcome
import FieldQuery.CommandLine.Request
import FieldQuery.Execution.Basic
import FieldQuery.Films.Catalog
import FieldQuery.Interchange.Encode
import FieldQuery.Manual
import FieldQuery.Query.Parse
import FieldQuery.Settings.Reader

/-!
# Commands

`check` executes a query against the catalog of films, `parse` prints the interchange form of a
query, and `docs` and `doc` print the manual. A command is a function of its arguments, the
standard input and the file of settings.
-/

set_option autoImplicit false

namespace FieldQuery.CommandLine

open Query

inductive CheckResult where
  | syntaxValid
  | value (value : Value)

def storedFilms : Int64 := 3

/-- Executes a query against the catalog of the films of a seed. -/
def executed (settings : Settings) (seed : Int64) (selections : List Selection) :
    Except ExecutionError Value × Films.Store :=
  (Execution.execute Films.graph settings.executor selections
    (.catalog (.ofCount storedFilms))).outcome (.ok (.ofList [("seed", .integer seed)]))

/-- What came of an execution. A fault leaves it without a result. -/
def resultOf : Except ExecutionError Value × Films.Store → Except CommandError CheckResult
  | (_, .error fault) => .error (.broken fault)
  | (.error error, .ok _) => .error (.execution error)
  | (.ok value, .ok _) => .ok (.value value)

/-- Reads a query and, unless only its form is asked for, executes it. -/
def check (settings : Settings) (seed : Int64) (syntaxOnly : Bool) (query : String) :
    Except CommandError CheckResult := do
  let selections ← (parse settings.parser query).mapError .parse
  if syntaxOnly then return .syntaxValid
  resultOf (executed settings seed selections)

def queryToInterchange (limit : DepthLimit) (query : String) : Except CommandError Json := do
  let selections ← (parse limit query).mapError .parse
  return Interchange.encode selections

def manualPage (name : String) : Except CommandError String :=
  match Manual.Category.ofName? name with
  | some category => .ok category.text
  | none => .error (.unknownCategory name)

structure Input where
  /-- The standard input, unless it is a terminal. -/
  standard : Option ByteArray
  /-- The file of settings, if one is given: its content, or why it cannot be read. -/
  settings : Option (Except String ByteArray)

def textOf (bytes : ByteArray) : Except CommandError String :=
  match String.fromUTF8? bytes with
  | some text => .ok text
  | none => .error .inputNotText

def fileText (file : Except String ByteArray) : Except CommandError String := do
  textOf (← file.mapError .unreadable)

def standardText (input : Input) : Except CommandError String :=
  match input.standard with
  | some bytes => textOf bytes
  | none => .error .noQuery

def queryText (input : Input) (query : Option String) : Except CommandError String :=
  match query with
  | some text => if text == "-" then standardText input else .ok text
  | none => standardText input

/-- The settings of the file, unless a limit in the arguments takes their place. -/
def settingsOf (input : Input) (options : GlobalOptions) : Except CommandError Settings := do
  let text ← input.settings.mapM fileText
  (Settings.load text options.maxDepth).mapError .invalidJson

def line (text : String) : String := text ++ "\n"

def printerOf (pretty : Bool) : Json.Printer (Nat → String) Json.Fault :=
  if pretty then Json.library.spread else Json.library.compact

/-- The line of a text, unless it could not be written. -/
def lineOf (written : Except Json.Fault String) : Except CommandError String :=
  (written.mapError .invalidJson).map line

def Outcome.of (result : Except CommandError String) : Outcome :=
  match result with
  | .ok text => .printed text
  | .error error => .failed error

def runCheck (input : Input) (options : GlobalOptions) (query : Option String)
    (pretty syntaxOnly legacyErrors : Bool) (seed : Int64) : Outcome :=
  let prepared : Except CommandError (String × Settings) := do
    let text ← queryText input query
    let settings ← settingsOf input options
    return (text, settings)
  match prepared with
  | .error error => .failed error
  | .ok (text, settings) =>
      match check settings seed syntaxOnly text with
      | .ok .syntaxValid => .printed (line "Syntax is valid")
      | .ok (.value value) => .of (lineOf (value.write (printerOf pretty)))
      | .error error =>
          match legacyErrors, error.legacyMessage? with
          | true, some message => .reported (line (Report.errorsBody Json.library [message]))
          | _, _ => .failed error

def runParse (input : Input) (options : GlobalOptions) (query : Option String) (pretty : Bool) :
    Outcome :=
  .of do
    let settings ← settingsOf input options
    let json ← queryToInterchange settings.parser (← queryText input query)
    lineOf (json.write (printerOf pretty))

def run (input : Input) : Request → Outcome
  | .version => .printed (line "hypeql 0.2.0")
  | .run options (.check query pretty syntaxOnly legacyErrors seed) =>
      runCheck input options query pretty syntaxOnly legacyErrors seed
  | .run options (.parse query pretty) => runParse input options query pretty
  | .run _ .docs => .printed Manual.overview
  | .run _ (.doc category) => .of (manualPage category)

def Request.readsInput : Request → Bool
  | .run _ (.check query _ _ _ _) | .run _ (.parse query _) => query.all (· == "-")
  | _ => false

def Request.settingsPath? : Request → Option String
  | .run options (.check ..) | .run options (.parse ..) => options.config
  | _ => none

/-- Runs a command line, given the content of the standard input and what the files hold. -/
def runArguments (standard : ByteArray) (file : String → Except String ByteArray)
    (arguments : List String) : Outcome :=
  match Request.ofArguments? arguments with
  | none => .usage
  | some request => run ⟨some standard, request.settingsPath?.map file⟩ request

end FieldQuery.CommandLine
