import FieldQuery.CommandLine.Run

/-!
# The program

Reads what the arguments ask for, runs the command and prints its outcome.
-/

set_option autoImplicit false

open FieldQuery.CommandLine

namespace FieldQuery.CommandLine

def failureReason : IO.Error → String
  | .noFileOrDirectory .. => "No such file or directory (os error 2)"
  | .permissionDenied .. => "Permission denied (os error 13)"
  | failure => failure.toString

def readFile (path : String) : IO (Except String ByteArray) := do
  try return .ok (← IO.FS.readBinFile path)
  catch failure => return .error (failureReason failure)

/-- The content of the standard input, unless it is a terminal. -/
def readStandard : IO (Option ByteArray) := do
  let standard ← IO.getStdin
  if ← standard.isTty then return none
  return some (← standard.readBinToEnd)

end FieldQuery.CommandLine

def main (arguments : List String) : IO UInt32 := do
  let outcome ←
    match Request.ofArguments? arguments with
    | none => pure Outcome.usage
    | some request => do
        let standard ← if request.readsInput then readStandard else pure none
        let settings ← request.settingsPath?.mapM readFile
        pure (run ⟨standard, settings⟩ request)
  IO.print outcome.output
  IO.eprint outcome.errors
  return outcome.status.toUInt32
