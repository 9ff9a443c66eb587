/-
The program.

`main` runs the command line on the files of the machine.
-/
import LintFindings.CommandLine.Run

namespace LintFindings

/-- What the system says about a failure that has a number of its own. -/
def FileFailure.numbered (code : UInt32) (details : String) : FileFailure :=
  .other (details ++ " (os error " ++ toString code ++ ")").toList

/-- Why an operation on a file failed. -/
def FileFailure.ofError : IO.Error → FileFailure
  | .noFileOrDirectory .. => .notFound
  | .inappropriateType _ 20 _ => .notDirectory
  | .inappropriateType _ 21 _ => .isDirectory
  | .alreadyExists _ code details | .otherError code details | .resourceBusy code details
  | .resourceVanished code details | .unsupportedOperation code details
  | .hardwareFault code details | .unsatisfiedConstraints code details
  | .illegalOperation code details | .protocolError code details | .timeExpired code details
  | .interrupted _ code details | .invalidArgument _ code details
  | .permissionDenied _ code details | .resourceExhausted _ code details
  | .inappropriateType _ code details | .noSuchThing _ code details => numbered code details
  | e => .other e.toString.toList

/-- The outcome of an operation on a file. -/
def attempt {α : Type} (operation : IO α) : IO (Except FileFailure α) := do
  match ← operation.toBaseIO with
  | .ok a => return .ok a
  | .error e => return .error (.ofError e)

/-- The files of the machine. -/
def machineFiles : FileOps IO where
  read path := attempt do
    let bytes ← IO.FS.withFile (String.ofList path) .read fun file => file.readBinToEnd
    return bytes.toList
  write path bytes := attempt do
    IO.FS.writeBinFile (String.ofList path) ⟨bytes.toArray⟩

/-- Whether to print in colors: the environment may force or forbid it, else it depends on where
the output goes. -/
def wantsColors : IO Bool := do
  if (← IO.getEnv "CLICOLOR_FORCE").any (· != "0") then return true
  if (← IO.getEnv "NO_COLOR").isSome then return false
  if (← IO.getEnv "CLICOLOR") == some "0" then return false
  (← IO.getStdout).isTty

end LintFindings

open LintFindings in
/-- Runs the command line. -/
def main (args : List String) : IO UInt32 := do
  let outcome ← CommandLine.run machineFiles (← wantsColors) (args.map String.toList)
  IO.print (String.ofList outcome.stdout)
  IO.eprint (String.ofList outcome.stderr)
  return outcome.exitCode.toUInt32
