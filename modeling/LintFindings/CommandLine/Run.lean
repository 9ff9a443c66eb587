/-
Running the command line.

`CommandLine.run` carries out what the arguments ask for.  Everything that can
fail is done before the output file is written, and writing it is the only
change that a run makes.
-/
import LintFindings.CommandLine.Arguments
import LintFindings.Config.Files
import LintFindings.Converter
import LintFindings.Summary

namespace LintFindings.CommandLine

/-- What a run comes to: its exit code and what it prints. -/
structure Outcome where
  exitCode : UInt8
  stdout : Text
  stderr : Text
  deriving DecidableEq, Repr

/-- A run that succeeds. -/
def Outcome.success (stdout : Text) : Outcome := ⟨0, stdout, []⟩

/-- A run that fails. -/
def Outcome.failure (message : Text) : Outcome := ⟨1, [], "Error: ".toList ++ message ++ ['\n']⟩

/-- Why a conversion of files fails. -/
inductive RunError where
  | error (e : Error)
  | unreadableInput (path : Text) (failure : FileFailure)
  | unwritableOutput (path : Text) (failure : FileFailure)
  deriving DecidableEq, Repr

/-- What lies behind an error and is told again after it. -/
def cause? : Error → Option Text
  | .fileRead _ failure | .fileWrite _ failure => some failure.message
  | .config (.pattern (.malformed _)) => some "regex parse error".toList
  | .config (.pattern (.tooLarge _)) =>
    some "Compiled regex exceeds size limit of 10485760 bytes.".toList
  | _ => none

/-- The text of an error. -/
def RunError.message : RunError → Text
  | .error e =>
    e.message ++
      (match cause? e with
        | some cause => ": ".toList ++ cause
        | none => [])
  | .unreadableInput path failure =>
    "failed to read input file ".toList ++ path ++ ": ".toList ++ failure.message
  | .unwritableOutput path failure =>
    "failed to write output file ".toList ++ path ++ ": ".toList ++ failure.message

variable {m : Type → Type} [Monad m]

/-- The converter that a request asks for. -/
def converterOf (files : FileOps m) (r : Request) (engine : RegexEngine := .builtin) :
    ExceptT Error m Converter := do
  let config ←
    match r.config with
    | some path => ExceptT.mk (Config.load files path)
    | none => pure Config.standard
  match Converter.ofConfig config engine with
  | .ok c => pure (if r.compact then c.withPretty false else c)
  | .error e => throw e

/-- Converts the input file of a request to its output file and answers the run. -/
def convert (files : FileOps m) (r : Request) (engine : RegexEngine := .builtin) :
    ExceptT RunError m Run := do
  let converter ← (converterOf files r engine).adapt RunError.error
  let bytes ←
    match ← (files.read r.input : m _) with
    | .ok bytes => pure bytes
    | .error failure => throw (.unreadableInput r.input failure)
  let run ←
    match converter.readRun r.label r.mnemonic (Utf8.decodeLossy bytes) with
    | .ok run => pure run
    | .error e => throw (.error e)
  match ← (files.write r.output (Utf8.encode (converter.encode run)) : m _) with
  | .ok () => pure run
  | .error failure => throw (.unwritableOutput r.output failure)

/-- Carries out a request. -/
def carryOut (files : FileOps m) (colors : Bool) (r : Request)
    (engine : RegexEngine := .builtin) : m Outcome := do
  match ← (convert files r engine).run with
  | .ok run => return .success (if r.summary then run.summary colors else [])
  | .error e => return .failure e.message

/-- Carries out what the arguments ask for; patterns are compiled with an engine. -/
def run (files : FileOps m) (colors : Bool) (args : List Text)
    (engine : RegexEngine := .builtin) : m Outcome :=
  match Arguments.read args with
  | .error e => return .failure e.message
  | .ok .help => return .success helpText
  | .ok .version => return .success versionText
  | .ok (.convert r) => carryOut files colors r engine

end LintFindings.CommandLine
