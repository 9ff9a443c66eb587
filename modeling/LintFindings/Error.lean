/-
Errors.

`Error` gathers all reasons for which a conversion can fail; `Error.message` is
the one place where they are put into words.
-/
import LintFindings.Config.Schema

namespace LintFindings

/-- Why a file cannot be read or written. -/
inductive FileFailure where
  | notFound
  | notDirectory
  | isDirectory
  /-- The file was read, but it is no text. -/
  | notText
  | other (text : Text)
  deriving DecidableEq, Repr

/-- The text of a failure. -/
def FileFailure.message : FileFailure → Text
  | notFound => "No such file or directory (os error 2)".toList
  | notDirectory => "Not a directory (os error 20)".toList
  | isDirectory => "Is a directory (os error 21)".toList
  | notText => "stream did not contain valid UTF-8".toList
  | other text => text

/-- The arguments that may not be blank. -/
inductive Argument where
  | label
  | mnemonic
  deriving DecidableEq, Repr

/-- The name of an argument. -/
def Argument.name : Argument → Text
  | label => "label".toList
  | mnemonic => "mnemonic".toList

/-- Why a conversion fails. -/
inductive Error where
  | blankArgument (a : Argument)
  | malformedConfig
  | schema (e : SchemaError)
  | config (e : ConfigError)
  | fileRead (path : Text) (failure : FileFailure)
  | fileWrite (path : Text) (failure : FileFailure)
  deriving DecidableEq, Repr

/-- The text of an error in a pattern. -/
def PatternError.message : PatternError → Text
  | malformed name =>
    "Invalid pattern ".toList ++ SchemaError.marked name ++ ": regex parse error".toList
  | tooLarge name =>
    "Invalid pattern ".toList ++ SchemaError.marked name ++
      ": Compiled regex exceeds size limit of 10485760 bytes.".toList
  | missingGroup name group =>
    "Invalid configuration: pattern ".toList ++ SchemaError.marked name ++
      " is missing the ".toList ++ SchemaError.marked group ++ " capture group".toList

/-- The text of an error in a configuration. -/
def ConfigError.message : ConfigError → Text
  | pattern e => e.message
  | unknownFormat name =>
    "Invalid configuration: unknown report format ".toList ++ SchemaError.marked name
  | nothingToRead =>
    "Invalid configuration: no report formats configured and fallback is disabled".toList

/-- The text of an error. -/
def Error.message : Error → Text
  | blankArgument a => "invalid argument: ".toList ++ a.name ++ " must not be empty".toList
  | malformedConfig => "Invalid configuration: TOML parse error".toList
  | schema e => "Invalid configuration: TOML parse error\n".toList ++ e.message
  | config e => e.message
  | fileRead path failure =>
    "Failed to read file ".toList ++ path ++ ": ".toList ++ failure.message
  | fileWrite path failure =>
    "Failed to write file ".toList ++ path ++ ": ".toList ++ failure.message

/-- The configuration that a text holds. -/
def Config.ofText (t : Text) : Except Error Config :=
  (Config.read? t).mapError fun
    | .malformed => .malformedConfig
    | .schema e => .schema e

end LintFindings
