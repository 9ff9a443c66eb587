/-
Command-line arguments.

Arguments are read from left to right.  An option that takes a value takes it
from behind an equals sign or from the next argument, unless that one looks
like an option; its value is checked when the next option comes or the
arguments end.  `Arguments.read` answers what is asked for, or the first
mistake.
-/
import LintFindings.Text.Table

namespace LintFindings

/-- The options of the command line. -/
inductive Opt where
  | label
  | mnemonic
  | input
  | output
  | config
  | compact
  | summary
  | help
  | version
  deriving DecidableEq, Repr

namespace Opt

/-- All options, in the order of the help text. -/
def all : List Opt := [label, mnemonic, input, output, config, compact, summary, help, version]

/-- The long name of an option. -/
def name : Opt → Text
  | label => "label".toList
  | mnemonic => "mnemonic".toList
  | input => "in".toList
  | output => "out".toList
  | config => "config".toList
  | compact => "compact".toList
  | summary => "summary".toList
  | help => "help".toList
  | version => "version".toList

/-- The letter of an option that has one. -/
def letter? : Opt → Option Char
  | help => some 'h'
  | version => some 'V'
  | _ => none

/-- What the value of an option is called, if it takes one. -/
def valueName? : Opt → Option Text
  | label => some "LABEL".toList
  | mnemonic => some "MNEMONIC".toList
  | input | output | config => some "PATH".toList
  | _ => none

/-- What an option is for. -/
def purpose : Opt → Text
  | label => "Label of the build target being linted".toList
  | mnemonic => "Identifier of the linter, used as the SARIF tool name".toList
  | input => "File containing the linter output".toList
  | output => "Where to write the SARIF JSON".toList
  | config => "Optional TOML configuration file".toList
  | compact => "Write single-line JSON instead of pretty-printed JSON".toList
  | summary => "Print a human-readable summary of the findings to stdout".toList
  | help => "Print help".toList
  | version => "Print version".toList

/-- The options that have to be given. -/
def required : List Opt := [label, mnemonic, input, output]

/-- An option with its value, as it is written. -/
def usage (o : Opt) : Text :=
  "--".toList ++ o.name ++
    (match o.valueName? with
      | some v => " <".toList ++ v ++ ['>']
      | none => [])

end Opt

/-- What is wrong with the arguments. -/
inductive UsageError where
  | unexpectedArgument (written : Text)
  | unexpectedValue (value : Text) (o : Opt)
  | missingValue (o : Opt)
  | blankValue (value : Text) (o : Opt)
  | repeatedOption (o : Opt)
  | missingOptions (os : List Opt)
  deriving DecidableEq, Repr

/-- A text between single quotes. -/
def UsageError.marked (t : Text) : Text := '\'' :: t ++ ['\'']

/-- The text of an error. -/
def UsageError.message : UsageError → Text
  | unexpectedArgument written => "unexpected argument ".toList ++ marked written ++ " found".toList
  | unexpectedValue value o =>
    "unexpected value ".toList ++ marked value ++ " for ".toList ++ marked o.usage ++
      " found; no more were expected".toList
  | missingValue o =>
    "a value is required for ".toList ++ marked o.usage ++ " but none was supplied".toList
  | blankValue value o =>
    "invalid value ".toList ++ marked value ++ " for ".toList ++ marked o.usage ++
      ": value must not be empty".toList
  | repeatedOption o =>
    "the argument ".toList ++ marked o.usage ++ " cannot be used multiple times".toList
  | missingOptions os =>
    "the following required arguments were not provided:".toList ++
      os.flatMap fun o => "\n  ".toList ++ o.usage

/-- What a conversion is asked for. -/
structure Request where
  label : Text
  mnemonic : Text
  input : Text
  output : Text
  config : Option Text
  compact : Bool
  summary : Bool
  deriving DecidableEq, Repr

/-- What the arguments ask for. -/
inductive Command where
  | convert (r : Request)
  | help
  | version
  deriving DecidableEq, Repr

namespace Arguments

/-- The options so far with their values, the option whose value is not checked yet or is still
to come, and whether only plain arguments may follow. -/
structure State where
  known : List (Opt × Text)
  pending : Option (Opt × Option Text)
  plainOnly : Bool
  deriving DecidableEq, Repr

/-- What reading comes to before its end. -/
inductive Stop where
  | error (e : UsageError)
  | command (c : Command)

/-- Enters an option with its value: once, and with a value that it can have. -/
def enter (o : Opt) (value : Text) (known : List (Opt × Text)) :
    Except Stop (List (Opt × Text)) :=
  if (known.lookup o).isSome then .error (.error (.repeatedOption o))
  else
    match o with
    | .label | .mnemonic =>
      if (Text.trimmed? value).isNone then .error (.error (.blankValue value o))
      else .ok (known ++ [(o, value)])
    | .input | .output | .config =>
      if value = [] then .error (.error (.missingValue o)) else .ok (known ++ [(o, value)])
    | _ => .ok (known ++ [(o, value)])

/-- Enters the option whose value is not checked yet. -/
def settle (s : State) : Except Stop State :=
  match s.pending with
  | none => .ok s
  | some (o, none) => .error (.error (.missingValue o))
  | some (o, some value) => (enter o value s.known).map fun known => { s with known, pending := none }

/-- An option without a value. -/
def takeFlag (o : Opt) (s : State) : Except Stop State := do
  let s ← settle s
  match o with
  | .help => .error (.command .help)
  | .version => .error (.command .version)
  | o => (enter o [] s.known).map fun known => { s with known }

/-- An option by its long name, with what stands behind an equals sign. -/
def takeLong (written : Text) (s : State) : Except Stop State :=
  let name := written.takeWhile (· != '=')
  let value? := match written.dropWhile (· != '=') with
    | _ :: value => some value
    | [] => none
  match Opt.all.find? (·.name = name) with
  | none => .error (.error (.unexpectedArgument ("--".toList ++ name)))
  | some o =>
    match o.valueName?, value? with
    | none, some value => .error (.error (.unexpectedValue value o))
    | none, none => takeFlag o s
    | some _, some value => do
      let s ← settle s
      (enter o value s.known).map fun known => { s with known }
    | some _, none => (settle s).map fun s => { s with pending := some (o, none) }

/-- An argument. -/
def take (s : State) (arg : Text) : Except Stop State :=
  if s.plainOnly then .error (.error (.unexpectedArgument arg))
  else
    match arg, s.pending with
    | ['-', '-'], _ => .ok { s with plainOnly := true }
    | '-' :: '-' :: written, _ => takeLong written s
    | '-' :: c :: _, _ =>
      match Opt.all.find? (·.letter? = some c) with
      | some o => takeFlag o s
      | none => .error (.error (.unexpectedArgument ['-', c]))
    | value, some (o, none) => .ok { s with pending := some (o, some value) }
    | arg, _ => .error (.error (.unexpectedArgument arg))

/-- The request that the options make. -/
def request (known : List (Opt × Text)) : Except Stop Request :=
  match known.lookup .label, known.lookup .mnemonic, known.lookup .input, known.lookup .output with
  | some label, some mnemonic, some input, some output =>
    .ok
      { label, mnemonic, input, output
        config := known.lookup .config
        compact := (known.lookup .compact).isSome
        summary := (known.lookup .summary).isSome }
  | _, _, _, _ =>
    .error (.error (.missingOptions (Opt.required.filter fun o => (known.lookup o).isNone)))

/-- What the arguments ask for. -/
def read (args : List Text) : Except UsageError Command :=
  let result : Except Stop Request := do
    let s ← args.foldlM take ⟨[], none, false⟩
    let s ← settle s
    request s.known
  match result with
  | .ok r => .ok (.convert r)
  | .error (.command c) => .ok c
  | .error (.error e) => .error e

end Arguments

/-! ### The help text -/

/-- A text filled up with spaces. -/
def padTo (width : Nat) (t : Text) : Text := t ++ List.replicate (width - t.length) ' '

/-- The line of the help text for an option. -/
def Opt.helpLine (o : Opt) : Text :=
  let letter := match o.letter? with
    | some c => ['-', c, ',', ' ']
    | none => List.replicate 4 ' '
  "  ".toList ++ letter ++ padTo 21 o.usage ++ "  ".toList ++ o.purpose ++ ['\n']

/-- The name of the program. -/
def programName : Text := "lint-sarif".toList

/-- The text that explains the command line. -/
def helpText : Text :=
  "Convert linter output into a SARIF 2.1.0 document\n\nUsage: ".toList ++ programName ++
    " [OPTIONS]".toList ++ Opt.required.flatMap (fun o => ' ' :: o.usage) ++
    "\n\nOptions:\n".toList ++ Opt.all.flatMap Opt.helpLine

/-- The text that names the version. -/
def versionText : Text := programName ++ " 0.1.0\n".toList

end LintFindings
