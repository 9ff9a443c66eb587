/-
Converting reports.

A converter reads the report of a linter on a target into a run, and writes the
run as a document.  Label and mnemonic say what the target and the linter are,
so neither may be blank.
-/
import LintFindings.Error
import LintFindings.Label
import LintFindings.Sarif.Encoding

namespace LintFindings

/-- How reports are read and documents are written. -/
structure Converter where
  reader : ReportReader
  pretty : Bool
  informationUri : Option Text

namespace Converter

/-- Converts as a configuration that sets nothing does. -/
def standard : Converter := ⟨.standard, true, none⟩

/-- Converts as a configuration says. -/
def ofConfig (c : Config) (engine : RegexEngine := .builtin) : Except Error Converter := do
  let reader ← (c.reader? engine).mapError .config
  .ok ⟨reader, c.pretty, c.informationUri⟩

/-- With another layout. -/
def withPretty (c : Converter) (pretty : Bool) : Converter := { c with pretty }

/-- The value of an argument without its margins, which has to be there. -/
def required (a : Argument) (value : Text) : Except Error Text :=
  match Text.trimmed? value with
  | some t => .ok t
  | none => .error (.blankArgument a)

/-- The run that a report tells of. -/
def readRun (c : Converter) (label mnemonic report : Text) : Except Error Run := do
  let label ← required .label label
  let mnemonic ← required .mnemonic mnemonic
  .ok
    { toolName := mnemonic
      targetLabel := label
      findings := c.reader.read report (Label.reference label) }

/-- The text of the document of a run. -/
def encode (c : Converter) (run : Run) : Text :=
  (Sarif.Document.ofRun run c.informationUri).write c.pretty

/-- The text of the document of a report. -/
def convert (c : Converter) (label mnemonic report : Text) : Except Error Text :=
  (c.readRun label mnemonic report).map c.encode

end Converter

/-! ### Descriptions -/

/-- A list in brackets. -/
def describeList (items : List Text) : Text := '[' :: ", ".toList.intercalate items ++ [']']

/-- A truth value in words. -/
def describeBool (b : Bool) : Text := (if b then "true" else "false").toList

/-- The name of a severity in a description. -/
def Severity.title : Severity → Text
  | error => "Error".toList
  | warning => "Warning".toList
  | note => "Note".toList
  | none => "None".toList

/-- A table of words in a description. -/
def SeverityTable.describe (table : SeverityTable) : Text :=
  let meaning := fun (entry : Text × Severity) =>
    Text.quoted entry.1 ++ ": ".toList ++ entry.2.title
  "SeverityTable \x7b aliases: \x7b".toList ++ ", ".toList.intercalate (table.aliases.map meaning) ++
    "\x7d \x7d".toList

/-- A report reader in words: its matchers, its words for severities and its fallback. -/
def ReportReader.describe (r : ReportReader) : Text :=
  "ReportParser \x7b matchers: ".toList ++
    describeList (r.matchers.map fun m => Text.quoted m.name) ++
    ", severities: ".toList ++ r.severities.describe ++
    ", fallback: ".toList ++ describeBool r.fallback ++ " \x7d".toList

/-- A converter in words. -/
def Converter.describe (c : Converter) : Text :=
  "Converter \x7b parser: ".toList ++ c.reader.describe ++
    ", pretty: ".toList ++ describeBool c.pretty ++
    ", information_uri: ".toList ++
    (match c.informationUri with
      | some uri => "Some(".toList ++ Text.quoted uri ++ [')']
      | none => "None".toList) ++ " \x7d".toList

end LintFindings
