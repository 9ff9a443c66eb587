/-
Severities, and the words that name them.

A linter names the severity of a line in its own words.  `Severity.ofToken`
knows the usual ones and takes every other word for a warning; a
`SeverityTable` puts configured words in front of them.
-/
import LintFindings.Text.Table

namespace LintFindings

/-- How serious a finding is, whatever the linter calls it. -/
inductive Severity where
  | error
  | warning
  | note
  | none
  deriving DecidableEq, Repr

namespace Severity

/-- The name of a severity, as written in every file format. -/
def name : Severity → Text
  | error => "error".toList
  | warning => "warning".toList
  | note => "note".toList
  | none => "none".toList

/-- The severity of a name. -/
def ofName? (t : Text) : Option Severity :=
  [error, warning, note, none].find? (·.name = t)

/-- The words that are read as severities in free text, each with its meaning. -/
def knownTokens : List (Text × Severity) :=
  [("error", error), ("err", error), ("fatal", error), ("critical", error), ("failure", error),
    ("warning", warning), ("warn", warning), ("note", note), ("info", note),
    ("information", note), ("help", note), ("hint", note), ("notice", note),
    ("suggestion", note)].map fun (w, s) => (w.toList, s)

/-- The severity that a word names, in any ASCII case and between any blanks; a warning, if it
is not a known one. -/
def ofToken (token : Text) : Severity :=
  (knownTokens.lookup (Text.normalize token)).getD warning

end Severity

/-- Configured words for severities, in normal form. -/
structure SeverityTable where
  aliases : TextMap Severity
  deriving DecidableEq, Repr

namespace SeverityTable

/-- No words but the known ones. -/
def plain : SeverityTable := ⟨.empty⟩

/-- The table of a list of words; words with one normal form are one word, and the last of them
counts. -/
def ofAliases (aliases : List (Text × Severity)) : SeverityTable :=
  ⟨TextMap.ofPairs (aliases.map fun (token, s) => (Text.normalize token, s))⟩

/-- The severity of a line: a warning if it names none, else what the table says, else the
known meaning of the word. -/
def resolve (table : SeverityTable) : Option Text → Severity
  | none => .warning
  | some token => (table.aliases.lookup (Text.normalize token)).getD (.ofToken token)

end SeverityTable

end LintFindings
