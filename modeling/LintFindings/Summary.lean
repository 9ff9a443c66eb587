/-
Summaries of runs.

`Run.summary` tells a run to a reader: a heading, one line for each finding and
a closing line with the counts.  With colors on, pieces of it are wrapped in
terminal escape sequences.
-/
import LintFindings.Finding
import LintFindings.Text.Decimal

namespace LintFindings

/-- The looks that a piece of text can be given. -/
inductive Style where
  | bold
  | dimmed
  | boldRed
  | boldYellow
  | boldGreen
  | yellow
  | blue
  deriving DecidableEq, Repr

namespace Style

/-- The escape sequence that turns a style on. -/
def start (s : Style) : Text :=
  let code := match s with
    | bold => "1"
    | dimmed => "2"
    | boldRed => "1;31"
    | boldYellow => "1;33"
    | boldGreen => "1;32"
    | yellow => "33"
    | blue => "34"
  '\x1b' :: '[' :: code.toList ++ ['m']

/-- The escape sequence that turns all styles off. -/
def reset : Text := "\x1b[0m".toList

/-- A text in which the style is turned on again wherever it is turned off. -/
def restart (s : Style) : Text → Text
  | '\x1b' :: '[' :: '0' :: 'm' :: t => reset ++ s.start ++ restart s t
  | c :: t => c :: restart s t
  | [] => []

/-- A text in a style, if colors are on. -/
def paint (s : Style) (colors : Bool) (t : Text) : Text :=
  if colors then s.start ++ restart s t ++ reset else t

end Style

namespace Finding

/-- Where a finding is: its file, and its line and column if it has them. -/
def place (f : Finding) : Text :=
  match f.line, f.column with
  | some line, some column =>
    f.filePath ++ ':' :: Text.decimal line.toNat ++ ':' :: Text.decimal column.toNat
  | some line, none => f.filePath ++ ':' :: Text.decimal line.toNat
  | none, _ => f.filePath

/-- The line of a finding in a summary. -/
def summaryLine (colors : Bool) (f : Finding) : Text :=
  let tag := match f.severity with
    | .error => Style.boldRed.paint colors "ERROR".toList
    | .warning => Style.boldYellow.paint colors "WARN".toList
    | .note => Style.blue.paint colors "NOTE".toList
    | .none => "NONE".toList
  let rule := match f.ruleId with
    | some rule => " (".toList ++ Style.dimmed.paint colors rule ++ [')']
    | none => []
  tag ++ ' ' :: Style.dimmed.paint colors f.place ++ " - ".toList ++ f.message ++ rule ++ ['\n']

end Finding

namespace Run

/-- The first line of a summary. -/
def heading (colors : Bool) (run : Run) : Text :=
  Style.bold.paint colors run.targetLabel ++ " (".toList ++ run.toolName ++ ")\n".toList

/-- The last line of a summary. -/
def closing (colors : Bool) (run : Run) : Text :=
  let errors := run.count .error
  let warnings := run.count .warning
  let ok := Style.boldGreen.paint colors "OK".toList
  if !run.passed then
    Style.boldRed.paint colors (Text.decimal errors) ++ " errors, ".toList ++
      Style.yellow.paint colors (Text.decimal warnings) ++ " warnings\n".toList
  else if 0 < warnings then
    ok ++ ' ' :: Style.yellow.paint colors (Text.decimal warnings) ++ " warnings\n".toList
  else if run.findings = [] then ok ++ " No issues found\n".toList
  else ok ++ ' ' :: Text.decimal run.findings.length ++ " notes\n".toList

/-- A run as text. -/
def summary (colors : Bool) (run : Run) : Text :=
  run.heading colors ++ run.findings.flatMap (Finding.summaryLine colors) ++ run.closing colors

end Run

end LintFindings
