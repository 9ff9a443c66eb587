/-
The built-in formats.

Each format has a name and some other names, and a matcher.
-/
import LintFindings.Format.Gnu
import LintFindings.Format.Compact
import LintFindings.Format.Diagnostic

namespace LintFindings

/-- The formats that lines are recognized in without any configuration. -/
inductive Format where
  | gnu
  | compact
  | diagnostic
  deriving DecidableEq, Repr

namespace Format

/-- All formats, in the order in which they are tried. -/
def all : List Format := [gnu, compact, diagnostic]

/-- Recognizes the lines of a format. -/
def matcher : Format → Matcher
  | gnu => Gnu.matcher
  | compact => Compact.matcher
  | diagnostic => Diagnostic.matcher

/-- The name of a format. -/
def name (f : Format) : Text := f.matcher.name

/-- The names that a format is known by, in normal form. -/
def spellings : List (Text × Format) :=
  [("gnu", gnu), ("errorformat", gnu), ("compact", compact), ("eslint", compact),
    ("stylelint", compact), ("rustc-json", diagnostic), ("rustc", diagnostic),
    ("clippy", diagnostic)].map fun (n, f) => (n.toList, f)

/-- The format of a name, in any ASCII case and between any blanks. -/
def ofName? (t : Text) : Option Format := spellings.lookup (Text.normalize t)

end Format

end LintFindings
