/-
TOML values.

Floats and dates are kept as the texts that show them, since nothing is
computed with them.
-/
import LintFindings.Text.Blank

namespace LintFindings

/-- A TOML value.  The entries of a table are in the order in which they were made. -/
inductive Toml where
  | string (t : Text)
  | integer (n : Int)
  | float (shown : Text)
  | boolean (b : Bool)
  | datetime (shown : Text)
  | array (items : List Toml)
  | table (entries : List (Text × Toml))
  deriving Repr

end LintFindings
