/-
Configurations in files.

`Config.load` reads a configuration from a file and `Config.save` writes one to
a file.
-/
import LintFindings.Config.Writer
import LintFindings.FileTree
import LintFindings.Text.Utf8

namespace LintFindings.Config

variable {m : Type → Type} [Monad m]

/-- The configuration in the bytes of a file. -/
def ofBytes (path : Text) (bytes : List UInt8) : Except Error Config :=
  match Utf8.decode? bytes with
  | none => .error (.fileRead path .notText)
  | some t => Config.ofText t

/-- The configuration in a file. -/
def load (files : FileOps m) (path : Text) : m (Except Error Config) := do
  match ← files.read path with
  | .error failure => return .error (.fileRead path failure)
  | .ok bytes => return ofBytes path bytes

/-- Writes a configuration to a file. -/
def save (files : FileOps m) (path : Text) (c : Config) : m (Except Error Unit) := do
  return (← files.write path (Utf8.encode c.write)).mapError (.fileWrite path)

end LintFindings.Config
