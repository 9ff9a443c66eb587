/-
Writing configurations as TOML.

All settings are written, standard or not: the section on reading, its patterns
as tables of their own, the words for severities and the section on writing.
-/
import LintFindings.Config
import LintFindings.Toml.Quoting

namespace LintFindings.Config

/-- A line with a key and a value. -/
def writeEntry (key value : Text) : Text := Toml.writeKey key ++ " = ".toList ++ value ++ ['\n']

/-- A truth value. -/
def writeBoolean (b : Bool) : Text := (if b then "true" else "false").toList

/-- A list of strings: on one line if there are less than two, else one to a line. -/
def writeStrings : List Text → Text
  | [] => "[]".toList
  | [t] => '[' :: Toml.writeString t ++ [']']
  | ts =>
    "[\n".toList ++ ts.flatMap (fun t => "    ".toList ++ Toml.writeString t ++ ",\n".toList) ++ [']']

/-- A pattern as a table of its own. -/
def writePattern (p : PatternSpec) : Text :=
  "\n[[parser.patterns]]\n".toList ++
    writeEntry "name".toList (Toml.writeString p.name) ++
    writeEntry "regex".toList (Toml.writeString p.regex)

/-- A configuration. -/
def write (c : Config) : Text :=
  "[parser]\n".toList ++
    writeEntry "formats".toList (writeStrings c.formats) ++
    writeEntry "fallback".toList (writeBoolean c.fallback) ++
    (if c.patterns = [] then writeEntry "patterns".toList "[]".toList
      else c.patterns.flatMap writePattern) ++
    "\n[severity.aliases]\n".toList ++
    c.aliases.entries.flatMap (fun (token, s) => writeEntry token (Toml.writeString s.name)) ++
    "\n[output]\n".toList ++
    writeEntry "pretty".toList (writeBoolean c.pretty) ++
    (match c.informationUri with
      | some uri => writeEntry "information_uri".toList (Toml.writeString uri)
      | none => [])

end LintFindings.Config
