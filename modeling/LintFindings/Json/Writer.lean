/-
Writing JSON texts.

`Json.write` lays a value out on one line or indented; the two differ only in
the blanks between the parts.
-/
import LintFindings.Json.Value
import LintFindings.Text.Hex

namespace LintFindings.Json

/-- The blanks between the parts of a written value. -/
structure Layout where
  /-- Before each item and each closing bracket, by the level of nesting. -/
  gap : Nat → Text
  /-- Between the name and the value of a member. -/
  colon : Text

/-- All on one line, without blanks. -/
def Layout.compact : Layout := ⟨fun _ => [], [':']⟩

/-- One item to a line, indented by two spaces for each level. -/
def Layout.pretty : Layout := ⟨fun level => '\n' :: List.replicate (2 * level) ' ', [':', ' ']⟩

/-- The layout that a truth value chooses. -/
def Layout.ofPretty (pretty : Bool) : Layout := if pretty then .pretty else .compact

/-- A character inside a string. -/
def escape (c : Char) : Text :=
  match c with
  | '"' => ['\\', '"']
  | '\\' => ['\\', '\\']
  | '\x08' => ['\\', 'b']
  | '\x0c' => ['\\', 'f']
  | '\n' => ['\\', 'n']
  | '\r' => ['\\', 'r']
  | '\t' => ['\\', 't']
  | c =>
    if c.toNat < 0x20 then
      ['\\', 'u', '0', '0', Text.smallHexDigit (c.toNat / 16), Text.smallHexDigit (c.toNat % 16)]
    else [c]

/-- A string between quotes.  One that is no text is written as half of a surrogate pair. -/
def writeString : Option Text → Text
  | some t => '"' :: t.flatMap escape ++ ['"']
  | none => ['"', '\\', 'u', 'd', '8', '0', '0', '"']

/-- A fraction behind its point. -/
def writeFraction : Option Text → Text
  | some ds => '.' :: ds
  | none => []

/-- An exponent behind its letter. -/
def writeExponent : Option Int → Text
  | some e => 'e' :: (if e < 0 then ['-'] else []) ++ Text.decimal e.natAbs
  | none => []

/-- A number by its parts. -/
def writeNumber (n : Number) : Text :=
  (if n.negative then ['-'] else []) ++ Text.decimal n.whole ++ writeFraction n.fraction ++
    writeExponent n.exponent

mutual

/-- A value at a level of nesting. -/
def writeAt (l : Layout) (level : Nat) : Json → Text
  | .null => "null".toList
  | .bool true => "true".toList
  | .bool false => "false".toList
  | .number n => writeNumber n
  | .string s => writeString s
  | .array [] => ['[', ']']
  | .array (v :: vs) =>
    '[' :: l.gap (level + 1) ++ writeAt l (level + 1) v ++ writeItems l (level + 1) vs ++
      l.gap level ++ [']']
  | .object [] => ['{', '}']
  | .object ((name, v) :: ms) =>
    '{' :: l.gap (level + 1) ++ writeString name ++ l.colon ++ writeAt l (level + 1) v ++
      writeMembers l (level + 1) ms ++ l.gap level ++ ['}']

/-- Further items, each behind a comma. -/
def writeItems (l : Layout) (level : Nat) : List Json → Text
  | [] => []
  | v :: vs => ',' :: l.gap level ++ writeAt l level v ++ writeItems l level vs

/-- Further members, each behind a comma. -/
def writeMembers (l : Layout) (level : Nat) : List (Option Text × Json) → Text
  | [] => []
  | (name, v) :: ms =>
    ',' :: l.gap level ++ writeString name ++ l.colon ++ writeAt l level v ++
      writeMembers l level ms

end

/-- The text of a value. -/
def write (l : Layout) (v : Json) : Text := writeAt l 0 v

end LintFindings.Json
