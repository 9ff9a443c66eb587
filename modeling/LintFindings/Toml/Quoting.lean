/-
TOML strings and keys.

A string is written in one of four styles, with one or three quotes of either
kind; the first style in which nothing needs an escape is taken.  Reading takes
every style.
-/
import LintFindings.Text.Hex

namespace LintFindings.Toml

/-! ### Reading -/

/-- Control characters. -/
def isControl (c : Char) : Bool := c.toNat < 0x20 || c.toNat == 0x7F

/-- The characters that may stand in strings and comments. -/
def isPlain (c : Char) : Bool := c == '\t' || !isControl c

/-- The blanks within a line. -/
def isGap (c : Char) : Bool := c == ' ' || c == '\t'

/-- Without the blanks at its beginning. -/
def skipGap (t : Text) : Text := t.dropWhile isGap

/-- What follows a line break, if there is one at the beginning. -/
def afterBreak? : Text → Option Text
  | '\n' :: t => some t
  | '\r' :: '\n' :: t => some t
  | _ => none

/-- The character whose number the hexadecimal digits are. -/
def hexChar? (ds : Text) : Option Char := do
  let n ← Text.hexNumber? ds
  if n.isValidChar then some (Char.ofNat n) else none

/-- The character behind a backslash and a single letter or sign. -/
def escaped? : Char → Option Char
  | 'b' => some '\x08'
  | 'f' => some '\x0c'
  | 'n' => some '\n'
  | 'r' => some '\r'
  | 't' => some '\t'
  | '"' => some '"'
  | '\\' => some '\\'
  | _ => none

/-- Puts a character in front of what is read. -/
def cons (c : Char) : Text × Text → Text × Text := fun (s, rest) => (c :: s, rest)

/-- A string behind its opening double quote, and what follows it. -/
def readBasic : Text → Option (Text × Text)
  | [] => none
  | '"' :: t => some ([], t)
  | '\\' :: 'u' :: a :: b :: c :: d :: t => do
    let x ← hexChar? [a, b, c, d]
    (readBasic t).map (cons x)
  | '\\' :: 'U' :: a :: b :: c :: d :: e :: f :: g :: h :: t => do
    let x ← hexChar? [a, b, c, d, e, f, g, h]
    (readBasic t).map (cons x)
  | '\\' :: e :: t => do
    let x ← escaped? e
    (readBasic t).map (cons x)
  | c :: t => if isPlain c ∧ c ≠ '\\' then (readBasic t).map (cons c) else none

/-- A string behind three double quotes, and what follows it.  While `skipping`, blanks and line
breaks do not count. -/
def readMultiBasic : (skipping : Bool) → Text → Option (Text × Text)
  | _, [] => none
  | _, '"' :: '"' :: '"' :: '"' :: '"' :: t => some (['"', '"'], t)
  | _, '"' :: '"' :: '"' :: '"' :: t => some (['"'], t)
  | _, '"' :: '"' :: '"' :: t => some ([], t)
  | _, '\\' :: 'u' :: a :: b :: c :: d :: t => do
    let x ← hexChar? [a, b, c, d]
    (readMultiBasic false t).map (cons x)
  | _, '\\' :: 'U' :: a :: b :: c :: d :: e :: f :: g :: h :: t => do
    let x ← hexChar? [a, b, c, d, e, f, g, h]
    (readMultiBasic false t).map (cons x)
  | _, '\\' :: e :: t =>
    if (afterBreak? (skipGap (e :: t))).isSome then readMultiBasic true t
    else do
      let x ← escaped? e
      (readMultiBasic false t).map (cons x)
  | skipping, '\r' :: '\n' :: t =>
    if skipping then readMultiBasic true t else (readMultiBasic false t).map (cons '\n')
  | skipping, c :: t =>
    if skipping && (isGap c || c == '\n') then readMultiBasic true t
    else if (isPlain c || c == '\n') && c != '\\' then (readMultiBasic false t).map (cons c)
    else none

/-- A string behind its opening single quote, and what follows it. -/
def readLiteral : Text → Option (Text × Text)
  | [] => none
  | '\'' :: t => some ([], t)
  | c :: t => if isPlain c then (readLiteral t).map (cons c) else none

/-- A string behind three single quotes, and what follows it. -/
def readMultiLiteral : Text → Option (Text × Text)
  | [] => none
  | '\'' :: '\'' :: '\'' :: '\'' :: '\'' :: t => some (['\'', '\''], t)
  | '\'' :: '\'' :: '\'' :: '\'' :: t => some (['\''], t)
  | '\'' :: '\'' :: '\'' :: t => some ([], t)
  | '\r' :: '\n' :: t => (readMultiLiteral t).map (cons '\n')
  | c :: t => if isPlain c || c == '\n' then (readMultiLiteral t).map (cons c) else none

/-- Without a line break at its beginning. -/
def dropBreak (t : Text) : Text := (afterBreak? t).getD t

/-- A string in any style, and what follows it. -/
def readString : Text → Option (Text × Text)
  | '"' :: '"' :: '"' :: t => readMultiBasic false (dropBreak t)
  | '"' :: t => readBasic t
  | '\'' :: '\'' :: '\'' :: t => readMultiLiteral (dropBreak t)
  | '\'' :: t => readLiteral t
  | _ => none

/-- The characters of keys that are not quoted. -/
def isBare (c : Char) : Bool := c.isAlphanum || c == '_' || c == '-'

/-- A key without dots, and what follows it. -/
def readSimpleKey (t : Text) : Option (Text × Text) :=
  match t with
  | '"' :: t => readBasic t
  | '\'' :: t => readLiteral t
  | t =>
    match t.takeWhile isBare with
    | [] => none
    | key => some (key, t.dropWhile isBare)

/-! ### Writing -/

/-- The styles of strings. -/
inductive Style where
  | basic
  | literal
  | multiBasic
  | multiLiteral
  deriving DecidableEq, Repr

/-- The length of the longest row of a character. -/
def longestRow (q : Char) : (current : Nat) → Text → Nat
  | current, [] => current
  | current, c :: t => if c = q then longestRow q (current + 1) t else max current (longestRow q 0 t)

/-- Whether a text has control characters other than tabs and line feeds. -/
def needsCodes (t : Text) : Bool := t.any fun c => isControl c && c != '\t' && c != '\n'

/-- The style of a string. -/
def styleOf (t : Text) : Style :=
  let breaks := t.contains '\n'
  let escapes := needsCodes t
  let slashes := t.contains '\\'
  let doubles := longestRow '"' 0 t
  let singles := longestRow '\'' 0 t
  if !escapes && !slashes && doubles = 0 && !breaks then .basic
  else if !escapes && singles = 0 && !breaks then .literal
  else if !escapes && !slashes && doubles ≤ 2 then .multiBasic
  else if !escapes && singles ≤ 2 then .multiLiteral
  else if breaks then .multiBasic
  else .basic

/-- A character other than a quote inside double quotes; a line feed stands for itself in
strings of several lines. -/
def escapeChar (multi : Bool) (c : Char) : Text :=
  match c with
  | '\x08' => ['\\', 'b']
  | '\t' => ['\\', 't']
  | '\n' => if multi then ['\n'] else ['\\', 'n']
  | '\x0c' => ['\\', 'f']
  | '\r' => ['\\', 'r']
  | '\\' => ['\\', '\\']
  | c =>
    if isControl c then
      ['\\', 'u', '0', '0', Text.hexDigit (c.toNat / 16), Text.hexDigit (c.toNat % 16)]
    else [c]

/-- The characters of a string inside double quotes.  After `allowed` quotes in a row, one is
escaped; `row` counts them. -/
def escapeAll (multi : Bool) (allowed : Nat) : (row : Nat) → Text → Text
  | _, [] => []
  | row, c :: t =>
    if c = '"' then
      if row < allowed then '"' :: escapeAll multi allowed (row + 1) t
      else '\\' :: '"' :: escapeAll multi allowed 0 t
    else escapeChar multi c ++ escapeAll multi allowed 0 t

/-- A string in a style. -/
def writeIn (style : Style) (t : Text) : Text :=
  let opening := if t.contains '\n' then ['\n'] else []
  match style with
  | .basic => '"' :: escapeAll false 0 0 t ++ ['"']
  | .literal => '\'' :: t ++ ['\'']
  | .multiBasic => ['"', '"', '"'] ++ opening ++ escapeAll true 2 0 t ++ ['"', '"', '"']
  | .multiLiteral => ['\'', '\'', '\''] ++ opening ++ t ++ ['\'', '\'', '\'']

/-- A string. -/
def writeString (t : Text) : Text := writeIn (styleOf t) t

/-- A key without dots. -/
def writeKey (t : Text) : Text :=
  let escapes := needsCodes t || t.contains '\n'
  if t ≠ [] ∧ t.all isBare then t
  else if !escapes && !t.contains '\\' && !t.contains '"' then writeIn .basic t
  else if !escapes && !t.contains '\'' then writeIn .literal t
  else writeIn .basic t

end LintFindings.Toml
