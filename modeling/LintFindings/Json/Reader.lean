/-
Reading JSON texts.

`Json.read?` accepts exactly the grammar of JSON.  Escapes are first read as
single characters and sixteen-bit units, and `joinUnits` makes characters of
pairs of surrogates.  How deep values may nest, and whether numbers and strings
inside them mean something, is left to those who use the value.
-/
import LintFindings.Json.Value
import LintFindings.Text.Hex

namespace LintFindings.Json

/-- The blanks that may stand between the parts of a value. -/
def isGap (c : Char) : Bool := c == ' ' || c == '\n' || c == '\t' || c == '\r'

/-- Without the blanks at its beginning. -/
def skipGap (t : Text) : Text := t.dropWhile isGap

/-! ### Strings -/

/-- What a string is written with: characters, and units given by four hexadecimal digits. -/
inductive Piece where
  | char (c : Char)
  | unit (n : Nat)
  deriving DecidableEq, Repr

/-- The character behind a backslash and a single letter or sign. -/
def escaped? : Char → Option Char
  | '"' => some '"'
  | '\\' => some '\\'
  | '/' => some '/'
  | 'b' => some '\x08'
  | 'f' => some '\x0c'
  | 'n' => some '\n'
  | 'r' => some '\r'
  | 't' => some '\t'
  | _ => none

/-- The pieces of a string up to its closing quote, and what follows it. -/
def readPieces : Text → Option (List Piece × Text)
  | [] => none
  | '"' :: t => some ([], t)
  | '\\' :: 'u' :: a :: b :: c :: d :: t => do
    let n ← Text.hexNumber? [a, b, c, d]
    let (ps, rest) ← readPieces t
    some (.unit n :: ps, rest)
  | '\\' :: e :: t => do
    let c ← escaped? e
    let (ps, rest) ← readPieces t
    some (.char c :: ps, rest)
  | c :: t =>
    if c.toNat < 0x20 ∨ c = '\\' then none
    else do
      let (ps, rest) ← readPieces t
      some (.char c :: ps, rest)

/-- The units that begin a surrogate pair. -/
def isHighUnit (n : Nat) : Bool := 0xD800 ≤ n && n ≤ 0xDBFF

/-- The units that end a surrogate pair. -/
def isLowUnit (n : Nat) : Bool := 0xDC00 ≤ n && n ≤ 0xDFFF

/-- The text of a string's pieces, unless half of a surrogate pair stands alone in it. -/
def joinUnits : List Piece → Option Text
  | [] => some []
  | .char c :: ps => (joinUnits ps).map (c :: ·)
  | .unit n :: ps =>
    if isHighUnit n then
      match ps with
      | .unit m :: ps =>
        if isLowUnit m then
          (joinUnits ps).map (Char.ofNat (0x10000 + (n - 0xD800) * 0x400 + (m - 0xDC00)) :: ·)
        else none
      | _ => none
    else if isLowUnit n then none
    else (joinUnits ps).map (Char.ofNat n :: ·)

/-- A string behind its opening quote, and what follows it. -/
def readString (t : Text) : Option (Option Text × Text) :=
  (readPieces t).map fun (ps, rest) => (joinUnits ps, rest)

/-! ### Numbers -/

/-- One or more digits, and what follows them. -/
def readDigits (t : Text) : Option (Text × Text) :=
  match t.takeWhile Char.isDigit with
  | [] => none
  | ds => some (ds, t.dropWhile Char.isDigit)

/-- A whole part: zero, or digits that do not begin with one. -/
def readWhole (t : Text) : Option (Nat × Text) := do
  let (ds, rest) ← readDigits t
  if ds.head? = some '0' ∧ ds ≠ ['0'] then none else some (Text.digitsValue ds, rest)

/-- A fraction, if a point follows. -/
def readFraction : Text → Option (Option Text × Text)
  | '.' :: t => (readDigits t).map fun (ds, rest) => (some ds, rest)
  | t => some (none, t)

/-- Whether a minus sign stands first, and what follows it. -/
def readSign : Text → Bool × Text
  | '-' :: t => (true, t)
  | t => (false, t)

/-- Whether an exponent is negative, and what follows its sign. -/
def readExponentSign : Text → Bool × Text
  | '+' :: t => (false, t)
  | t => readSign t

/-- An exponent, if the letter for one follows. -/
def readExponent : Text → Option (Option Int × Text)
  | [] => some (none, [])
  | c :: t =>
    if c = 'e' ∨ c = 'E' then
      let (negative, t) := readExponentSign t
      (readDigits t).map fun (ds, rest) =>
        let e : Int := Text.digitsValue ds
        (some (if negative then -e else e), rest)
    else some (none, c :: t)

/-- A number, and what follows it. -/
def readNumber (t : Text) : Option (Number × Text) := do
  let (negative, t) := readSign t
  let (whole, t) ← readWhole t
  let (fraction, t) ← readFraction t
  let (exponent, t) ← readExponent t
  some (⟨negative, whole, fraction, exponent⟩, t)

/-! ### Values -/

mutual

/-- A value, with any blanks before it, and what follows it; `fuel` bounds the steps. -/
def readValue : (fuel : Nat) → Text → Option (Json × Text)
  | 0, _ => none
  | fuel + 1, t =>
    match skipGap t with
    | 'n' :: 'u' :: 'l' :: 'l' :: t => some (.null, t)
    | 't' :: 'r' :: 'u' :: 'e' :: t => some (.bool true, t)
    | 'f' :: 'a' :: 'l' :: 's' :: 'e' :: t => some (.bool false, t)
    | '"' :: t => (readString t).map fun (s, t) => (.string s, t)
    | '[' :: t =>
      match skipGap t with
      | ']' :: t => some (.array [], t)
      | t => (readItems fuel t).map fun (vs, t) => (.array vs, t)
    | '{' :: t =>
      match skipGap t with
      | '}' :: t => some (.object [], t)
      | t => (readMembers fuel t).map fun (ms, t) => (.object ms, t)
    | t => (readNumber t).map fun (n, t) => (.number n, t)

/-- The items of an array from one of them on, up to the closing bracket. -/
def readItems : (fuel : Nat) → Text → Option (List Json × Text)
  | 0, _ => none
  | fuel + 1, t => do
    let (v, t) ← readValue fuel t
    match skipGap t with
    | ',' :: t => (readItems fuel t).map fun (vs, t) => (v :: vs, t)
    | ']' :: t => some ([v], t)
    | _ => none

/-- The members of an object from one of them on, up to the closing brace. -/
def readMembers : (fuel : Nat) → Text → Option (List (Option Text × Json) × Text)
  | 0, _ => none
  | fuel + 1, t =>
    match skipGap t with
    | '"' :: t => do
      let (name, t) ← readString t
      match skipGap t with
      | ':' :: t => do
        let (v, t) ← readValue fuel t
        match skipGap t with
        | ',' :: t => (readMembers fuel t).map fun (ms, t) => ((name, v) :: ms, t)
        | '}' :: t => some ([(name, v)], t)
        | _ => none
      | _ => none
    | _ => none

end

/-- The value that a text is, with any blanks around it.  A step takes at least one character
or goes one level down, so twice the length bounds their number. -/
def read? (t : Text) : Option Json := do
  let (v, rest) ← readValue (2 * t.length + 2) t
  if skipGap rest = [] then some v else none

end LintFindings.Json
