/-
Reading TOML documents.

A document is read statement by statement; `Toml.read?` then carries them out.
Arrays, inline tables and dotted keys may be nested to a limit.
-/
import LintFindings.Toml.Quoting
import LintFindings.Toml.Scalar
import LintFindings.Toml.Table

namespace LintFindings.Toml

/-- How deep values may be nested, and how many parts a key may have. -/
def maxNesting : Nat := 79

/-- A key by its parts, with blanks around them, and what follows it. -/
def readKey : (fuel : Nat) → Text → Option (List Text × Text)
  | 0, _ => none
  | fuel + 1, t => do
    let (part, t) ← readSimpleKey (skipGap t)
    match skipGap t with
    | '.' :: t => (readKey fuel t).map fun (parts, rest) => (part :: parts, rest)
    | t => if fuel = 0 then none else some ([part], t)

/-- What follows a comment, if there is one at the beginning. -/
def afterComment? : Text → Option Text
  | '#' :: t => some (t.dropWhile isPlain)
  | t => some t

/-- What follows the rest of a line that is blank or a comment: another line or nothing. -/
def afterLine? (t : Text) : Option Text := do
  match ← afterComment? (skipGap t) with
  | [] => some []
  | t => afterBreak? t

/-- Without the blanks, line breaks and comments that may stand in arrays. -/
def skipLines : (fuel : Nat) → Text → Option Text
  | 0, _ => none
  | fuel + 1, t =>
    match skipGap t with
    | '#' :: t => afterBreak? (t.dropWhile isPlain) >>= skipLines fuel
    | '\n' :: t => skipLines fuel t
    | '\r' :: '\n' :: t => skipLines fuel t
    | t => some t

mutual

/-- A value, and what follows it; `level` counts the arrays and tables around it. -/
def readValue : (fuel : Nat) → (level : Nat) → Text → Option (Toml × Text)
  | 0, _, _ => none
  | fuel + 1, level, t =>
    match t with
    | '"' :: _ | '\'' :: _ => (readString t).map fun (s, t) => (.string s, t)
    | 't' :: 'r' :: 'u' :: 'e' :: t => some (.boolean true, t)
    | 'f' :: 'a' :: 'l' :: 's' :: 'e' :: t => some (.boolean false, t)
    | '[' :: t =>
      if level < maxNesting then (readItems fuel (level + 1) t).map fun (vs, t) => (.array vs, t)
      else none
    | '{' :: t =>
      if level < maxNesting then do
        let (entries, t) ← readEntries fuel (level + 1) true t
        (inlineTable? entries).map (·, t)
      else none
    | t => readNumber t

/-- The items of an array up to its closing bracket. -/
def readItems : (fuel : Nat) → (level : Nat) → Text → Option (List Toml × Text)
  | 0, _, _ => none
  | fuel + 1, level, t => do
    match ← skipLines (t.length + 1) t with
    | ']' :: t => some ([], t)
    | t =>
      let (v, t) ← readValue fuel level t
      match ← skipLines (t.length + 1) t with
      | ',' :: t => (readItems fuel level t).map fun (vs, t) => (v :: vs, t)
      | ']' :: t => some ([v], t)
      | _ => none

/-- The entries of an inline table up to its closing brace; the first of them may be missing. -/
def readEntries : (fuel : Nat) → (level : Nat) → (first : Bool) → Text →
    Option (List (List Text × Toml) × Text)
  | 0, _, _, _ => none
  | fuel + 1, level, first, t =>
    match skipGap t with
    | '}' :: t => if first then some ([], t) else none
    | t => do
      let (key, t) ← readKey (maxNesting + 1) t
      let t ← Text.after? ['='] t
      let (v, t) ← readValue fuel level (skipGap t)
      match skipGap t with
      | ',' :: t => (readEntries fuel level false t).map fun (es, t) => ((key, v) :: es, t)
      | '}' :: t => some ([(key, v)], t)
      | _ => none

end

/-- A statement at the beginning of a line that is not blank, and the lines that follow. -/
def readStatement (t : Text) : Option (Statement × Text) :=
  match t with
  | '[' :: '[' :: t => do
    let (name, t) ← readKey (maxNesting + 1) t
    let t ← Text.after? "]]".toList t
    (afterLine? t).map (.openItem name, ·)
  | '[' :: t => do
    let (name, t) ← readKey (maxNesting + 1) t
    let t ← Text.after? [']'] t
    (afterLine? t).map (.openTable name, ·)
  | t => do
    let (key, t) ← readKey (maxNesting + 1) t
    let t ← Text.after? ['='] t
    let (v, t) ← readValue (2 * t.length + 2) 0 (skipGap t)
    (afterLine? t).map (.entry key v, ·)

/-- The statements of a document. -/
def readStatements : (fuel : Nat) → Text → Option (List Statement)
  | 0, _ => none
  | fuel + 1, t =>
    match skipGap t with
    | [] => some []
    | '#' :: t => afterLine? ('#' :: t) >>= readStatements fuel
    | '\n' :: t => readStatements fuel t
    | '\r' :: '\n' :: t => readStatements fuel t
    | t => do
      let (s, t) ← readStatement t
      (readStatements fuel t).map (s :: ·)

/-- The entries of the document that a text is.  A byte order mark may stand in front. -/
def read? (t : Text) : Option (List (Text × Toml)) :=
  let t := match t with
    | '\uFEFF' :: t => t
    | t => t
  readStatements (t.length + 1) t >>= ofStatements?

end LintFindings.Toml
