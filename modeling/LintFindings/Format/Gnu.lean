/-
The format of compilers.

A line of it reads `file:1:2: severity: CODE [*] message (rule)`.  Of this only
the file, the line number and the message are needed.  The column, the
severity, the code and the trailing rule are taken wherever they can be, in
this order, as long as something is left for the message.
-/
import LintFindings.Format.Located
import LintFindings.Severity
import LintFindings.Unicode.Folding

namespace LintFindings.Gnu

/-! ### The pattern -/

/-- Puts a word in front of the first that is shorter, or as long and later in the order of
texts. -/
def insertWord (word : Text) : List Text → List Text
  | [] => [word]
  | other :: words =>
    if other.length < word.length ∨ (other.length = word.length ∧ word.before other) then
      word :: other :: words
    else other :: insertWord word words

/-- The known severities, the longer ones first, so that `error` wins over `err`. -/
def words : List Text := (Severity.knownTokens.map Prod.fst).foldr insertWord []

/-- The format as a regular expression. -/
def pattern : Text :=
  r"^(?P<file>[^\s:]*[^\s:0-9][^\s:]*):(?P<line>\d+)(?::(?P<col>\d+))?:\s*(?:(?P<severity>(?i:".toList ++
    ['|'].intercalate words ++
    r"))\s*:\s*)?(?:(?P<code>[A-Z]+[0-9]+):?\s+(?:\[\*\]\s+)?)?".toList ++
    r"(?P<message>.+?)(?:\s+[(\[](?P<rule>[\w./@:=-]+)[)\]])?$".toList

/-! ### The parts of a line -/

/-- What stands before the message: nothing is known yet of the severity and the code. -/
structure Front where
  severity : Option Text
  code : Option Text

/-- The message of a line, with what was found before and after it. -/
structure Body where
  severity : Option Text
  code : Option Text
  rule : Option Text
  message : Text
  deriving DecidableEq, Repr

/-- The characters that a trailing rule may have. -/
def isRuleChar (c : Char) : Bool := Unicode.isWordChar c || "./@:=-".toList.contains c

/-- Cuts a trailing rule in brackets, with blanks before it, off a text.  Something must be
left; the brackets need not be of one kind. -/
def cutRule? (t : Text) : Option (Text × Text) :=
  match t.reverse with
  | close :: back =>
    if close = ')' ∨ close = ']' then
      match back.takeWhile isRuleChar, back.dropWhile isRuleChar with
      | _ :: _, opening :: blank :: front =>
        let message := Text.trimEnd front.reverse
        if (opening = '(' ∨ opening = '[') ∧ isBlank blank ∧ message ≠ [] then
          some (message, (back.takeWhile isRuleChar).reverse)
        else none
      | _, _ => none
    else none
  | [] => none

/-- The message of a line and its trailing rule.  The text does not begin with a blank. -/
def message? (front : Front) (t : Text) : Option Body :=
  let (message, rule) := match cutRule? t with
    | some (message, rule) => (message, some rule)
    | none => (t, none)
  if message = [] ∨ message.contains '\n' then none
  else some { severity := front.severity, code := front.code, rule, message }

/-- Goes on behind any blanks.  Where nothing follows them, the last of them is the message,
if it is no line feed. -/
def afterBlanks? (front : Front) (next? : Text → Option Body) (t : Text) : Option Body :=
  match t.dropWhile isBlank with
  | [] =>
    match t.getLast? with
    | some c => if c = '\n' then none else message? front [c]
    | none => none
  | rest => next? rest

/-- What follows a blank. -/
def afterBlank? : Text → Option Text
  | c :: t => if isBlank c then some t else none
  | [] => none

/-- A code, capital letters and then digits, and what follows it, its colon and a blank. -/
def code? (t : Text) : Option (Text × Text) :=
  let letters := t.takeWhile Char.isUpper
  let t := t.dropWhile Char.isUpper
  let digits := t.takeWhile Char.isDigit
  let t := t.dropWhile Char.isDigit
  let t := match t with
    | ':' :: t => t
    | t => t
  if letters = [] ∨ digits = [] then none
  else (afterBlank? t).map fun t => (letters ++ digits, t)

/-- What follows the mark of a rule that can be fixed, and a blank. -/
def afterMark? (t : Text) : Option Text := (Text.after? "[*]".toList t).bind afterBlank?

/-- A message behind a code and, where it is written, the mark. -/
def marked? (front : Front) (t : Text) : Option Body :=
  ((afterMark? t).bind (afterBlanks? front (message? front))).or (message? front t)

/-- A message, with or without a code before it. -/
def coded? (severity : Option Text) (t : Text) : Option Body :=
  ((code? t).bind fun (code, t) =>
    let front := ⟨severity, some code⟩
    afterBlanks? front (marked? front) t).or (message? ⟨severity, none⟩ t)

/-- A known severity and what follows it and its colon.  Any case variant of its letters
counts. -/
def severity? (t : Text) : Option (Text × Text) :=
  let inWord := fun c => c != ':' && !isBlank c
  let word := t.takeWhile inWord
  match (t.dropWhile inWord).dropWhile isBlank with
  | ':' :: rest =>
    if (Severity.knownTokens.map Prod.fst).contains (word.map Unicode.foldCase) then
      some (word, rest)
    else none
  | _ => none

/-- What follows the location, behind its blanks. -/
def body? (t : Text) : Option Body :=
  ((severity? t).bind fun (severity, t) =>
    afterBlanks? ⟨some severity, none⟩ (coded? (some severity)) t).or (coded? none t)

/-- What follows the location. -/
def rest? (t : Text) : Option Body := afterBlanks? ⟨none, none⟩ body? t

/-- A column and its colons, and what follows. -/
def column? : Text → Option (Text × Text)
  | ':' :: t =>
    match Text.digitRun? t with
    | some (column, ':' :: t) => some (column, t)
    | _ => none
  | _ => none

/-- Whether a text names a file: it has no blank, and not only digits. -/
def isFile (t : Text) : Bool := t.all (!isBlank ·) && t.any (!Char.isDigit ·)

/-- The pieces of a line. -/
def pieces? (t : Text) : Option Located :=
  let file := t.takeWhile (· != ':')
  if !isFile file then none
  else
    match t.dropWhile (· != ':') with
    | ':' :: t =>
      (Text.digitRun? t).bind fun (line, t) =>
        let located := fun (column : Option Text) (b : Body) =>
          { file, line, column, severity := b.severity, code := b.code, rule := b.rule
            message := b.message : Located }
        ((column? t).bind fun (column, t) => (rest? t).map (located (some column))).or
          (match t with
            | ':' :: t => (rest? t).map (located none)
            | _ => none)
    | _ => none

/-- Recognizes the lines that compilers write. -/
def matcher : Matcher := ⟨"gnu".toList, fun t => pieces? t >>= Located.lineMatch?⟩

end LintFindings.Gnu
