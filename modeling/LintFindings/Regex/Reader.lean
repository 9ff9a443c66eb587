/-
Reading regular expressions.

`Regex.read?` reads the text of an expression.  Flags such as `(?i)` count from
where they stand to the end of the enclosing group, across alternatives.  The
reader refuses look-around, references to groups, unknown escapes, group names
that stand twice, and nesting beyond `maxNesting`.

Where Unicode is switched off, only ASCII can be matched by classes: a class
that would hold parts of characters is refused.
-/
import LintFindings.Regex.Syntax
import LintFindings.Text.Hex

namespace LintFindings.RegexReader

/-- The flags in force. -/
structure Flags where
  caseless : Bool
  multiLine : Bool
  dotAll : Bool
  swapGreed : Bool
  unicode : Bool
  crlf : Bool
  verbose : Bool
  deriving DecidableEq, Repr

/-- The flags at the beginning. -/
def Flags.initial : Flags := ⟨false, false, false, false, true, false, false⟩

/-- Sets the flag of a letter. -/
def Flags.set? (f : Flags) (letter : Char) (value : Bool) : Option Flags :=
  match letter with
  | 'i' => some { f with caseless := value }
  | 'm' => some { f with multiLine := value }
  | 's' => some { f with dotAll := value }
  | 'U' => some { f with swapGreed := value }
  | 'u' => some { f with unicode := value }
  | 'R' => some { f with crlf := value }
  | 'x' => some { f with verbose := value }
  | _ => none

/-- What is still to be read, the flags in force, and the group names so far. -/
structure State where
  rest : Text
  flags : Flags
  names : List Text

/-- Reads from the state, or fails. -/
abbrev Reader := StateT State Option

/-- A part of an expression: how deep it is nested, and whether it can be repeated. -/
structure Item where
  regex : Regex
  nesting : Nat
  repeatable : Bool

/-- How deep expressions may be nested. -/
def maxNesting : Nat := 250

/-! ### Characters -/

/-- The next character, if there is one. -/
def peek : Reader (Option Char) := do return (← get).rest.head?

/-- Goes past the next character. -/
def skip : Reader Unit := modify fun s => { s with rest := s.rest.drop 1 }

/-- The next character; there has to be one. -/
def next : Reader Char := do
  match (← get).rest with
  | c :: rest => do
    modify fun s => { s with rest }
    return c
  | [] => failure

/-- Goes past a text if it follows, and says whether it does. -/
def skipIf (t : Text) : Reader Bool := do
  match Text.after? t (← get).rest with
  | some rest => do
    modify fun s => { s with rest }
    return true
  | none => return false

/-- Without blanks and comments at the beginning. -/
def withoutComments : (inComment : Bool) → Text → Text
  | _, [] => []
  | true, c :: t => withoutComments (c != '\n') t
  | false, c :: t =>
    if isBlank c then withoutComments false t
    else if c = '#' then withoutComments true t
    else c :: t

/-- Goes past blanks and comments where they do not count. -/
def skipBlanks : Reader Unit :=
  modify fun s => if s.flags.verbose then { s with rest := withoutComments false s.rest } else s

/-- Goes past the next character and what does not count behind it. -/
def skipOn : Reader Unit := do
  skip
  skipBlanks

/-- The next character where one has to follow. -/
def peekSome : Reader Char := do
  match ← peek with
  | some c => return c
  | none => failure

/-- The characters of what is next that satisfy `p`, with what does not count between them. -/
def takeWhile (p : Char → Bool) : (fuel : Nat) → Reader Text
  | 0 => return []
  | fuel + 1 => do
    match ← peek with
    | some c =>
      if p c then do
        skipOn
        return c :: (← takeWhile p fuel)
      else return []
    | none => return []

/-- A bound for the steps that take characters. -/
def remaining : Reader Nat := do return (← get).rest.length + 1

/-! ### Escapes -/

/-- What a backslash and the characters behind it stand for. -/
inductive Escape where
  /-- A character; `byte` if it was written as two hexadecimal digits. -/
  | char (c : Char) (byte : Bool)
  | set (s : CharSet)
  | look (l : Look)

/-- The character with a number. -/
def charOf (n : Nat) : Reader Char := if n.isValidChar then return Char.ofNat n else failure

/-- The character whose number the hexadecimal digits are. -/
def hexChar (ds : Text) : Reader Char :=
  match Text.hexNumber? ds with
  | some n => charOf n
  | none => failure

/-- So many characters, with what does not count between them. -/
def takeChars : Nat → Reader Text
  | 0 => return []
  | n + 1 => do
    let c ← next
    skipBlanks
    return c :: (← takeChars n)

/-- A character by its hexadecimal number, behind the letter `x`, `u` or `U`. -/
def hexEscape (letter : Char) : Reader Escape := do
  skipBlanks
  if (← peekSome) = '{' then do
    skipOn
    let ds ← takeWhile (· != '}') (← remaining)
    if (← peek) ≠ some '}' then failure
    skipOn
    if ds = [] then failure
    return .char (← hexChar ds) false
  else do
    let width := if letter = 'x' then 2 else if letter = 'u' then 4 else 8
    let ds ← takeChars width
    return .char (← hexChar ds) (letter = 'x')

/-- A set, or all that is not in it, as the flags allow it. -/
def setEscape (negated : Bool) (s : CharSet) : Reader Escape := do
  if !negated then return .set s
  else if (← get).flags.unicode then return .set (.compl s)
  else failure

/-- A property, behind the letter `p` or `P`. -/
def propertyEscape (negated : Bool) : Reader Escape := do
  skipBlanks
  if !(← get).flags.unicode then failure
  let c ← peekSome
  let set? ← do
    if c = '{' then do
      skipOn
      let name ← takeWhile (· != '}') (← remaining)
      if (← peek) ≠ some '}' then failure
      skip
      let isMark := fun c => c == '!' || c == ':' || c == '='
      let key := name.takeWhile fun c => !isMark c
      match name.dropWhile fun c => !isMark c with
      | '!' :: '=' :: value => pure ((CharSet.propertyValue? key value).map .compl)
      | ':' :: value | '=' :: value => pure (CharSet.propertyValue? key value)
      | _ => pure (CharSet.property? name)
    else do
      skip
      pure (CharSet.property? [c])
  match set? with
  | some s => setEscape negated (if (← get).flags.caseless then .folded s else s)
  | none => failure

/-- The characters with a meaning of their own, which a backslash takes away. -/
def isMeta (c : Char) : Bool := "\\.+*?()|[]\x7b\x7d^$#&-~".toList.contains c

/-- The word boundaries that are named in braces. -/
def namedBoundary? (ascii : Bool) (name : Text) : Option Look :=
  ([("start", .wordStart ascii), ("end", .wordEnd ascii), ("start-half", .halfWordStart ascii),
    ("end-half", .halfWordEnd ascii)].map fun (n, l) => (n.toList, l)).lookup name

/-- A word boundary, behind the letter `b`; braces with letters in them name a kind of it, other
braces are a repetition. -/
def boundary : Reader Escape := do
  let ascii := !(← get).flags.unicode
  let isLetter := fun c : Char => c.isAlpha || c == '-'
  if (← peek) = some '{' then
    let start ← get
    skipOn
    if isLetter (← peekSome) then do
      let name ← takeWhile isLetter (← remaining)
      if (← peek) ≠ some '}' then failure
      skip
      match namedBoundary? ascii name with
      | some l => return .look l
      | none => failure
    else do
      set start
      return .look (.wordBoundary ascii)
  else return .look (.wordBoundary ascii)

/-- What stands behind a backslash. -/
def escape : Reader Escape := do
  let flags := (← get).flags
  let ascii := !flags.unicode
  let c ← next
  match c with
  | 'x' | 'u' | 'U' => hexEscape c
  | 'p' => propertyEscape false
  | 'P' => propertyEscape true
  | 'd' => setEscape false (if ascii then CharSet.asciiDigit else .digit)
  | 'D' => setEscape true (if ascii then CharSet.asciiDigit else .digit)
  | 's' => setEscape false (if ascii then CharSet.asciiBlank else .blank)
  | 'S' => setEscape true (if ascii then CharSet.asciiBlank else .blank)
  | 'w' => setEscape false (if ascii then CharSet.asciiWord else .word)
  | 'W' => setEscape true (if ascii then CharSet.asciiWord else .word)
  | 'a' => return .char '\x07' false
  | 'f' => return .char '\x0c' false
  | 't' => return .char '\t' false
  | 'n' => return .char '\n' false
  | 'r' => return .char '\r' false
  | 'v' => return .char '\x0b' false
  | 'A' => return .look .textStart
  | 'z' => return .look .textEnd
  | 'b' => boundary
  | 'B' => return .look (.noWordBoundary ascii)
  | '<' => return .look (.wordStart ascii)
  | '>' => return .look (.wordEnd ascii)
  | c => if isMeta c || (c.toNat < 0x80 && !c.isAlphanum) then return .char c false else failure

/-! ### Bracketed classes -/

/-- Adds the case variants that the flags ask for. -/
def fold (flags : Flags) (s : CharSet) : CharSet :=
  if !flags.caseless then s else if flags.unicode then .folded s else .asciiFolded s

/-- An element of a class: a character or a set. -/
def classElement : Reader (Char ⊕ CharSet) := do
  let flags := (← get).flags
  let c ← next
  if c = '\\' then
    match ← escape with
    | .char c _ => if !flags.unicode ∧ 0x80 ≤ c.toNat then failure else return .inl c
    | .set s => return .inr s
    | .look _ => failure
  else if !flags.unicode ∧ 0x80 ≤ c.toNat then failure
  else return .inl c

/-- An element of a class, or a range between two characters. -/
def classRange : Reader CharSet := do
  let first ← classElement
  skipBlanks
  let dash ← peekSome
  let verbose := (← get).flags.verbose
  let behind := (← get).rest.drop 1
  let behind := (if verbose then withoutComments false behind else behind).head?
  let alone := match first with
    | .inl c => CharSet.single c
    | .inr s => s
  if dash ≠ '-' ∨ behind = some ']' ∨ behind = some '-' then return alone
  else do
    skipOn
    let _ ← peekSome
    match first, ← classElement with
    | .inl a, .inl b => if a.toNat ≤ b.toNat then return .range a.toNat b.toNat else failure
    | _, _ => failure

/-- An ASCII class by name, where one follows. -/
def asciiClass? : Reader (Option CharSet) := do
  let s ← get
  match Text.after? "[:".toList s.rest with
  | none => return none
  | some rest =>
    let (negated, rest) := match rest with
      | '^' :: rest => (true, rest)
      | rest => (false, rest)
    let name := rest.takeWhile (· != ':')
    match Text.after? ":]".toList (rest.dropWhile (· != ':')), CharSet.ascii? name with
    | some rest, some set =>
      if negated ∧ !s.flags.unicode then failure
      else do
        modify fun s => { s with rest }
        let set := fold s.flags set
        return some (if negated then .compl set else set)
    | _, _ => return none

/-- The operations on sets. -/
inductive SetOp where
  | inter
  | diff
  | symmDiff

/-- The set that an operation makes. -/
def SetOp.apply : SetOp → CharSet → CharSet → CharSet
  | inter => .inter
  | diff => CharSet.diff
  | symmDiff => CharSet.symmDiff

/-- The operands of a class so far: the result of the operations before, and the elements
since, with how deep both are nested. -/
structure ClassState where
  done : Option (SetOp × CharSet × Nat)
  items : List CharSet
  nesting : Nat

/-- The operand that the elements make, and how deep it is nested. -/
def ClassState.operand (s : ClassState) : CharSet × Nat :=
  (CharSet.unions s.items.reverse, if 2 ≤ s.items.length then s.nesting + 1 else s.nesting)

/-- The set of all operands, and how deep it is nested. -/
def ClassState.close (flags : Flags) (s : ClassState) : CharSet × Nat :=
  let (set, nesting) := s.operand
  match s.done with
  | none => (set, nesting)
  | some (op, left, leftNesting) =>
    (op.apply (fold flags left) (fold flags set), max leftNesting nesting + 1)

/-- Adds an element. -/
def ClassState.add (s : ClassState) (set : CharSet) (nesting : Nat) : ClassState :=
  { s with items := set :: s.items, nesting := max s.nesting nesting }

/-- Hyphens at the beginning of a class, which stand for themselves. -/
def leadingHyphens : (fuel : Nat) → Reader (List CharSet)
  | 0 => return []
  | fuel + 1 => do
    if (← peekSome) = '-' then do
      skipOn
      return .single '-' :: (← leadingHyphens fuel)
    else return []

mutual

/-- A class behind its opening bracket, and how deep it is nested. -/
def bracketed : (fuel : Nat) → Reader (CharSet × Nat)
  | 0 => failure
  | fuel + 1 => do
    let flags := (← get).flags
    skipBlanks
    let negated := (← peekSome) = '^'
    if negated then skipOn
    let hyphens ← leadingHyphens (← remaining)
    let items ← do
      if hyphens = [] ∧ (← peekSome) = ']' then do
        skipOn
        let _ ← peekSome
        pure [CharSet.single ']']
      else pure hyphens
    let (set, nesting) ← elements fuel flags ⟨none, items, 0⟩
    if negated ∧ !flags.unicode then failure
    let set := fold flags set
    return (if negated then .compl set else set, nesting + 1)

/-- The elements of a class up to its closing bracket. -/
def elements : (fuel : Nat) → Flags → ClassState → Reader (CharSet × Nat)
  | 0, _, _ => failure
  | fuel + 1, flags, s => do
    skipBlanks
    let operator := fun op => do
      let (set, nesting) := s.close flags
      elements fuel flags ⟨some (op, set, nesting), [], 0⟩
    match ← peek with
    | none => failure
    | some ']' => do
      skip
      return s.close flags
    | some '[' => do
      match ← asciiClass? with
      | some set => elements fuel flags (s.add set 0)
      | none => do
        skip
        let (set, nesting) ← bracketed fuel
        elements fuel flags (s.add set nesting)
    | some _ => do
      if ← skipIf "&&".toList then operator .inter
      else if ← skipIf "--".toList then operator .diff
      else if ← skipIf "~~".toList then operator .symmDiff
      else elements fuel flags (s.add (← classRange) 0)

end

/-! ### Repetitions -/

/-- A number of times, with any blanks around it. -/
def decimal : Reader (Option Nat) := do
  let dropBlanks : Reader Unit := modify fun s => { s with rest := s.rest.dropWhile isBlank }
  dropBlanks
  let ds ← takeWhile Char.isDigit (← remaining)
  dropBlanks
  skipBlanks
  if ds = [] then return none
  else
    let n := Nat.ofDigitChars 10 ds 0
    if n < UInt32.size then return some n else failure

/-- The bounds of a repetition, behind the opening brace. -/
def bounds : Reader (Nat × Option Nat) := do
  skipBlanks
  let _ ← peekSome
  let first ← decimal
  let range ← do
    if (← peekSome) ≠ ',' then
      match first with
      | some n => pure (n, some n)
      | none => failure
    else do
      skipOn
      match first with
      | none => failure
      | some n =>
        if (← peekSome) = '}' then pure (n, none)
        else
          match ← decimal with
          | some m => pure (n, some m)
          | none => failure
  if (← peek) ≠ some '}' then failure
  skipOn
  match range with
  | (n, some m) => if n ≤ m then return (n, some m) else failure
  | (n, none) => return (n, none)

/-- Whether a repetition is greedy, after its operator. -/
def greed : Reader Bool := do
  let swap := (← get).flags.swapGreed
  if ← skipIf ['?'] then return swap else return !swap

/-- The repetition of the last item. -/
def repeatLast (items : List Item) (min : Nat) (max : Option Nat) : Reader (List Item) := do
  match items with
  | item :: items =>
    if !item.repeatable then failure
    else do
      let greedy ← greed
      return ⟨.repeated min max greedy item.regex, item.nesting + 1, true⟩ :: items
  | [] => failure

/-! ### Groups and sequences -/

/-- A single character, with its case variants if the flags ask for them. -/
def literal (flags : Flags) (c : Char) : Regex :=
  .set (if !flags.caseless then .single c
    else if !flags.unicode then
      if c.isAlpha then CharSet.union (.single c) (.single (CharSet.otherCase c)) else .single c
    else CharSet.unions ((Unicode.caseVariants c).map .single))

/-- Any character that the flags let a dot stand for. -/
def dot (flags : Flags) : CharSet :=
  if flags.dotAll then .all
  else if flags.crlf then .allBut ['\r', '\n']
  else .allBut ['\n']

/-- The name of a group, up to the closing angle bracket. -/
def groupName : Reader Text := do
  let isNameChar := fun c : Char =>
    c == '_' || c == '.' || c == '[' || c == ']' || Unicode.isAlphanumeric c
  let name := (← get).rest.takeWhile isNameChar
  match name with
  | [] => failure
  | c :: _ =>
    if !(c == '_' || Unicode.isAlphabetic c) then failure
    modify fun s => { s with rest := s.rest.drop name.length }
    if (← next) ≠ '>' then failure
    if (← get).names.contains name then failure
    modify fun s => { s with names := name :: s.names }
    return name

/-- Flags up to the colon or parenthesis behind them: the flags that are then in force, whether
any were written, and the character that ends them. -/
def flagItems : (fuel : Nat) → (seen : List Char) → (flags : Flags) → Reader (Flags × Bool × Char)
  | 0, _, _ => failure
  | fuel + 1, seen, flags => do
    let c ← next
    if c = ':' ∨ c = ')' then
      if seen.head? = some '-' then failure else return (flags, seen ≠ [], c)
    else if seen.contains c then failure
    else if c = '-' then flagItems fuel (c :: seen) flags
    else
      match flags.set? c (!seen.contains '-') with
      | some flags => flagItems fuel (c :: seen) flags
      | none => failure

/-- The items of a sequence as one. -/
def Item.sequence : List Item → Item
  | [] => ⟨.empty, 0, false⟩
  | [item] => item
  | items =>
    ⟨items.foldl (fun r i => .concat i.regex r) .empty,
      (items.map Item.nesting).foldl max 0 + 1, true⟩

/-- Alternatives as one item. -/
def Item.alternatives : List Item → Item
  | [] => ⟨.empty, 0, false⟩
  | [item] => item
  | item :: items =>
    ⟨items.foldl (fun r i => .alt i.regex r) item.regex,
      ((item :: items).map Item.nesting).foldl max 0 + 1, true⟩

mutual

/-- Alternatives up to a closing parenthesis or the end: those done, the last one first, and
the items of the current one, the last one first. -/
def alternation : (fuel : Nat) → (done : List Item) → (items : List Item) → Reader Item
  | 0, _, _ => failure
  | fuel + 1, done, items => do
    skipBlanks
    let flags := (← get).flags
    let add := fun (r : Regex) => alternation fuel done (⟨r, 0, true⟩ :: items)
    match ← peek with
    | none | some ')' => return Item.alternatives (Item.sequence items :: done)
    | some '|' => do
      skip
      alternation fuel (Item.sequence items :: done) []
    | some '(' => do
      skip
      alternation fuel done ((← group fuel) :: items)
    | some '[' => do
      skip
      let (set, nesting) ← bracketed fuel
      alternation fuel done (⟨.set set, nesting, true⟩ :: items)
    | some '?' => do
      skip
      alternation fuel done (← repeatLast items 0 (some 1))
    | some '*' => do
      skip
      alternation fuel done (← repeatLast items 0 none)
    | some '+' => do
      skip
      alternation fuel done (← repeatLast items 1 none)
    | some '{' => do
      skip
      if items = [] then failure
      let (min, max) ← bounds
      alternation fuel done (← repeatLast items min max)
    | some '\\' => do
      skip
      match ← escape with
      | .char c byte =>
        if byte ∧ !flags.unicode ∧ 0x80 ≤ c.toNat then failure else add (literal flags c)
      | .set s => add (.set s)
      | .look l => add (.look l)
    | some '.' => do
      skip
      if flags.unicode then add (.set (dot flags)) else failure
    | some '^' => do
      skip
      add (.look (if !flags.multiLine then .textStart
        else if flags.crlf then .crlfLineStart else .lineStart))
    | some '$' => do
      skip
      add (.look (if !flags.multiLine then .textEnd
        else if flags.crlf then .crlfLineEnd else .lineEnd))
    | some c => do
      skip
      add (literal flags c)

/-- A group or a change of flags, behind the opening parenthesis. -/
def group : (fuel : Nat) → Reader Item
  | 0 => failure
  | fuel + 1 => do
    skipBlanks
    let outer := (← get).flags
    let text := (← get).rest
    if ["?=", "?!", "?<=", "?<!"].any fun t => (Text.after? t.toList text).isSome then failure
    else if (← skipIf "?P<".toList) || (← skipIf "?<".toList) then
      let name ← groupName
      groupBody fuel (some name) outer outer
    else if ← skipIf ['?'] then
      let (flags, written, close) ← flagItems (← remaining) [] outer
      if close = ':' then groupBody fuel none flags outer
      else if written then
        modify fun s => { s with flags }
        return ⟨.empty, 0, false⟩
      else failure
    else groupBody fuel none outer outer

/-- The rest of a group, with the flags inside it and those outside. -/
def groupBody : (fuel : Nat) → Option Text → (inner outer : Flags) → Reader Item
  | 0, _, _, _ => failure
  | fuel + 1, name, inner, outer => do
    modify fun s => { s with flags := inner }
    let item ← alternation fuel [] []
    if (← next) ≠ ')' then failure
    modify fun s => { s with flags := outer }
    return ⟨.group name item.regex, item.nesting + 1, true⟩

end

end LintFindings.RegexReader

namespace LintFindings

/-- The expression that a text is. -/
def Regex.read? (t : Text) : Option Regex := do
  let (item, s) ← RegexReader.alternation (3 * t.length + 3) [] [] ⟨t, .initial, []⟩
  if s.rest = [] ∧ item.nesting ≤ RegexReader.maxNesting then some item.regex else none

end LintFindings
