/-
Texts and their blank margins.

A text is a list of characters.  `isBlank` is the white space of the Unicode
standard; `trim` drops it at both ends, and `trimmed?` keeps a text only when
something is left.  `pieces` cuts a text at separators and `words` at blanks.
-/

namespace LintFindings

/-- A text is the list of its characters. -/
abbrev Text := List Char

/-- The characters that have the property White_Space. -/
def isBlank (c : Char) : Bool :=
  let n := c.toNat
  (9 ≤ n && n ≤ 13) || n == 0x20 || n == 0x85 || n == 0xA0 || n == 0x1680 ||
    (0x2000 ≤ n && n ≤ 0x200A) || n == 0x2028 || n == 0x2029 || n == 0x202F ||
    n == 0x205F || n == 0x3000

namespace Text

/-- Without the blanks at its beginning. -/
def trimStart (t : Text) : Text := t.dropWhile isBlank

/-- Without the blanks at its end. -/
def trimEnd (t : Text) : Text := (t.reverse.dropWhile isBlank).reverse

/-- Without the blanks at both ends. -/
def trim (t : Text) : Text := trimEnd (trimStart t)

/-- The trimmed text, if anything is left of it. -/
def trimmed? (t : Text) : Option Text :=
  match trim t with
  | [] => none
  | u => some u

/-- Puts a character in front of the first piece. -/
def onFirst (c : Char) : List Text → List Text
  | [] => [[c]]
  | p :: ps => (c :: p) :: ps

/-- What stands between the characters that `sep` picks; always at least one piece. -/
def pieces (sep : Char → Bool) (t : Text) : List Text :=
  t.foldr (fun c ps => if sep c then [] :: ps else onFirst c ps) [[]]

/-- The words of a text: its pieces between blanks. -/
def words (t : Text) : List Text := (pieces isBlank t).filter (· ≠ [])

/-- The lines of a text, each trimmed, without the blank ones. -/
def solidLines (t : Text) : List Text := (pieces (· == '\n') t).filterMap trimmed?

/-- Trimmed and with ASCII capitals made small: texts that differ only in margins and
ASCII case have one such form. -/
def normalize (t : Text) : Text := (trim t).map Char.toLower

/-- The rest of `t` after `start`, if `t` begins with it. -/
def after? : (start t : Text) → Option Text
  | [], t => some t
  | _ :: _, [] => none
  | a :: s, b :: t => if a = b then after? s t else none

/-- The rest of `t` after the first place where `mark` stands in it. -/
def afterFirst? (mark : Text) : Text → Option Text
  | [] => after? mark []
  | c :: t =>
    match after? mark (c :: t) with
    | some rest => some rest
    | none => afterFirst? mark t

/-- Texts in the order of their characters' code points. -/
def before : Text → Text → Bool
  | _, [] => false
  | [], _ :: _ => true
  | a :: s, b :: t => a.toNat < b.toNat || (a == b && before s t)

end Text

end LintFindings
