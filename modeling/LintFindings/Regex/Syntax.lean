/-
Regular expressions.

`Regex` is the syntax tree.  Groups may have names; what matches in a named
group is reported.  `repeated` is the only way in which trees with repetition
are built: it does away with repetitions that change nothing.
-/
import LintFindings.Regex.CharSet

namespace LintFindings

/-- The places that an assertion can ask for. -/
inductive Look where
  | textStart
  | textEnd
  | lineStart
  | lineEnd
  | crlfLineStart
  | crlfLineEnd
  | wordBoundary (ascii : Bool)
  | noWordBoundary (ascii : Bool)
  | wordStart (ascii : Bool)
  | wordEnd (ascii : Bool)
  | halfWordStart (ascii : Bool)
  | halfWordEnd (ascii : Bool)
  deriving DecidableEq, Repr

namespace Look

/-- Whether a character, if there is one, belongs to a word. -/
def isWord (ascii : Bool) : Option Char → Bool
  | none => false
  | some c => if ascii then c.isAlphanum || c == '_' else Unicode.isWordChar c

/-- Whether the assertion holds between two characters; at an end of the text one is missing. -/
def holds (l : Look) (before after : Option Char) : Bool :=
  match l with
  | textStart => before.isNone
  | textEnd => after.isNone
  | lineStart => before.isNone || before == some '\n'
  | lineEnd => after.isNone || after == some '\n'
  | crlfLineStart =>
    before.isNone || before == some '\n' || (before == some '\r' && after != some '\n')
  | crlfLineEnd =>
    after.isNone || after == some '\r' || (after == some '\n' && before != some '\r')
  | wordBoundary a => isWord a before != isWord a after
  | noWordBoundary a => isWord a before == isWord a after
  | wordStart a => !isWord a before && isWord a after
  | wordEnd a => isWord a before && !isWord a after
  | halfWordStart a => !isWord a before
  | halfWordEnd a => !isWord a after

end Look

/-- A regular expression. -/
inductive Regex where
  | empty
  | set (s : CharSet)
  | look (l : Look)
  | group (name : Option Text) (body : Regex)
  | concat (a b : Regex)
  | alt (a b : Regex)
  | loop (min : Nat) (max : Option Nat) (greedy : Bool) (body : Regex)
  deriving DecidableEq, Repr

namespace Regex

/-- Whether only the empty text can match. -/
def isEmptyOnly : Regex → Bool
  | empty => true
  | set _ => false
  | look _ => true
  | group _ a => a.isEmptyOnly
  | concat a b => a.isEmptyOnly && b.isEmptyOnly
  | alt a b => a.isEmptyOnly && b.isEmptyOnly
  | loop _ _ _ a => a.isEmptyOnly

/-- Whether the empty text may match, assertions apart. -/
def canBeEmpty : Regex → Bool
  | empty => true
  | set _ => false
  | look _ => true
  | group _ a => a.canBeEmpty
  | concat a b => a.canBeEmpty && b.canBeEmpty
  | alt a b => a.canBeEmpty || b.canBeEmpty
  | loop min _ _ a => min == 0 || a.canBeEmpty

/-- The repetition of an expression.  What can only be empty is not repeated, no repetition is
the empty expression, and a single one is the expression itself. -/
def repeated (min : Nat) (max : Option Nat) (greedy : Bool) (a : Regex) : Regex :=
  let (min, max) :=
    if a.isEmptyOnly then (Nat.min min 1, some (Nat.min (max.getD 1) 1)) else (min, max)
  if max = some 0 then empty
  else if min = 1 ∧ max = some 1 then a
  else loop min max greedy a

/-- The names of the groups. -/
def groupNames : Regex → List Text
  | empty | set _ | look _ => []
  | group name a => name.toList ++ a.groupNames
  | concat a b => a.groupNames ++ b.groupNames
  | alt a b => a.groupNames ++ b.groupNames
  | loop _ _ _ a => a.groupNames

/-- How many bytes the compiled expression takes, roughly. -/
def weight : Regex → Nat
  | empty => 32
  | set (.range first last) =>
    if first = last then 32 * (Char.ofNat first).utf8Size else if last < 0x80 then 64 else 300
  | set s => 64 + s.weight
  | look _ => 32
  | group _ a => a.weight + 64
  | concat a b => a.weight + b.weight
  | alt a b => a.weight + b.weight + 40
  | loop min max _ a =>
    match max with
    | none => Nat.max min 1 * a.weight + 72
    | some max => max * a.weight + (max - min) * 40 + 32

/-- The largest weight of an expression that can be used. -/
def maxWeight : Nat := 10 * 1024 * 1024

end Regex

end LintFindings
