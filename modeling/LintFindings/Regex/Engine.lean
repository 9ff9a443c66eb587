/-
Engines for regular expressions.

An engine compiles texts to expressions, and says of a compiled expression what groups it has
and where they are in the match that it finds in a text.  Reports are read with any engine; the
built-in one goes by the reader and the search of this library, and knows less than others do:
of the classes that Unicode defines it has the general categories, and the room that an
expression takes is estimated.
-/
import LintFindings.Regex.Reader
import LintFindings.Regex.Search

namespace LintFindings

/-- Why an engine does not compile a text. -/
inductive RegexError where
  /-- It is no regular expression. -/
  | malformed
  /-- The expression takes too much room. -/
  | tooLarge
  deriving DecidableEq, Repr

/-- Where the groups that took part in a match begin and end. -/
abbrev Spans := Text → Option (Nat × Nat)

/-- An expression that an engine has compiled. -/
structure CompiledRegex where
  /-- The names of the groups. -/
  groupNames : List Text
  /-- Where the groups are in the match that is found in a text, if one is found. -/
  find? : Text → Option Spans

/-- What compiles expressions. -/
structure RegexEngine where
  compile? : Text → Except RegexError CompiledRegex

/-- The part of a text between two places. -/
def slice (t : Text) (first last : Nat) : Text := (t.drop first).take (last - first)

namespace CompiledRegex

/-- What the groups that took part in the match took of a text. -/
def captures? (r : CompiledRegex) (t : Text) : Option (Text → Option Text) :=
  (r.find? t).map fun spans name => (spans name).map fun (first, last) => slice t first last

end CompiledRegex

/-! ### The built-in engine -/

namespace Program

/-- Where the group of a name begins and ends, if it took part. -/
def span? (prog : Program) (slots : Slots) : Spans := fun name => do
  let k ← prog.names.idxOf? name
  let first ← slots.getD (2 * k) none
  let last ← slots.getD (2 * k + 1) none
  return (first, last)

/-- A program as a compiled expression. -/
def compiled (prog : Program) : CompiledRegex :=
  ⟨prog.names, fun t => (prog.search t).map prog.span?⟩

end Program

/-- The engine of this library. -/
def RegexEngine.builtin : RegexEngine where
  compile? t :=
    match Regex.read? t with
    | none => .error .malformed
    | some r =>
      if Regex.maxWeight < r.weight then .error .tooLarge else .ok (Program.ofRegex r).compiled

end LintFindings
