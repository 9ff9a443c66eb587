/-
Searching a text for an expression.

All ways through the program are followed at once, character by character and
in the order of preference, so the time is at most the size of the program for
each character.  Of two ways that come to one place, the preferred one goes
on.  The match that is found begins first; among those that begin there, it is
the preferred one.
-/
import LintFindings.Regex.Program

namespace LintFindings

/-- Where the groups of a way begin and end so far. -/
abbrev Slots := Array (Option Nat)

namespace Program

/-- A place in a text: how many characters stand before it, and those next to it. -/
structure Place where
  index : Nat
  before : Option Char
  after : Option Char

/-- Ways in the order of preference, and for each instruction the number of the last step at
which it was reached, counted from one. -/
structure Front where
  ways : Array (Nat × Slots)
  reached : Array Nat

/-- Follows ways up to the instructions that take a character or accept, the first way first.
What was reached at this place before is not followed again.  Every instruction adds at most two
ways, so `fuel` need not be more than twice their number. -/
def follow (code : Array Instruction) (p : Place) :
    (fuel : Nat) → (todo : List (Nat × Slots)) → Front → Front
  | 0, _, front => front
  | _, [], front => front
  | fuel + 1, (at_, slots) :: todo, front =>
    if front.reached.getD at_ 0 = p.index + 1 then follow code p fuel todo front
    else
      let front := { front with reached := front.reached.setIfInBounds at_ (p.index + 1) }
      match code[at_]? with
      | none => follow code p fuel todo front
      | some .accept | some (.set _ _) =>
        follow code p fuel todo { front with ways := front.ways.push (at_, slots) }
      | some (.look l next) =>
        follow code p fuel (if l.holds p.before p.after then (next, slots) :: todo else todo) front
      | some (.split first second) =>
        follow code p fuel ((first, slots) :: (second, slots) :: todo) front
      | some (.mark slot next) =>
        follow code p fuel ((next, slots.setIfInBounds slot (some p.index)) :: todo) front

/-- Enough steps to follow one way. -/
def fuel (code : Array Instruction) : Nat := 2 * code.size + 2

/-- Takes a character on all ways, in order, up to the first that accepts: the ways that go on
behind it, and the way that accepts. -/
def step (code : Array Instruction) (c : Option Char) (p : Place) :
    List (Nat × Slots) → Front → Front × Option Slots
  | [], front => (front, none)
  | (at_, slots) :: ways, front =>
    match code[at_]? with
    | some .accept => (front, some slots)
    | some (.set s next) =>
      if c.any s.mem then step code c p ways (follow code p (fuel code) [(next, slots)] front)
      else step code c p ways front
    | _ => step code c p ways front

/-- Goes through a text with the ways at a place and the best match so far; while there is none,
a new way begins at each place. -/
def searchFrom (prog : Program) : (rest : Text) → Place → Front → Option Slots → Option Slots
  | rest, p, front, best =>
    let front :=
      if best.isSome then front
      else
        let fresh := Array.replicate (2 * prog.names.length) none
        follow prog.code p (fuel prog.code) [(prog.start, fresh)] front
    match rest with
    | [] => (step prog.code none p front.ways.toList { front with ways := #[] }).2.or best
    | c :: rest =>
      let q : Place := { index := p.index + 1, before := some c, after := rest.head? }
      let (ahead, found) := step prog.code (some c) q front.ways.toList { front with ways := #[] }
      let best := found.or best
      if ahead.ways.isEmpty && best.isSome then best else searchFrom prog rest q ahead best

/-- Where the groups begin and end in the match. -/
def search (prog : Program) (t : Text) : Option Slots :=
  searchFrom prog t { index := 0, before := none, after := t.head? }
    { ways := #[], reached := Array.replicate prog.code.size 0 } none

end Program

end LintFindings
