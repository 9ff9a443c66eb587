/-
Regular expressions as programs.

A program is an array of instructions that refer to each other by their
places.  `compile` builds it from the end: each part is told where to go on, and
answers where it begins.  A loop takes its place first, so that its body can go
on there.
-/
import LintFindings.Regex.Syntax

namespace LintFindings

/-- An instruction.  A split prefers its first way. -/
inductive Instruction where
  | accept
  | set (s : CharSet) (next : Nat)
  | look (l : Look) (next : Nat)
  | split (first second : Nat)
  | mark (slot : Nat) (next : Nat)
  deriving Repr

/-- A program, where it begins, and the names of its groups.  Group `k` begins at slot `2k` and
ends at slot `2k + 1`. -/
structure Program where
  code : Array Instruction
  start : Nat
  names : List Text
  deriving Repr

namespace Program

/-- Builds a program instruction by instruction. -/
abbrev Builder := StateM (Array Instruction)

/-- Adds an instruction and answers its place. -/
def emit (i : Instruction) : Builder Nat := fun code => (code.size, code.push i)

/-- Replaces the instruction at a place. -/
def patch (place : Nat) (i : Instruction) : Builder Unit := modify fun code => code.setIfInBounds place i

/-- A choice between going on with the body and leaving it. -/
def choice (greedy : Bool) (body exit : Nat) : Instruction :=
  if greedy then .split body exit else .split exit body

/-- So many copies of a part, one after the other. -/
def copies (part : Nat → Builder Nat) : Nat → Nat → Builder Nat
  | 0, exit => return exit
  | n + 1, exit => do copies part n (← part exit)

/-- Up to so many copies of a part; it is left to one end from all of them. -/
def upTo (part : Nat → Builder Nat) (greedy : Bool) : Nat → Nat → Builder Nat
  | 0, exit => return exit
  | n + 1, exit => do
    let rest ← upTo part greedy n exit
    emit (choice greedy (← part rest) exit)

/-- One or more copies of a part. -/
def oneOrMore (part : Nat → Builder Nat) (greedy : Bool) (exit : Nat) : Builder Nat := do
  let again ← emit .accept
  let body ← part again
  patch again (choice greedy body exit)
  return body

/-- Any number of copies of a part.  A part that cannot be empty is tried again from the place
where it was first tried; one that can be empty gets a place of its own for that. -/
def zeroOrMore (part : Nat → Builder Nat) (canBeEmpty greedy : Bool) (exit : Nat) :
    Builder Nat := do
  if canBeEmpty then emit (choice greedy (← oneOrMore part greedy exit) exit)
  else do
    let again ← emit .accept
    let body ← part again
    patch again (choice greedy body exit)
    return again

/-- The instructions of an expression, which go on at `exit`. -/
def compile (names : List Text) : Regex → Nat → Builder Nat
  | .empty, exit => return exit
  | .set s, exit => emit (.set s exit)
  | .look l, exit => emit (.look l exit)
  | .group none a, exit => compile names a exit
  | .group (some name) a, exit => do
    let slot := 2 * names.idxOf name
    let body ← compile names a (← emit (.mark (slot + 1) exit))
    emit (.mark slot body)
  | .concat a b, exit => do compile names a (← compile names b exit)
  | .alt a b, exit => do
    let second ← compile names b exit
    emit (.split (← compile names a exit) second)
  | .loop min max greedy a, exit =>
    let part := compile names a
    match max with
    | none =>
      if min = 0 then zeroOrMore part a.canBeEmpty greedy exit
      else do copies part (min - 1) (← oneOrMore part greedy exit)
    | some max => do copies part min (← upTo part greedy (max - min) exit)

/-- The program of an expression. -/
def ofRegex (r : Regex) : Program :=
  let names := r.groupNames
  let (start, code) := compile names r 0 #[.accept]
  { code, start, names }

end Program

end LintFindings
