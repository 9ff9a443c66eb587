/-
Sets of characters.

A `CharSet` is an expression for a set; `mem` decides membership.  Folding adds
to a set every case variant of its members.
-/
import LintFindings.Unicode.Category
import LintFindings.Unicode.Folding

namespace LintFindings

/-- An expression for a set of characters. -/
inductive CharSet where
  | empty
  | range (first last : Nat)
  | digit
  | blank
  | word
  | category (included : List Unicode.Category)
  | union (a b : CharSet)
  | inter (a b : CharSet)
  | compl (a : CharSet)
  | folded (a : CharSet)
  | asciiFolded (a : CharSet)
  deriving DecidableEq, Repr

namespace CharSet

/-- The letters of ASCII with the other case. -/
def otherCase (c : Char) : Char := if c.isUpper then c.toLower else c.toUpper

/-- Whether a character is in a set. -/
def mem : CharSet → Char → Bool
  | empty, _ => false
  | range first last, c => first ≤ c.toNat && c.toNat ≤ last
  | digit, c => Unicode.isDecimalDigit c
  | blank, c => isBlank c
  | word, c => Unicode.isWordChar c
  | category included, c => included.contains (Unicode.generalCategory c)
  | union a b, c => a.mem c || b.mem c
  | inter a b, c => a.mem c && b.mem c
  | compl a, c => !a.mem c
  | folded a, c =>
    if c.toNat < 0x80 && !c.isAlpha then a.mem c else (Unicode.caseVariants c).any fun d => a.mem d
  | asciiFolded a, c => a.mem c || a.mem (otherCase c)

/-- One character. -/
def single (c : Char) : CharSet := range c.toNat c.toNat

/-- The union of a list of sets. -/
def unions (sets : List CharSet) : CharSet := sets.foldr union empty

/-- What is in `a` and not in `b`. -/
def diff (a b : CharSet) : CharSet := inter a (compl b)

/-- What is in one of two sets only. -/
def symmDiff (a b : CharSet) : CharSet := union (diff a b) (diff b a)

/-- All characters. -/
def all : CharSet := compl empty

/-- All characters but some. -/
def allBut (cs : List Char) : CharSet := compl (unions (cs.map single))

/-! ### ASCII classes -/

/-- Digits of ASCII. -/
def asciiDigit : CharSet := range 0x30 0x39

/-- Blanks of ASCII. -/
def asciiBlank : CharSet := union (range 9 13) (range 0x20 0x20)

/-- Letters of ASCII. -/
def asciiAlpha : CharSet := union (range 0x41 0x5A) (range 0x61 0x7A)

/-- Letters, digits and the underscore of ASCII. -/
def asciiWord : CharSet := unions [asciiAlpha, asciiDigit, range 0x5F 0x5F]

/-- The ASCII classes by the names that they have inside brackets. -/
def ascii? (name : Text) : Option CharSet :=
  ([("alnum", union asciiAlpha asciiDigit), ("alpha", asciiAlpha), ("ascii", range 0 0x7F),
    ("blank", union (range 9 9) (range 0x20 0x20)),
    ("cntrl", union (range 0 0x1F) (range 0x7F 0x7F)), ("digit", asciiDigit),
    ("graph", range 0x21 0x7E), ("lower", range 0x61 0x7A), ("print", range 0x20 0x7E),
    ("punct", unions [range 0x21 0x2F, range 0x3A 0x40, range 0x5B 0x60, range 0x7B 0x7E]),
    ("space", asciiBlank), ("upper", range 0x41 0x5A), ("word", asciiWord),
    ("xdigit", unions [asciiDigit, range 0x41 0x46, range 0x61 0x66])].map
    fun (n, s) => (n.toList, s)).lookup name

/-! ### Properties -/

open Unicode Category

/-- The general categories and their groups, by their names in normal form. -/
def categoryNames : List (List String × List Unicode.Category) :=
  [(["lu", "uppercaseletter"], [lu]), (["ll", "lowercaseletter"], [ll]),
    (["lt", "titlecaseletter"], [lt]), (["lc", "casedletter"], [lu, ll, lt]),
    (["lm", "modifierletter"], [lm]), (["lo", "otherletter"], [lo]),
    (["l", "letter"], [lu, ll, lt, lm, lo]),
    (["mn", "nonspacingmark"], [mn]), (["mc", "spacingmark"], [mc]),
    (["me", "enclosingmark"], [me]), (["m", "mark", "combiningmark"], [mn, mc, me]),
    (["nd", "decimalnumber", "digit"], [nd]), (["nl", "letternumber"], [nl]),
    (["no", "othernumber"], [no]), (["n", "number"], [nd, nl, no]),
    (["pc", "connectorpunctuation"], [pc]), (["pd", "dashpunctuation"], [pd]),
    (["ps", "openpunctuation"], [ps]), (["pe", "closepunctuation"], [pe]),
    (["pi", "initialpunctuation"], [pi]), (["pf", "finalpunctuation"], [pf]),
    (["po", "otherpunctuation"], [po]),
    (["p", "punctuation", "punct"], [pc, pd, ps, pe, pi, pf, po]),
    (["sm", "mathsymbol"], [sm]), (["sc", "currencysymbol"], [sc]),
    (["sk", "modifiersymbol"], [sk]), (["so", "othersymbol"], [so]),
    (["s", "symbol"], [sm, sc, sk, so]),
    (["zs", "spaceseparator"], [zs]), (["zl", "lineseparator"], [zl]),
    (["zp", "paragraphseparator"], [zp]), (["z", "separator"], [zs, zl, zp]),
    (["cc", "control", "cntrl"], [cc]), (["cf", "format"], [cf]),
    (["cs", "surrogate"], [cs]), (["co", "privateuse"], [co]), (["cn", "unassigned"], [cn]),
    (["c", "other"], [cc, cf, cs, co, cn])]

/-- A property name without case, spaces, underscores, hyphens and a leading `is`. -/
def normalName (name : Text) : Text :=
  let t := (name.filter fun c => c != ' ' && c != '_' && c != '-').map Char.toLower
  match t with
  | 'i' :: 's' :: c :: rest => c :: rest
  | t => t

/-- The set of a general category or of one of the few properties besides. -/
def property? (name : Text) : Option CharSet :=
  let t := normalName name
  if t = "any".toList then some all
  else if t = "ascii".toList then some (range 0 0x7F)
  else if t = "assigned".toList then some (compl (category [cn]))
  else if t = "whitespace".toList ∨ t = "wspace".toList ∨ t = "space".toList then some blank
  else (categoryNames.find? fun (ns, _) => ns.any (·.toList = t)).map fun (_, included) =>
    category included

/-- The set of a property that is named with its value. -/
def propertyValue? (name value : Text) : Option CharSet :=
  let t := normalName name
  if t = "gc".toList ∨ t = "generalcategory".toList then property? value else none

/-- How many bytes a set takes in a compiled expression, roughly. -/
def weight : CharSet → Nat
  | empty => 0
  | range _ last => if last < 0x80 then 8 else 150
  | digit => 7000
  | blank => 1000
  | word => 62000
  | category included => included.length * 12000
  | union a b => a.weight + b.weight
  | inter a b => min a.weight b.weight
  | compl a => a.weight + 500
  | folded a => a.weight * 2
  | asciiFolded a => a.weight * 2

end CharSet

end LintFindings
