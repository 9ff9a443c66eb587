/-
Doubles and their shortest decimals.

`Double.nearest?` rounds a decimal to a double, in exact arithmetic: a number
`m * 2 ^ q` with `m < 2 ^ 53`.  `shortest` finds the fewest decimal digits that
round to the same double and, of these, the ones closest to it.  `positional`
writes them without an exponent.
-/
import LintFindings.Text.Decimal

namespace LintFindings

/-- A finite double that is not negative: `m * 2 ^ q`. -/
structure Double where
  m : Nat
  q : Int
  deriving DecidableEq, Repr

/-- A decimal: `digits * 10 ^ exponent`. -/
structure DecimalNumber where
  digits : Nat
  exponent : Int
  deriving DecidableEq, Repr

namespace Double

/-- `base ^ e` as a fraction. -/
def power (base : Nat) (e : Int) : Nat × Nat :=
  if 0 ≤ e then (base.pow e.toNat, 1) else (1, base.pow (-e).toNat)

/-- A fraction rounded to a whole number, a half to the even neighbour. -/
def roundHalfEven (num den : Nat) : Nat :=
  let floor := num / den
  let rest := num % den
  if den < 2 * rest ∨ (2 * rest = den ∧ floor % 2 = 1) then floor + 1 else floor

/-- The least exponent of a double. -/
def minExponent : Int := -1074

/-- The exponent of the doubles next to a fraction that is not zero. -/
def exponentNear (num den : Nat) : Int :=
  let guess : Int := (Nat.log2 num : Int) - (Nat.log2 den : Int) - 52
  let fits := fun (q : Int) =>
    let (p, r) := power 2 q
    num * r < Nat.pow 2 53 * (den * p)
  let q := if fits (guess - 1) then guess - 1 else if fits guess then guess else guess + 1
  max q minExponent

/-- The nearest double of a decimal, unless it is infinite. -/
def nearest? (d : DecimalNumber) : Option Double :=
  if d.digits = 0 then some ⟨0, minExponent⟩
  else if 400 < d.exponent then none
  else if d.exponent + (Text.decimal d.digits).length < -400 then some ⟨0, minExponent⟩
  else
    let (p, r) := power 10 d.exponent
    let num := d.digits * p
    let q := exponentNear num r
    let (p₂, r₂) := power 2 q
    let m := roundHalfEven (num * r₂) (r * p₂)
    if Nat.pow 2 1024 * r₂ ≤ m * p₂ then none
    else if m = Nat.pow 2 53 then some ⟨Nat.pow 2 52, q + 1⟩
    else some ⟨m, q⟩

/-- The decimals of `digits` digits next to a double that round to it, the closest one first. -/
def candidates (x : Double) (exponent : Int) : List DecimalNumber :=
  let (p, r) := power 2 x.q
  let (p₁₀, r₁₀) := power 10 exponent
  let num := x.m * p * r₁₀
  let den := r * p₁₀
  let floor := num / den
  let near := if 2 * (num % den) ≤ den then [floor, floor + 1] else [floor + 1, floor]
  (near.map fun n => ⟨n, exponent⟩).filter fun d => nearest? d = some x

/-- The shortest decimal of a double, by its number of digits from one on; seventeen are always
enough. -/
def shortestFrom (x : Double) (magnitude : Int) : (fuel : Nat) → (count : Nat) → DecimalNumber
  | 0, _ => ⟨0, 0⟩
  | fuel + 1, count =>
    match candidates x (magnitude - count) with
    | d :: _ => d
    | [] => shortestFrom x magnitude fuel (count + 1)

/-- A power of ten above a double that is not zero, at most ten times too large. -/
def magnitude (x : Double) : Int :=
  let (p, r) := power 2 x.q
  let num := x.m * p
  if r ≤ num then (Text.decimal (num / r)).length
  else 1 - (Text.decimal ((r - 1) / num)).length

/-- The shortest decimal of a double. -/
def shortest (x : Double) : DecimalNumber :=
  if x.m = 0 then ⟨0, 0⟩ else shortestFrom x x.magnitude 20 1

end Double

/-- A decimal without an exponent, with at least one digit on each side of the point. -/
def DecimalNumber.positional (d : DecimalNumber) : Text :=
  let ds := Text.decimal d.digits
  if 0 ≤ d.exponent then
    (if d.digits = 0 then ds else ds ++ List.replicate d.exponent.toNat '0') ++ ['.', '0']
  else
    let places := (-d.exponent).toNat
    let ds := List.replicate (places + 1 - ds.length) '0' ++ ds
    let whole := ds.take (ds.length - places)
    let fraction := (ds.drop (ds.length - places)).reverse.dropWhile (· == '0') |>.reverse
    whole ++ '.' :: (if fraction = [] then ['0'] else fraction)

end LintFindings
