/-
JSON values.

A number keeps the parts it was written with, and a string is a text unless it
holds half of a surrogate pair, which no text does.  `record?` reads a value
as the fields of a record: by name from an object, by position from an array.
-/
import LintFindings.Text.Decimal

namespace LintFindings

namespace Json

/-- A number by its parts: the digits of the fraction and the exponent stand only where they
were written. -/
structure Number where
  negative : Bool
  whole : Nat
  fraction : Option Text
  exponent : Option Int
  deriving DecidableEq, Repr

namespace Number

/-- A natural number, with neither fraction nor exponent. -/
def ofNat (n : Nat) : Number := ⟨false, n, none, none⟩

/-- The natural number that is written without sign, fraction and exponent. -/
def toNat? (n : Number) : Option Nat :=
  if !n.negative && n.fraction.isNone && n.exponent.isNone then some n.whole else none

/-- The largest number of sixty-four bits. -/
def wordLimit : Nat := UInt64.size - 1

/-- Reads further digits of the whole part into a word; once one does not fit, it and those
after it only raise the exponent. -/
def wholeDigits : (word : Nat) → (full : Bool) → (exponent : Int) → Text → Nat × Int
  | word, _, e, [] => (word, e)
  | word, full, e, d :: ds =>
    let next := word * 10 + (d.toNat - '0'.toNat)
    if full || wordLimit < next then wholeDigits word true (e + 1) ds
    else wholeDigits next false e ds

/-- Reads digits of the fraction into a word, up to the first that does not fit. -/
def fractionDigits : (word : Nat) → (exponent : Int) → Text → Nat × Int
  | word, e, [] => (word, e)
  | word, e, d :: ds =>
    let next := word * 10 + (d.toNat - '0'.toNat)
    if wordLimit < next then (word, e) else fractionDigits next (e - 1) ds

/-- The nearest number of 53 significant binary digits, a half going to the even neighbour. -/
def toDoublePrecision (n : Nat) : Nat :=
  let unit := Nat.pow 2 (Nat.log2 n - 52)
  let rest := n % unit
  let floor := n / unit
  if unit < 2 * rest ∨ (2 * rest = unit ∧ floor % 2 = 1) then (floor + 1) * unit
  else floor * unit

/-- Whether the number, its digits cut to a word and scaled by a power of ten in double
precision, stays below infinity. -/
def isFinite (n : Number) : Bool :=
  let (word, e) := wholeDigits 0 false 0 (Text.decimal n.whole)
  let (word, e) := fractionDigits word e (n.fraction.getD [])
  let e := e + n.exponent.getD 0
  if word = 0 ∨ e < 0 then true
  else if 308 < e then false
  else toDoublePrecision word * toDoublePrecision (Nat.pow 10 e.toNat) <
    Nat.pow 2 1024 - Nat.pow 2 970

end Number

end Json

/-- A JSON value.  A string or member name is `none` if it holds half of a surrogate pair. -/
inductive Json where
  | null
  | bool (b : Bool)
  | number (n : Json.Number)
  | string (s : Option Text)
  | array (items : List Json)
  | object (members : List (Option Text × Json))
  deriving Repr

namespace Json

/-- A string that is a text. -/
def text (t : Text) : Json := .string (some t)

/-- A natural number. -/
def nat (n : Nat) : Json := .number (.ofNat n)

/-- A record: its fields by name. -/
def record (fields : List (Text × Json)) : Json :=
  .object (fields.map fun field => (some field.1, field.2))

mutual

/-- How deep arrays and objects are nested. -/
def depth : Json → Nat
  | .array items => depthItems items + 1
  | .object members => depthMembers members + 1
  | _ => 0

/-- The depth of the deepest item. -/
def depthItems : List Json → Nat
  | [] => 0
  | v :: vs => max (depth v) (depthItems vs)

/-- The depth of the deepest member. -/
def depthMembers : List (Option Text × Json) → Nat
  | [] => 0
  | (_, v) :: ms => max (depth v) (depthMembers ms)

end

mutual

/-- Whether every string and name in a value is a text and every number is finite. -/
def isSound : Json → Bool
  | .number n => n.isFinite
  | .string s => s.isSome
  | .array items => isSoundItems items
  | .object members => isSoundMembers members
  | _ => true

/-- Whether all items are sound. -/
def isSoundItems : List Json → Bool
  | [] => true
  | v :: vs => isSound v && isSoundItems vs

/-- Whether all members are sound. -/
def isSoundMembers : List (Option Text × Json) → Bool
  | [] => true
  | (name, v) :: ms => name.isSome && isSound v && isSoundMembers ms

end

/-! ### Reading values as data -/

/-- The text of a string. -/
def text? : Json → Option Text
  | .string s => s
  | _ => none

/-- A truth value. -/
def bool? : Json → Option Bool
  | .bool b => some b
  | _ => none

/-- A natural number up to a limit. -/
def nat? (limit : Nat) : Json → Option Nat
  | .number n => n.toNat?.filter (· ≤ limit)
  | _ => none

/-- A number of thirty-two bits. -/
def uint32? (v : Json) : Option UInt32 := (v.nat? (UInt32.size - 1)).map UInt32.ofNat

/-- A number of sixty-four bits. -/
def uint64? (v : Json) : Option UInt64 := (v.nat? (UInt64.size - 1)).map UInt64.ofNat

/-- The items of an array, each read by `item?`. -/
def list? {α : Type} (item? : Json → Option α) : Json → Option (List α)
  | .array items => items.mapM item?
  | _ => none

/-- The fields of a record by name.  From an object, members that are no fields are left out
and no field may stand twice; from an array, the fields are taken in the order of `names`, and
there must be `least` of them. -/
def record? (names : List Text) (least : Nat) : Json → Option (List (Text × Json))
  | .object members => do
    let members ← members.mapM fun member => member.1.map (·, member.2)
    let fields := members.filter fun member => names.contains member.1
    if (fields.map Prod.fst).Nodup then some fields else none
  | .array items =>
    if least ≤ items.length ∧ items.length ≤ names.length then some (names.zip items) else none
  | _ => none

/-- The value of a field. -/
def field? (fields : List (Text × Json)) (name : String) : Option Json :=
  fields.lookup name.toList

/-- A field that must be there. -/
def required? {α : Type} (fields : List (Text × Json)) (name : String)
    (value? : Json → Option α) : Option α :=
  (field? fields name).bind value?

/-- A field that may be missing or null; the outer option is whether it can be read. -/
def optional? {α : Type} (fields : List (Text × Json)) (name : String)
    (value? : Json → Option α) : Option (Option α) :=
  match field? fields name with
  | none | some .null => some none
  | some v => (value? v).map some

/-- A field that may be missing and then has a value of its own. -/
def defaulted? {α : Type} (fields : List (Text × Json)) (name : String) (default : α)
    (value? : Json → Option α) : Option α :=
  match field? fields name with
  | none => some default
  | some v => value? v

/-- Reads one of several names: a text, or an object that has the name for its only member, with
null. -/
def variant? {α : Type} (ofName? : Text → Option α) : Json → Option α
  | .string (some t) => ofName? t
  | .object [(some t, .null)] => ofName? t
  | _ => none

end Json

end LintFindings
