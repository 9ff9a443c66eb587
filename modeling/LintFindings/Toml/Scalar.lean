/-
TOML numbers and dates.

Each reader takes what it can from the beginning of a text.  Integers have
sixty-four bits; a float that is too large is none, and one that is too small
is infinite; dates have to be dates of the calendar.
-/
import LintFindings.Toml.Value
import LintFindings.Decimal.Shortest
import LintFindings.Text.Hex

namespace LintFindings.Toml

/-- Digits with single underscores between them, and what follows; the first one is there. -/
def readDigits (isDigit : Char → Bool) : Text → Option (Text × Text)
  | [] => none
  | c :: t =>
    if !isDigit c then none
    else
      match t with
      | '_' :: t => (readDigits isDigit t).map fun (ds, rest) => (c :: ds, rest)
      | t =>
        match readDigits isDigit t with
        | some (ds, rest) => some (c :: ds, rest)
        | none => some ([c], t)

/-- A sign, if there is one, and what follows. -/
def readSign : Text → Bool × Text
  | '-' :: t => (true, t)
  | '+' :: t => (false, t)
  | t => (false, t)

/-- A whole number without leading zeros, and what follows. -/
def readWhole (t : Text) : Option (Text × Text) :=
  match t with
  | '0' :: rest => some (['0'], rest)
  | t => readDigits Char.isDigit t

/-! ### Integers -/

/-- The integers of sixty-four bits. -/
def word? (n : Int) : Option Toml :=
  if -0x8000000000000000 ≤ n ∧ n < 0x8000000000000000 then some (.integer n) else none

/-- A number in a base, behind the sign of the base. -/
def readBase (base : Nat) (isDigit : Char → Bool) (t : Text) : Option (Toml × Text) := do
  let (ds, rest) ← readDigits isDigit t
  let n := ds.foldl (fun n d => n * base + (Text.hexValue? d).getD 0) 0
  (word? n).map (·, rest)

/-- An integer. -/
def readInteger (t : Text) : Option (Toml × Text) :=
  match t with
  | '0' :: 'x' :: t => readBase 16 (fun c => (Text.hexValue? c).isSome) t
  | '0' :: 'o' :: t => readBase 8 (fun c => '0' ≤ c && c ≤ '7') t
  | '0' :: 'b' :: t => readBase 2 (fun c => c == '0' || c == '1') t
  | t => do
    let (negative, t) := readSign t
    let (ds, rest) ← readWhole t
    let n : Int := Text.digitsValue ds
    (word? (if negative then -n else n)).map (·, rest)

/-! ### Floats -/

/-- An exponent behind its letter. -/
def readExponent (t : Text) : Option (Int × Text) := do
  let (negative, t) := readSign t
  let (ds, rest) ← readDigits Char.isDigit t
  let n : Int := Text.digitsValue ds
  some (if negative then -n else n, rest)

/-- An exponent, if the letter for one follows. -/
def readExponentIf (t : Text) : Option (Option Int × Text) :=
  match t with
  | c :: rest =>
    if c = 'e' ∨ c = 'E' then (readExponent rest).map fun (e, rest) => (some e, rest)
    else some (none, t)
  | [] => some (none, t)

/-- A number that is written with a point or an exponent: whether it is negative, and its
decimal. -/
def readDecimal (t : Text) : Option ((Bool × DecimalNumber) × Text) := do
  let (negative, t) := readSign t
  let (whole, t) ← readWhole t
  let (fraction, t) ←
    match t with
    | '.' :: t => (readDigits Char.isDigit t).map fun (ds, t) => (some ds, t)
    | t => some (none, t)
  let (exponent, t) ← readExponentIf t
  if fraction.isNone && exponent.isNone then none
  else
    let places := fraction.getD []
    some ((negative, ⟨Text.digitsValue (whole ++ places), exponent.getD 0 - places.length⟩), t)

/-- A float. -/
def readFloat (t : Text) : Option (Toml × Text) :=
  match readDecimal t with
  | some ((negative, d), rest) =>
    match Double.nearest? d with
    | some x => some (.float ((if negative then ['-'] else []) ++ x.shortest.positional), rest)
    | none => if negative then some (.float "-inf".toList, rest) else none
  | none =>
    let (negative, t) := readSign t
    match t with
    | 'i' :: 'n' :: 'f' :: rest => some (.float (if negative then "-inf".toList else "inf".toList), rest)
    | 'n' :: 'a' :: 'n' :: rest => some (.float "NaN".toList, rest)
    | _ => none

/-! ### Dates and times -/

/-- So many digits, with a value between two bounds. -/
def readField (width low high : Nat) (t : Text) : Option (Nat × Text) :=
  let ds := t.take width
  if ds.length = width ∧ ds.all Char.isDigit then
    let n := Text.digitsValue ds
    if low ≤ n ∧ n ≤ high then some (n, t.drop width) else none
  else none

/-- How many days a month has. -/
def daysIn (year month : Nat) : Nat :=
  if month = 2 then
    if year % 4 = 0 ∧ (year % 100 ≠ 0 ∨ year % 400 = 0) then 29 else 28
  else if [4, 6, 9, 11].contains month then 30
  else 31

/-- A number in at least so many digits. -/
def padded (width n : Nat) : Text :=
  let ds := Text.decimal n
  List.replicate (width - ds.length) '0' ++ ds

/-- A date. -/
def readDate (t : Text) : Option (Text × Text) := do
  let (year, t) ← readField 4 0 9999 t
  let t ← Text.after? ['-'] t
  let (month, t) ← readField 2 1 12 t
  let t ← Text.after? ['-'] t
  let (day, t) ← readField 2 1 (daysIn year month) t
  some (padded 4 year ++ '-' :: padded 2 month ++ '-' :: padded 2 day, t)

/-- The digits of a second, of which nine count. -/
def readFraction (t : Text) : Option (Text × Text) :=
  match t with
  | '.' :: t =>
    let ds := t.takeWhile Char.isDigit
    let shown := ((ds.take 9).reverse.dropWhile (· == '0')).reverse
    if ds = [] then none
    else some (if shown = [] then [] else '.' :: shown, t.dropWhile Char.isDigit)
  | t => some ([], t)

/-- A time of day. -/
def readTime (t : Text) : Option (Text × Text) := do
  let (hour, t) ← readField 2 0 23 t
  let t ← Text.after? [':'] t
  let (minute, t) ← readField 2 0 59 t
  let t ← Text.after? [':'] t
  let (second, t) ← readField 2 0 60 t
  let (fraction, t) ← readFraction t
  some (padded 2 hour ++ ':' :: padded 2 minute ++ ':' :: padded 2 second ++ fraction, t)

/-- The distance from universal time, if one follows. -/
def readOffset (t : Text) : Option (Text × Text) :=
  match t with
  | 'Z' :: t | 'z' :: t => some (['Z'], t)
  | c :: rest =>
    if c = '+' ∨ c = '-' then do
      let (hour, rest) ← readField 2 0 23 rest
      let rest ← Text.after? [':'] rest
      let (minute, rest) ← readField 2 0 59 rest
      let sign := if hour = 0 ∧ minute = 0 then '+' else c
      some (sign :: padded 2 hour ++ ':' :: padded 2 minute, rest)
    else some ([], t)
  | [] => some ([], t)

/-- A time of day behind a date, with the sign that joins them. -/
def readTimeOfDate (t : Text) : Option (Text × Text) :=
  match t with
  | c :: rest =>
    if c = 'T' ∨ c = 't' ∨ c = ' ' then
      match readTime rest with
      | some (time, rest) => (readOffset rest).map fun (o, rest) => ('T' :: time ++ o, rest)
      | none => some ([], t)
    else some ([], t)
  | [] => some ([], t)

/-- A date, a time or both. -/
def readDatetime (t : Text) : Option (Toml × Text) :=
  match readDate t with
  | some (date, t) => (readTimeOfDate t).map fun (time, t) => (.datetime (date ++ time), t)
  | none => (readTime t).map fun (time, t) => (.datetime time, t)

/-- A number or date. -/
def readNumber (t : Text) : Option (Toml × Text) :=
  (readDatetime t).or ((readFloat t).or (readInteger t))

end LintFindings.Toml
