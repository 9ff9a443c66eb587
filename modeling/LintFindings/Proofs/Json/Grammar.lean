/-
The grammar of JSON, and that the reader accepts all of it.

`Spells t v` says that a text is a spelling of a value, without a reader: blanks
may stand between the parts, a character of a string may be written in any of its
ways, and an exponent with either letter and with or without a plus sign.  What is
not a text, half of a surrogate pair in a string, cannot be spelled.

A number is read to its end only if what follows it cannot be taken for one more
digit, a point or an exponent; `Stops` says so of the rest of a text.  Arrays and
objects are by induction on the reader's fuel: `Reads` is what holds at one amount
of it, with the amount measured by the text, and the steps from `fuel` to
`fuel + 1` are the three lemmas before `reads`.
-/
import LintFindings.Json.Reader
import LintFindings.Proofs.Text

namespace LintFindings.Json

variable {t u rest ds g : Text} {ps : List Piece} {c : Char}

/-! ### Strings -/

/-- A character of a string, in each of the ways to write it. -/
inductive SpellsChar : Text → Char → Prop
  | plain {c : Char} (hcontrol : 0x20 ≤ c.toNat) (hquote : c ≠ '"') (hslash : c ≠ '\\') :
      SpellsChar [c] c
  | letter {e c : Char} (hc : escaped? e = some c) : SpellsChar ['\\', e] c
  | unit {a b c d : Char} {n : Nat} (hn : Text.hexNumber? [a, b, c, d] = some n)
      (hhigh : isHighUnit n = false) (hlow : isLowUnit n = false) :
      SpellsChar ['\\', 'u', a, b, c, d] (Char.ofNat n)
  | pair {a b c d a' b' c' d' : Char} {n m : Nat} (hn : Text.hexNumber? [a, b, c, d] = some n)
      (hhigh : isHighUnit n = true) (hm : Text.hexNumber? [a', b', c', d'] = some m)
      (hlow : isLowUnit m = true) :
      SpellsChar ['\\', 'u', a, b, c, d, '\\', 'u', a', b', c', d']
        (Char.ofNat (0x10000 + (n - 0xD800) * 0x400 + (m - 0xDC00)))

/-- A string between its quotes, character by character. -/
inductive SpellsString : Text → Text → Prop
  | nil : SpellsString [] []
  | cons {t u s : Text} {c : Char} (hc : SpellsChar t c) (hs : SpellsString u s) :
      SpellsString (t ++ u) (c :: s)

theorem readPieces_plain (hc : 0x20 ≤ c.toNat) (hquote : c ≠ '"') (hslash : c ≠ '\\')
    (ht : readPieces t = some (ps, rest)) : readPieces (c :: t) = some (.char c :: ps, rest) := by
  rw [readPieces]
  · rw [if_neg (by simp only [hslash, or_false]; omega)]
    simp [ht]
  · exact hquote
  · intro _ _ _ _ _ h _; exact hslash h
  · intro _ _ h _; exact hslash h

theorem readPieces_letter {e : Char} (hc : escaped? e = some c)
    (ht : readPieces t = some (ps, rest)) :
    readPieces ('\\' :: e :: t) = some (.char c :: ps, rest) := by
  rw [readPieces]
  · simp [hc, ht]
  · intro _ _ _ _ _ he _
    rw [he] at hc
    simp [escaped?] at hc

theorem readPieces_unit {a b c d : Char} {n : Nat} (hn : Text.hexNumber? [a, b, c, d] = some n)
    (ht : readPieces t = some (ps, rest)) :
    readPieces ('\\' :: 'u' :: a :: b :: c :: d :: t) = some (.unit n :: ps, rest) := by
  rw [readPieces, hn]
  simp [ht]

/-- One spelled character adds pieces that make this character. -/
theorem readPieces_spellsChar (hc : SpellsChar u c) (ht : readPieces t = some (ps, rest)) :
    ∃ qs, readPieces (u ++ t) = some (qs, rest) ∧ joinUnits qs = (joinUnits ps).map (c :: ·) := by
  cases hc with
  | plain hcontrol hquote hslash =>
      exact ⟨.char c :: ps, readPieces_plain hcontrol hquote hslash ht, rfl⟩
  | letter hc => exact ⟨.char c :: ps, readPieces_letter hc ht, rfl⟩
  | @unit a b d e n hn hhigh hlow =>
      refine ⟨.unit n :: ps, readPieces_unit hn ht, ?_⟩
      rw [joinUnits.eq_def]
      simp [hhigh, hlow]
  | @pair a b d e a' b' d' e' n m hn hhigh hm hlow =>
      refine ⟨.unit n :: .unit m :: ps, readPieces_unit hn (readPieces_unit hm ht), ?_⟩
      rw [joinUnits.eq_def]
      simp [hhigh, hlow]

/-- **A string is read as the text that it spells.** -/
theorem readString_spells {s : Text} (h : SpellsString t s) :
    readString (t ++ '"' :: rest) = some (some s, rest) := by
  have hpieces : ∃ ps, readPieces (t ++ '"' :: rest) = some (ps, rest) ∧ joinUnits ps = some s := by
    induction h with
    | nil => exact ⟨[], rfl, rfl⟩
    | @cons t u s c hc hs ih =>
        obtain ⟨ps, hread, hjoin⟩ := ih
        obtain ⟨qs, hread', hjoin'⟩ := readPieces_spellsChar hc hread
        refine ⟨qs, ?_, ?_⟩
        · rw [List.append_assoc]
          exact hread'
        · rw [hjoin', hjoin, Option.map_some]
  obtain ⟨ps, hread, hjoin⟩ := hpieces
  simp [readString, hread, hjoin]

/-! ### Numbers -/

/-- What may follow a number without being taken for a part of it. -/
def Stops (rest : Text) : Prop :=
  ∀ c ∈ rest.head?, c.isDigit = false ∧ c ≠ '.' ∧ c ≠ 'e' ∧ c ≠ 'E'

/-- A fraction behind its point. -/
inductive SpellsFraction : Text → Option Text → Prop
  | none : SpellsFraction [] none
  | some {ds : Text} (hne : ds ≠ []) (hds : ∀ d ∈ ds, d.isDigit = true) :
      SpellsFraction ('.' :: ds) (some ds)

/-- An exponent behind its letter. -/
inductive SpellsExponent : Text → Option Int → Prop
  | none : SpellsExponent [] none
  | plus {e : Char} {sign ds : Text} (he : e = 'e' ∨ e = 'E') (hsign : sign = [] ∨ sign = ['+'])
      (hne : ds ≠ []) (hds : ∀ d ∈ ds, d.isDigit = true) :
      SpellsExponent (e :: (sign ++ ds)) (some (Text.digitsValue ds))
  | minus {e : Char} {ds : Text} (he : e = 'e' ∨ e = 'E') (hne : ds ≠ [])
      (hds : ∀ d ∈ ds, d.isDigit = true) :
      SpellsExponent (e :: '-' :: ds) (some (-Text.digitsValue ds))

/-- A number part by part. -/
inductive SpellsNumber : Text → Number → Prop
  | parts {n : Number} {fraction exponent : Text} (hfraction : SpellsFraction fraction n.fraction)
      (hexponent : SpellsExponent exponent n.exponent) :
      SpellsNumber ((if n.negative then ['-'] else []) ++
        (Text.decimal n.whole ++ (fraction ++ exponent))) n

theorem readDigits_append (hne : ds ≠ []) (hds : ∀ d ∈ ds, d.isDigit = true)
    (hrest : ∀ c ∈ rest.head?, c.isDigit = false) : readDigits (ds ++ rest) = some (ds, rest) := by
  unfold readDigits
  rw [Text.takeWhile_run hds hrest, Text.dropWhile_run hds hrest]
  cases ds with
  | nil => exact absurd rfl hne
  | cons d ds => rfl

theorem readWhole_decimal (n : Nat) (hrest : ∀ c ∈ rest.head?, c.isDigit = false) :
    readWhole (Text.decimal n ++ rest) = some (n, rest) := by
  have hlead : ¬ ((Text.decimal n).head? = some '0' ∧ Text.decimal n ≠ ['0']) :=
    fun h => h.2 (Text.decimal_of_head? h.1)
  unfold readWhole
  rw [readDigits_append (Text.decimal_ne_nil n) (fun _ => Text.isDigit_of_mem_decimal) hrest]
  show (if _ then none else some (Text.digitsValue (Text.decimal n), rest)) = _
  rw [if_neg hlead, Text.digitsValue_decimal]

theorem readFraction_spells {fraction : Option Text} (h : SpellsFraction t fraction)
    (hrest : ∀ c ∈ rest.head?, c.isDigit = false ∧ c ≠ '.') :
    readFraction (t ++ rest) = some (fraction, rest) := by
  cases h with
  | none =>
      cases rest with
      | nil => rfl
      | cons c rest =>
          show readFraction (c :: rest) = _
          rw [readFraction]
          intro _ h
          exact (hrest c rfl).2 (List.cons.inj h).1
  | @some ds hne hds =>
      show (readDigits (ds ++ rest)).map _ = _
      rw [readDigits_append hne hds fun c hc => (hrest c hc).1]
      rfl

theorem readSign_digits (negative : Bool) (hne : ds ≠ []) (hds : ∀ d ∈ ds, d.isDigit = true)
    (rest : Text) : readSign ((if negative then ['-'] else []) ++ (ds ++ rest))
      = (negative, ds ++ rest) := by
  obtain ⟨d, ds', rfl⟩ := List.ne_nil_iff_exists_cons.mp hne
  cases negative with
  | true => rfl
  | false =>
      show readSign (d :: (ds' ++ rest)) = _
      rw [readSign]
      · rfl
      · intro _ h
        have hdigit := hds d List.mem_cons_self
        rw [(List.cons.inj h).1] at hdigit
        exact absurd hdigit (by decide)

theorem readExponent_spells {exponent : Option Int} (h : SpellsExponent t exponent)
    (hrest : Stops rest) : readExponent (t ++ rest) = some (exponent, rest) := by
  cases h with
  | none =>
      cases rest with
      | nil => rfl
      | cons c rest =>
          show readExponent (c :: rest) = _
          rw [readExponent, if_neg]
          rintro (h | h)
          · exact (hrest c rfl).2.2.1 h
          · exact (hrest c rfl).2.2.2 h
  | @plus e sign ds he hsign hne hds =>
      have hread : readExponentSign (sign ++ (ds ++ rest)) = (false, ds ++ rest) := by
        obtain rfl | rfl := hsign
        · have hsign' := readSign_digits false hne hds rest
          obtain ⟨d, ds', rfl⟩ := List.ne_nil_iff_exists_cons.mp hne
          rw [List.nil_append, readExponentSign]
          · exact hsign'
          · intro _ h
            have hdigit := hds d List.mem_cons_self
            rw [(List.cons.inj h).1] at hdigit
            exact absurd hdigit (by decide)
        · rfl
      rw [List.cons_append, List.append_assoc, readExponent, if_pos he, hread]
      dsimp only
      rw [readDigits_append hne hds fun c hc => (hrest c hc).1]
      rfl
  | @minus e ds he hne hds =>
      rw [List.cons_append, List.cons_append, readExponent, if_pos he]
      show (readDigits (ds ++ rest)).map _ = _
      rw [readDigits_append hne hds fun c hc => (hrest c hc).1]
      rfl

/-- **A number is read part by part.** -/
theorem readNumber_spells {n : Number} (h : SpellsNumber t n) (hrest : Stops rest) :
    readNumber (t ++ rest) = some (n, rest) := by
  cases h with
  | @parts _ fraction exponent hfraction hexponent =>
      obtain ⟨negative, whole, f, e⟩ := n
      have hbehind : ∀ c ∈ (exponent ++ rest).head?, c.isDigit = false ∧ c ≠ '.' := by
        refine Text.head?_append_of ?_ fun c hc => ⟨(hrest c hc).1, (hrest c hc).2.1⟩
        cases hexponent with
        | none => exact nofun
        | plus he =>
            refine Text.head?_cons_of ?_
            obtain rfl | rfl := he <;> decide
        | minus he =>
            refine Text.head?_cons_of ?_
            obtain rfl | rfl := he <;> decide
      have hbehind' : ∀ c ∈ (fraction ++ (exponent ++ rest)).head?, c.isDigit = false := by
        refine Text.head?_append_of ?_ fun c hc => (hbehind c hc).1
        cases hfraction with
        | none => exact nofun
        | some => exact Text.head?_cons_of rfl
      have hdigits : ∀ d ∈ Text.decimal whole, d.isDigit = true := fun _ =>
        Text.isDigit_of_mem_decimal
      have hsign := readSign_digits negative (Text.decimal_ne_nil whole) hdigits
        (fraction ++ (exponent ++ rest))
      simp only [List.append_assoc, readNumber, hsign]
      simp [readWhole_decimal whole hbehind', readFraction_spells hfraction hbehind,
        readExponent_spells hexponent hrest]

theorem spellsNumber_head {n : Number} (h : SpellsNumber t n) :
    ∃ c u, t = c :: u ∧ (c.isDigit = true ∨ c = '-') := by
  cases h with
  | parts hfraction hexponent =>
      cases hneg : n.negative with
      | true => exact ⟨'-', _, by simp; rfl, .inr rfl⟩
      | false =>
          obtain ⟨d, ds, hd, hdigit⟩ := Text.decimal_eq_cons n.whole
          exact ⟨d, _, by simp [hd]; rfl, .inl hdigit⟩

/-! ### Blanks -/

/-- Blanks, as they may stand between the parts of a value. -/
def Gap (g : Text) : Prop := ∀ c ∈ g, isGap c = true

theorem gap_nil : Gap [] := by simp [Gap]

theorem isGap_eq_true (h : isGap c = true) : c = ' ' ∨ c = '\n' ∨ c = '\t' ∨ c = '\r' := by
  simpa [isGap, or_assoc] using h

theorem isGap_of_number_head (h : c.isDigit = true ∨ c = '-') : isGap c = false := by
  cases hgap : isGap c with
  | false => rfl
  | true =>
      exfalso
      rcases isGap_eq_true hgap with rfl | rfl | rfl | rfl <;> revert h <;> decide

theorem ne_of_number_head {d : Char} (h : c.isDigit = true ∨ c = '-')
    (hd : d ∈ ['n', 't', 'f', '"', '[', '{', ']']) : c ≠ d := by
  rintro rfl
  simp only [List.mem_cons, List.not_mem_nil, or_false] at hd
  rcases hd with rfl | rfl | rfl | rfl | rfl | rfl | rfl <;> revert h <;> decide

theorem skipGap_cons (hc : isGap c = false) (t : Text) : skipGap (c :: t) = c :: t := by
  simp [skipGap, hc]

section

variable (hg : Gap g)

include hg

theorem skipGap_append (t : Text) : skipGap (g ++ t) = skipGap t :=
  List.dropWhile_append_of_pos hg

theorem readValue_gap (fuel : Nat) (t : Text) : readValue fuel (g ++ t) = readValue fuel t := by
  cases fuel with
  | zero => rfl
  | succ fuel => rw [readValue, readValue, skipGap_append hg]

theorem readItems_gap (fuel : Nat) (t : Text) : readItems fuel (g ++ t) = readItems fuel t := by
  cases fuel with
  | zero => rfl
  | succ fuel => rw [readItems, readItems, readValue_gap hg]

theorem readMembers_gap (fuel : Nat) (t : Text) :
    readMembers fuel (g ++ t) = readMembers fuel t := by
  cases fuel with
  | zero => rfl
  | succ fuel => rw [readMembers, readMembers, skipGap_append hg]

theorem stops_of_gap : Stops g := by
  intro c hc
  rcases isGap_eq_true (hg c (List.mem_of_mem_head? hc)) with rfl | rfl | rfl | rfl <;> decide

/-- Blanks and then a comma or a closing bracket end a number. -/
theorem stops_append (hc : c = ',' ∨ c = ']' ∨ c = '}') (t : Text) : Stops (g ++ c :: t) := by
  refine Text.head?_append_of (stops_of_gap hg) (Text.head?_cons_of ?_)
  rcases hc with rfl | rfl | rfl <;> decide

end

/-! ### Values -/

mutual

/-- A text spells a value. -/
inductive Spells : Text → Json → Prop
  | null : Spells "null".toList .null
  | true : Spells "true".toList (.bool true)
  | false : Spells "false".toList (.bool false)
  | number {t : Text} {n : Number} (hn : SpellsNumber t n) : Spells t (.number n)
  | string {t s : Text} (hs : SpellsString t s) : Spells ('"' :: (t ++ ['"'])) (.string (some s))
  | emptyArray {g : Text} (hg : Gap g) : Spells ('[' :: (g ++ [']'])) (.array [])
  | array {t : Text} {vs : List Json} (hvs : SpellsItems t vs) :
      Spells ('[' :: (t ++ [']'])) (.array vs)
  | emptyObject {g : Text} (hg : Gap g) : Spells ('{' :: (g ++ ['}'])) (.object [])
  | object {t : Text} {ms : List (Option Text × Json)} (hms : SpellsMembers t ms) :
      Spells ('{' :: (t ++ ['}'])) (.object ms)

/-- A text spells the items of an array, of which there is at least one. -/
inductive SpellsItems : Text → List Json → Prop
  | last {g t h : Text} {v : Json} (hg : Gap g) (hv : Spells t v) (hh : Gap h) :
      SpellsItems (g ++ (t ++ h)) [v]
  | more {g t h u : Text} {v : Json} {vs : List Json} (hg : Gap g) (hv : Spells t v) (hh : Gap h)
      (hvs : SpellsItems u vs) : SpellsItems (g ++ (t ++ (h ++ ',' :: u))) (v :: vs)

/-- A text spells the members of an object, of which there is at least one. -/
inductive SpellsMembers : Text → List (Option Text × Json) → Prop
  | last {g n h i t j name : Text} {v : Json} (hg : Gap g) (hn : SpellsString n name) (hh : Gap h)
      (hi : Gap i) (hv : Spells t v) (hj : Gap j) :
      SpellsMembers (g ++ '"' :: (n ++ '"' :: (h ++ ':' :: (i ++ (t ++ j))))) [(some name, v)]
  | more {g n h i t j name u : Text} {v : Json} {ms : List (Option Text × Json)} (hg : Gap g)
      (hn : SpellsString n name) (hh : Gap h) (hi : Gap i) (hv : Spells t v) (hj : Gap j)
      (hms : SpellsMembers u ms) :
      SpellsMembers (g ++ '"' :: (n ++ '"' :: (h ++ ':' :: (i ++ (t ++ (j ++ ',' :: u))))))
        ((some name, v) :: ms)

end

/-- A spelled value begins with a character that is no blank and closes no array. -/
theorem spells_head {v : Json} (h : Spells t v) :
    ∃ c u, t = c :: u ∧ isGap c = false ∧ c ≠ ']' := by
  cases h with
  | null => exact ⟨'n', _, rfl, by decide⟩
  | true => exact ⟨'t', _, rfl, by decide⟩
  | false => exact ⟨'f', _, rfl, by decide⟩
  | number hn =>
      obtain ⟨c, u, hc, hhead⟩ := spellsNumber_head hn
      exact ⟨c, u, hc, isGap_of_number_head hhead, ne_of_number_head hhead (by decide)⟩
  | string => exact ⟨'"', _, rfl, by decide⟩
  | emptyArray => exact ⟨'[', _, rfl, by decide⟩
  | array => exact ⟨'[', _, rfl, by decide⟩
  | emptyObject => exact ⟨'{', _, rfl, by decide⟩
  | object => exact ⟨'{', _, rfl, by decide⟩

theorem readValue_number {fuel : Nat} {n : Number} (hn : SpellsNumber t n) (hrest : Stops rest) :
    readValue (fuel + 1) (t ++ rest) = some (.number n, rest) := by
  have hread := readNumber_spells hn hrest
  obtain ⟨c, u, rfl, hhead⟩ := spellsNumber_head hn
  rw [List.cons_append] at hread ⊢
  rw [readValue, skipGap_cons (isGap_of_number_head hhead)]
  split
  case h_7 => rw [hread]; rfl
  -- the beginnings of all other values
  all_goals
    rename_i heq
    exact absurd (List.cons.inj heq).1 (ne_of_number_head hhead (by decide))

theorem readValue_bracket (hg : Gap g) (hc : isGap c = false) (hclose : c ≠ ']') (fuel : Nat)
    (t : Text) : readValue (fuel + 1) ('[' :: (g ++ c :: t))
      = (readItems fuel (c :: t)).map fun (vs, t) => (.array vs, t) := by
  simp [readValue, skipGap_cons (c := '[') (by decide), skipGap_append hg, skipGap_cons hc, hclose]

theorem readValue_brace (hg : Gap g) (fuel : Nat) (t : Text) :
    readValue (fuel + 1) ('{' :: (g ++ '"' :: t))
      = (readMembers fuel ('"' :: t)).map fun (ms, t) => (.object ms, t) := by
  simp [readValue, skipGap_cons (c := '{') (by decide), skipGap_append hg,
    skipGap_cons (c := '"') (by decide)]

/-- A member's name and colon are read, and then its value. -/
theorem readMembers_name {n h i name : Text} (hg : Gap g) (hn : SpellsString n name) (hh : Gap h)
    (hi : Gap i) (fuel : Nat) (t : Text) :
    readMembers (fuel + 1) (g ++ '"' :: (n ++ '"' :: (h ++ ':' :: (i ++ t))))
      = (readValue fuel t).bind fun (v, t) =>
          match skipGap t with
          | ',' :: t => (readMembers fuel t).map fun (ms, t) => ((some name, v) :: ms, t)
          | '}' :: t => some ([(some name, v)], t)
          | _ => none := by
  rw [readMembers_gap hg]
  simp only [readMembers, skipGap_cons (c := '"') (by decide), readString_spells hn,
    Option.bind_eq_bind, Option.bind_some, skipGap_append hh, skipGap_cons (c := ':') (by decide)]
  exact congrArg (Option.bind · _) (readValue_gap hi fuel t)

/--
What the readers do with so much fuel: they read whatever is spelled.

Two steps for each character suffice.  The items and members are those behind the
opening bracket, up to the closing one, so their reading starts one step later.
-/
structure Reads (fuel : Nat) : Prop where
  value : ∀ {t : Text} {v : Json} (rest : Text), Spells t v → Stops rest → 2 * t.length ≤ fuel →
    readValue fuel (t ++ rest) = some (v, rest)
  items : ∀ {t : Text} {vs : List Json} (rest : Text), SpellsItems t vs →
    2 * t.length + 1 ≤ fuel → readItems fuel (t ++ ']' :: rest) = some (vs, rest)
  members : ∀ {t : Text} {ms : List (Option Text × Json)} (rest : Text), SpellsMembers t ms →
    2 * t.length + 1 ≤ fuel → readMembers fuel (t ++ '}' :: rest) = some (ms, rest)

theorem reads_value {fuel : Nat} (ih : Reads fuel) {v : Json} (h : Spells t v)
    (hrest : Stops rest) (hfuel : 2 * t.length ≤ fuel + 1) :
    readValue (fuel + 1) (t ++ rest) = some (v, rest) := by
  cases h with
  | null => rfl
  | true => rfl
  | false => rfl
  | number hn => exact readValue_number hn hrest
  | @string t s hs =>
      have hskip : skipGap ('"' :: (t ++ ['"']) ++ rest) = '"' :: (t ++ '"' :: rest) := by
        simp [skipGap_cons (c := '"') (by decide)]
      rw [readValue, hskip]
      simp [readString_spells hs]
  | @emptyArray g hg =>
      simp [readValue, skipGap_cons (c := '[') (by decide), skipGap_append hg,
        skipGap_cons (c := ']') (by decide)]
  | @emptyObject g hg =>
      simp [readValue, skipGap_cons (c := '{') (by decide), skipGap_append hg,
        skipGap_cons (c := '}') (by decide)]
  | @array t vs hvs =>
      have hitems := ih.items rest hvs (by simp at hfuel; omega)
      have hfirst : ∃ g c u, Gap g ∧ isGap c = false ∧ c ≠ ']' ∧ t = g ++ c :: u := by
        cases hvs with
        | last hg hv hh =>
            obtain ⟨c, u, rfl, hc, hclose⟩ := spells_head hv
            exact ⟨_, c, _, hg, hc, hclose, rfl⟩
        | more hg hv hh hvs =>
            obtain ⟨c, u, rfl, hc, hclose⟩ := spells_head hv
            exact ⟨_, c, _, hg, hc, hclose, rfl⟩
      obtain ⟨g, c, u, hg, hc, hclose, rfl⟩ := hfirst
      have hread := readValue_bracket hg hc hclose fuel (u ++ ']' :: rest)
      rw [List.append_assoc, readItems_gap hg] at hitems
      rw [List.cons_append] at hitems
      rw [hitems] at hread
      simpa using hread
  | @object t ms hms =>
      have hmembers := ih.members rest hms (by simp at hfuel; omega)
      have hfirst : ∃ g u, Gap g ∧ t = g ++ '"' :: u := by
        cases hms with
        | last hg => exact ⟨_, _, hg, rfl⟩
        | more hg => exact ⟨_, _, hg, rfl⟩
      obtain ⟨g, u, hg, rfl⟩ := hfirst
      have hread := readValue_brace hg fuel (u ++ '}' :: rest)
      rw [List.append_assoc, readMembers_gap hg] at hmembers
      rw [List.cons_append] at hmembers
      rw [hmembers] at hread
      simpa using hread

theorem reads_items {fuel : Nat} (ih : Reads fuel) {vs : List Json} (h : SpellsItems t vs)
    (hfuel : 2 * t.length + 1 ≤ fuel + 1) :
    readItems (fuel + 1) (t ++ ']' :: rest) = some (vs, rest) := by
  cases h with
  | @last g t h v hg hv hh =>
      have hread := ih.value (h ++ ']' :: rest) hv (stops_append hh (.inr (.inl rfl)) rest)
        (by simp at hfuel; omega)
      simp [readItems, readValue_gap hg, hread, skipGap_append hh,
        skipGap_cons (c := ']') (by decide)]
  | @more g t h u v vs hg hv hh hvs =>
      have hread := ih.value (h ++ ',' :: (u ++ ']' :: rest)) hv (stops_append hh (.inl rfl) _)
        (by simp at hfuel; omega)
      have hmore := ih.items rest hvs (by simp at hfuel; omega)
      simp [readItems, readValue_gap hg, hread, skipGap_append hh,
        skipGap_cons (c := ',') (by decide), hmore]

theorem reads_members {fuel : Nat} (ih : Reads fuel) {ms : List (Option Text × Json)}
    (h : SpellsMembers t ms) (hfuel : 2 * t.length + 1 ≤ fuel + 1) :
    readMembers (fuel + 1) (t ++ '}' :: rest) = some (ms, rest) := by
  cases h with
  | @last g n h i t j name v hg hn hh hi hv hj =>
      have hread := ih.value (j ++ '}' :: rest) hv (stops_append hj (.inr (.inr rfl)) rest)
        (by simp at hfuel; omega)
      have hname := readMembers_name hg hn hh hi fuel (t ++ (j ++ '}' :: rest))
      rw [hread] at hname
      simpa [skipGap_append hj, skipGap_cons (c := '}') (by decide)] using hname
  | @more g n h i t j name u v ms hg hn hh hi hv hj hms =>
      have hread := ih.value (j ++ ',' :: (u ++ '}' :: rest)) hv (stops_append hj (.inl rfl) _)
        (by simp at hfuel; omega)
      have hmore := ih.members rest hms (by simp at hfuel; omega)
      have hname := readMembers_name hg hn hh hi fuel (t ++ (j ++ ',' :: (u ++ '}' :: rest)))
      rw [hread] at hname
      simpa [skipGap_append hj, skipGap_cons (c := ',') (by decide), hmore] using hname

theorem reads : ∀ fuel, Reads fuel := by
  intro fuel
  induction fuel with
  | zero =>
      refine ⟨?_, ?_, ?_⟩
      · intro t v rest h _ hfuel
        obtain ⟨c, u, rfl, -⟩ := spells_head h
        simp at hfuel
      · intro t vs rest _ hfuel
        omega
      · intro t ms rest _ hfuel
        omega
  | succ fuel ih =>
      exact ⟨fun _ => reads_value ih, fun _ => reads_items ih, fun _ => reads_members ih⟩

/-- **Every spelling of a value is read as this value**, also with blanks behind it. -/
theorem read?_spells {v : Json} (h : Spells t v) (hg : Gap g) : read? (t ++ g) = some v := by
  have hread := (reads (2 * (t ++ g).length + 2)).value g h (stops_of_gap hg) (by simp; omega)
  have hskip : skipGap g = [] := by
    rw [← List.append_nil g, skipGap_append hg]
    rfl
  rw [read?, hread]
  simp [hskip]

end LintFindings.Json
