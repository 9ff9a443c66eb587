/-
Written JSON reads back.

`read? (write l v) = some v` holds for every layout that only puts blanks between
the parts, and for every value that can be spelled out at all: its strings are
texts, and where a number has a fraction, the fraction has digits.  `Spellable` is
that condition; what the program itself writes always meets it.

What is written is one of the spellings of the value (`spells_write`), by the
structure of the value, and the reader accepts every spelling.

At the end, one thing that the layout decides: on one line, every character of a
written value is above the controls, so there is no line feed among them.
-/
import LintFindings.Json.Writer
import LintFindings.Proofs.Json.Grammar

namespace LintFindings.Json

variable {t ds : Text} {l : Layout}

/-! ### Strings -/

theorem hexNumber?_control : ∀ n < 0x20,
    Text.hexNumber? ['0', '0', Text.smallHexDigit (n / 16), Text.smallHexDigit (n % 16)]
      = some n := by
  decide

/-- The writer takes one of the ways to write a character.  A control is no half of a surrogate
pair, so its unit stands for it alone. -/
theorem spellsChar_escape (c : Char) : SpellsChar (escape c) c := by
  unfold escape
  split
  case h_8 hquote hslash _ _ _ _ _ =>
    by_cases hc : c.toNat < 0x20
    · have hhigh : isHighUnit c.toNat = false := by simp [isHighUnit]; omega
      have hlow : isLowUnit c.toNat = false := by simp [isLowUnit]; omega
      have hunit := SpellsChar.unit (hexNumber?_control c.toNat hc) hhigh hlow
      rw [Char.ofNat_toNat] at hunit
      rw [if_pos hc]
      exact hunit
    · rw [if_neg hc]
      exact .plain (Nat.le_of_not_lt hc) hquote hslash
  -- the characters with a letter of their own
  all_goals exact .letter rfl

theorem spellsString_escape (s : Text) : SpellsString (s.flatMap escape) s := by
  induction s with
  | nil => exact .nil
  | cons c s ih => exact .cons (spellsChar_escape c) ih

/-! ### Numbers -/

/-- A number whose fraction, if it has one, has digits. -/
def Number.Spellable (n : Number) : Prop :=
  ∀ ds ∈ n.fraction, ds ≠ [] ∧ ∀ d ∈ ds, d.isDigit = true

theorem spellsExponent_write (exponent : Option Int) :
    SpellsExponent (writeExponent exponent) exponent := by
  cases exponent with
  | none => exact .none
  | some e =>
      have hne := Text.decimal_ne_nil e.natAbs
      have hds : ∀ d ∈ Text.decimal e.natAbs, d.isDigit = true := fun _ =>
        Text.isDigit_of_mem_decimal
      by_cases he : e < 0
      · have hvalue : -(Text.digitsValue (Text.decimal e.natAbs) : Int) = e := by
          rw [Text.digitsValue_decimal]
          omega
        have hspells := SpellsExponent.minus (Or.inl rfl) hne hds
        rw [hvalue] at hspells
        simpa [writeExponent, he] using hspells
      · have hvalue : (Text.digitsValue (Text.decimal e.natAbs) : Int) = e := by
          rw [Text.digitsValue_decimal]
          omega
        have hspells := SpellsExponent.plus (Or.inl rfl) (Or.inl rfl) hne hds
        rw [hvalue] at hspells
        simpa [writeExponent, he] using hspells

theorem spellsNumber_write {n : Number} (hn : n.Spellable) : SpellsNumber (writeNumber n) n := by
  have hfraction : SpellsFraction (writeFraction n.fraction) n.fraction := by
    cases hf : n.fraction with
    | none => exact .none
    | some ds =>
        obtain ⟨hne, hds⟩ := hn ds hf
        exact .some hne hds
  have hparts := SpellsNumber.parts hfraction (spellsExponent_write n.exponent)
  simpa [writeNumber] using hparts

/-! ### Values -/

/-- A layout that puts nothing but blanks between the parts. -/
structure Layout.AddsBlanks (l : Layout) : Prop where
  gap : ∀ level, Gap (l.gap level)
  colon : ∃ g, l.colon = ':' :: g ∧ Gap g

theorem Layout.addsBlanks_ofPretty (pretty : Bool) : (Layout.ofPretty pretty).AddsBlanks := by
  cases pretty with
  | false => exact ⟨fun _ => gap_nil, [], rfl, gap_nil⟩
  | true =>
      refine ⟨?_, [' '], rfl, by simp [Gap, isGap]⟩
      intro level c hc
      rcases List.mem_cons.mp hc with rfl | hc'
      · rfl
      · rw [(List.mem_replicate.mp hc').2]
        rfl

mutual

/-- Whether a value can be spelled out: its strings are texts, and its fractions have digits. -/
def Spellable : Json → Prop
  | .number n => n.Spellable
  | .string s => s.isSome
  | .array items => SpellableItems items
  | .object members => SpellableMembers members
  | _ => True

/-- Whether all items can be spelled out. -/
def SpellableItems : List Json → Prop
  | [] => True
  | v :: vs => Spellable v ∧ SpellableItems vs

/-- Whether all members can be spelled out. -/
def SpellableMembers : List (Option Text × Json) → Prop
  | [] => True
  | (name, v) :: ms => name.isSome ∧ Spellable v ∧ SpellableMembers ms

end

theorem spells_writeString (s : Text) : Spells (writeString (some s)) (.string (some s)) :=
  .string (spellsString_escape s)

mutual

/-- A written value is spelled. -/
theorem spells_writeAt (hl : l.AddsBlanks) (level : Nat) :
    ∀ v, Spellable v → Spells (writeAt l level v) v
  | .null, _ => .null
  | .bool true, _ => .true
  | .bool false, _ => .false
  | .number _, hn => .number (spellsNumber_write hn)
  | .string (some s), _ => spells_writeString s
  | .array [], _ => .emptyArray gap_nil
  | .array (v :: vs), h => by
      have hitems := spells_writeItems hl (level + 1) vs (hl.gap (level + 1))
        (spells_writeAt hl (level + 1) v h.1) h.2 (hl.gap level)
      simpa [writeAt] using Spells.array hitems
  | .object [], _ => .emptyObject gap_nil
  | .object ((some name, v) :: ms), h => by
      have hmembers := spells_writeMembers hl (level + 1) ms name (hl.gap (level + 1))
        (spells_writeAt hl (level + 1) v h.2.1) h.2.2 (hl.gap level)
      simpa [writeAt, writeString] using Spells.object hmembers

/-- Items behind a spelled one. -/
theorem spells_writeItems (hl : l.AddsBlanks) (level : Nat) :
    ∀ vs {g t close : Text} {v : Json}, Gap g → Spells t v → SpellableItems vs → Gap close →
      SpellsItems (g ++ (t ++ (writeItems l level vs ++ close))) (v :: vs)
  | [], g, t, close, v, hg, hv, _, hclose => .last hg hv hclose
  | w :: ws, g, t, close, v, hg, hv, h, hclose => by
      have hrest := spells_writeItems hl level ws (hl.gap level) (spells_writeAt hl level w h.1)
        h.2 hclose
      simpa [writeItems] using SpellsItems.more hg hv gap_nil hrest

/-- Members behind a name and a spelled value. -/
theorem spells_writeMembers (hl : l.AddsBlanks) (level : Nat) :
    ∀ ms (name : Text) {g t close : Text} {v : Json}, Gap g → Spells t v → SpellableMembers ms →
      Gap close → SpellsMembers (g ++ (writeString (some name) ++
        (l.colon ++ (t ++ (writeMembers l level ms ++ close))))) ((some name, v) :: ms)
  | [], name, g, t, close, v, hg, hv, _, hclose => by
      obtain ⟨i, hcolon, hi⟩ := hl.colon
      have hmember := SpellsMembers.last hg (spellsString_escape name) gap_nil hi hv hclose
      simpa [writeMembers, writeString, hcolon] using hmember
  | (some other, w) :: ms, name, g, t, close, v, hg, hv, h, hclose => by
      obtain ⟨i, hcolon, hi⟩ := hl.colon
      have hrest := spells_writeMembers hl level ms other (hl.gap level)
        (spells_writeAt hl level w h.2.1) h.2.2 hclose
      have hmember := SpellsMembers.more hg (spellsString_escape name) gap_nil hi hv gap_nil hrest
      simpa [writeMembers, writeString, hcolon] using hmember

end

/-- **What is written is a spelling of the value.** -/
theorem spells_write (hl : l.AddsBlanks) {v : Json} (hv : Spellable v) : Spells (write l v) v :=
  spells_writeAt hl 0 v hv

/-- **What is written reads back.** -/
theorem read?_write (hl : l.AddsBlanks) {v : Json} (hv : Spellable v) :
    read? (write l v) = some v := by
  have hread := read?_spells (spells_write hl hv) gap_nil
  rwa [List.append_nil] at hread

/-! ### Controls

A layout may put controls between the parts, and the indented one does.  The
parts themselves have none: a string spells its controls out, and a number has
digits and signs only.
-/

/-- No controls. -/
def Printable (t : Text) : Prop := ∀ c ∈ t, 0x20 ≤ c.toNat

@[simp] theorem printable_nil : Printable [] := by simp [Printable]

@[simp] theorem printable_cons {c : Char} : Printable (c :: t) ↔ 0x20 ≤ c.toNat ∧ Printable t := by
  simp [Printable]

@[simp] theorem printable_append {t u : Text} : Printable (t ++ u) ↔ Printable t ∧ Printable u := by
  simp [Printable, or_imp, forall_and]

theorem printable_digits (h : ∀ d ∈ ds, d.isDigit = true) : Printable ds := by
  intro d hd
  have hdigit := h d hd
  simp only [Char.isDigit, Bool.and_eq_true, decide_eq_true_eq, UInt32.le_iff_toNat_le] at hdigit
  exact Nat.le_trans (by decide) hdigit.1

theorem printable_escape (c : Char) : Printable (escape c) := by
  have hdigit : ∀ n < 0x20, 0x20 ≤ (Text.smallHexDigit (n / 16)).toNat ∧
      0x20 ≤ (Text.smallHexDigit (n % 16)).toNat := by decide
  unfold escape
  split
  case h_8 =>
    by_cases hc : c.toNat < 0x20
    · rw [if_pos hc]
      simp [hdigit c.toNat hc]
    · rw [if_neg hc]
      simpa using Nat.le_of_not_lt hc
  all_goals simp

theorem printable_writeString (s : Option Text) : Printable (writeString s) := by
  cases s with
  | none => simp [writeString]
  | some s =>
      have hbody : Printable (s.flatMap escape) := by
        intro d hd
        obtain ⟨c, -, hc⟩ := List.mem_flatMap.mp hd
        exact printable_escape c d hc
      simp [writeString, hbody]

theorem printable_writeNumber {n : Number} (hn : n.Spellable) : Printable (writeNumber n) := by
  have hdecimal (m : Nat) : Printable (Text.decimal m) :=
    printable_digits fun _ => Text.isDigit_of_mem_decimal
  have hfraction : Printable (writeFraction n.fraction) := by
    cases hf : n.fraction with
    | none => simp [writeFraction]
    | some ds => simp [writeFraction, printable_digits (hn ds hf).2]
  have hexponent : Printable (writeExponent n.exponent) := by
    cases n.exponent with
    | none => simp [writeExponent]
    | some e => by_cases he : e < 0 <;> simp [writeExponent, he, hdecimal]
  have hsign : Printable (if n.negative then ['-'] else []) := by
    cases n.negative <;> simp
  simp [writeNumber, hsign, hdecimal, hfraction, hexponent]

@[simp] theorem printable_gap (level : Nat) : Printable (Layout.compact.gap level) := by
  simp [Layout.compact]

@[simp] theorem printable_colon : Printable Layout.compact.colon := by simp [Layout.compact]

mutual

theorem printable_writeAt (level : Nat) :
    ∀ v, Spellable v → Printable (writeAt .compact level v)
  | .null, _ => by simp [writeAt]
  | .bool true, _ => by simp [writeAt]
  | .bool false, _ => by simp [writeAt]
  | .number _, hn => printable_writeNumber hn
  | .string s, _ => printable_writeString s
  | .array [], _ => by simp [writeAt]
  | .array (v :: vs), h => by
      simp [writeAt, printable_writeAt (level + 1) v h.1,
        printable_writeItems (level + 1) vs h.2]
  | .object [], _ => by simp [writeAt]
  | .object ((name, v) :: ms), h => by
      simp [writeAt, printable_writeString, printable_writeAt (level + 1) v h.2.1,
        printable_writeMembers (level + 1) ms h.2.2]

theorem printable_writeItems (level : Nat) :
    ∀ vs, SpellableItems vs → Printable (writeItems .compact level vs)
  | [], _ => by simp [writeItems]
  | v :: vs, h => by
      simp [writeItems, printable_writeAt level v h.1, printable_writeItems level vs h.2]

theorem printable_writeMembers (level : Nat) :
    ∀ ms, SpellableMembers ms → Printable (writeMembers .compact level ms)
  | [], _ => by simp [writeMembers]
  | (name, v) :: ms, h => by
      simp [writeMembers, printable_writeString, printable_writeAt level v h.2.1,
        printable_writeMembers level ms h.2.2]

end

/-- **On one line there is no line feed.** -/
theorem newline_notMem_write {v : Json} (hv : Spellable v) : '\n' ∉ write .compact v :=
  fun h => absurd (printable_writeAt 0 v hv '\n' h) (by decide)

end LintFindings.Json
