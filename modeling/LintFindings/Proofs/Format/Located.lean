/-
What a match keeps of the pieces of a line.

The text formats cut a line into pieces in their own ways and then make a match of the
pieces in one way.  A number among them is found as a run of digits of any script
(`digitRun?_eq_some_iff`), but it is read only if it is a `Numeral`, a row of ASCII digits
with a value of thirty-two bits.  What else a match has to do with its pieces is `Makes`.
-/
import LintFindings.Format.Located
import LintFindings.Proofs.Unicode

namespace LintFindings

/-! ### Numbers -/

namespace Text

variable {t u ds : Text} {n : UInt32}

/-- A row of ASCII digits, and the number that it stands for. -/
structure Numeral (t : Text) (n : UInt32) : Prop where
  ne : t ≠ []
  digits : ∀ c ∈ t, c.isDigit = true
  value : digitsValue t = n.toNat

instance (t : Text) (n : UInt32) : Decidable (Numeral t n) :=
  decidable_of_iff (t ≠ [] ∧ t.all Char.isDigit = true ∧ digitsValue t = n.toNat)
    ⟨fun h => ⟨h.1, List.all_eq_true.mp h.2.1, h.2.2⟩,
      fun h => ⟨h.ne, List.all_eq_true.mpr h.digits, h.value⟩⟩

theorem numeral_decimal (n : UInt32) : Numeral (decimal n.toNat) n :=
  ⟨decimal_ne_nil _, fun _ hc => isDigit_of_mem_decimal hc, digitsValue_decimal _⟩

theorem uint32?_of_numeral (h : Numeral t n) : uint32? t = some n := by
  have hlimit : n.toNat ≤ UInt32.size - 1 := Nat.le_sub_one_of_lt n.toNat_lt
  rw [uint32?, unsigned?.eq_2]
  · rw [if_pos ⟨h.ne, List.all_eq_true.mpr h.digits⟩]
    dsimp only
    rw [h.value, if_pos hlimit, Option.map_some, UInt32.ofNat_toNat]
  · intro ds heq
    have hplus := h.digits '+' (by simp [heq])
    exact absurd hplus (by decide)

theorem uint32?_decimal (n : UInt32) : uint32? (decimal n.toNat) = some n :=
  uint32?_of_numeral (numeral_decimal n)

/-- What is read as a number is a numeral, but for a plus sign in front of it. -/
theorem numeral_of_uint32? (h : uint32? t = some n) (hplus : '+' ∉ t) : Numeral t n := by
  obtain ⟨k, hk, rfl⟩ := Option.map_eq_some_iff.mp h
  rw [unsigned?.eq_2 _ _ fun ds heq => hplus (by simp [heq])] at hk
  split at hk
  · rename_i hgood
    dsimp only at hk
    split at hk
    · rename_i hlimit
      have hsize : k < UInt32.size := by
        rw [← Option.some.inj hk]
        exact Nat.lt_of_le_pred (by decide) hlimit
      refine ⟨hgood.1, List.all_eq_true.mp hgood.2, ?_⟩
      exact (Option.some.inj hk).trans (UInt32.toNat_ofNat_of_lt' hsize).symm
    · cases hk
  · cases hk

/-- One or more decimal digits of any script. -/
structure DigitRun (t : Text) : Prop where
  ne : t ≠ []
  digits : ∀ c ∈ t, Unicode.isDecimalDigit c = true

theorem Numeral.digitRun (h : Numeral t n) : DigitRun t :=
  ⟨h.ne, fun c hc => Unicode.isDecimalDigit_of_isDigit (h.digits c hc)⟩

theorem DigitRun.plus_notMem (h : DigitRun t) : '+' ∉ t :=
  fun hplus => absurd (h.digits '+' hplus) (by decide)

/-- A run of digits ends where the digits end. -/
theorem digitRun?_eq_some_iff : digitRun? t = some (ds, u) ↔
    DigitRun ds ∧ t = ds ++ u ∧ ∀ c ∈ u.head?, Unicode.isDecimalDigit c = false := by
  constructor
  · intro h
    unfold digitRun? at h
    split at h
    · cases h
    · rename_i hne
      obtain ⟨rfl, rfl⟩ := Prod.mk.inj (Option.some.inj h)
      refine ⟨⟨hne, fun _ => List.mem_takeWhile_imp⟩, List.takeWhile_append_dropWhile.symm, ?_⟩
      intro c hc
      have hstop := List.head?_dropWhile_not Unicode.isDecimalDigit t
      rw [hc] at hstop
      exact hstop
  · rintro ⟨hds, rfl, hu⟩
    rw [digitRun?, takeWhile_run hds.digits hu, dropWhile_run hds.digits hu]
    cases ds with
    | nil => exact absurd rfl hds.ne
    | cons d ds => rfl

theorem DigitRun.digitRun?_colon (h : DigitRun ds) :
    digitRun? (ds ++ ':' :: u) = some (ds, ':' :: u) :=
  digitRun?_eq_some_iff.mpr ⟨h, rfl, head?_cons_of rfl⟩

end Text

/-! ### Matches -/

namespace Located

variable {p : Located} {m : LineMatch}

/-- A match is made of the pieces of a line: each text without its margins, each number by its
value, and the code for the rule where no other rule is given. -/
structure Makes (p : Located) (m : LineMatch) : Prop where
  file : Text.trimmed? p.file = some m.file
  message : Text.trimmed? p.message = some m.message
  line : ∃ n, Text.uint32? p.line = some n ∧ m.line = some n
  column : Text.optionalUint32? p.column = some m.column
  severity : m.severity = p.severity.bind Text.trimmed?
  rule : m.rule = (p.rule.bind Text.trimmed?).or (p.code.bind Text.trimmed?)
  endLine : m.endLine = none
  endColumn : m.endColumn = none
  helpUri : m.helpUri = none

theorem lineMatch?_eq_some_iff : p.lineMatch? = some m ↔ p.Makes m := by
  constructor
  · intro h
    obtain ⟨file, hfile, h⟩ := Option.bind_eq_some_iff.mp h
    obtain ⟨message, hmessage, h⟩ := Option.bind_eq_some_iff.mp h
    obtain ⟨line, hline, h⟩ := Option.bind_eq_some_iff.mp h
    obtain ⟨column, hcolumn, h⟩ := Option.bind_eq_some_iff.mp h
    obtain rfl := Option.some.inj h
    exact ⟨hfile, hmessage, ⟨line, hline, rfl⟩, hcolumn, rfl, rfl, rfl, rfl, rfl⟩
  · intro h
    obtain ⟨n, hn, hline⟩ := h.line
    rw [lineMatch?, h.file, h.message, hn, h.column, ← h.severity, ← h.rule]
    cases m with
    | mk file line column endLine endColumn severity rule helpUri message =>
        obtain rfl : line = some n := hline
        obtain rfl : endLine = none := h.endLine
        obtain rfl : endColumn = none := h.endColumn
        obtain rfl : helpUri = none := h.helpUri
        rfl

end Located

end LintFindings
