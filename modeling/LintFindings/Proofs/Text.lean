/-
Facts about texts that every reader and writer rests on.

Three things are settled here.  A run of characters of one kind, followed by a
character of another kind, is found again by `takeWhile` and `dropWhile`.  The
decimal digits of a number begin with a zero only for zero itself and stand for
the number they were written from.  And a trimmed text is `Bare`: it has no
blank at either end, so trimming it once more changes nothing.
-/
import LintFindings.Text.Decimal
import Mathlib.Data.List.DropRight

namespace LintFindings.Text

/-! ### Runs -/

section

variable {α : Type} {p : α → Bool} {run rest : List α}

theorem takeWhile_run (hrun : ∀ a ∈ run, p a = true) (hrest : ∀ a ∈ rest.head?, p a = false) :
    (run ++ rest).takeWhile p = run := by
  rw [List.takeWhile_append_of_pos hrun]
  cases rest with
  | nil => simp
  | cons a rest => simp [hrest a rfl]

theorem dropWhile_run (hrun : ∀ a ∈ run, p a = true) (hrest : ∀ a ∈ rest.head?, p a = false) :
    (run ++ rest).dropWhile p = rest := by
  rw [List.dropWhile_append_of_pos hrun]
  cases rest with
  | nil => simp
  | cons a rest => simp [hrest a rfl]

theorem head?_cons_of {P : α → Prop} {a : α} (h : P a) : ∀ b ∈ (a :: rest).head?, P b := by
  intro b hb
  rwa [← Option.some.inj hb]

/-- A condition on the first character holds of a joined text if it holds of both parts. -/
theorem head?_append_of {P : α → Prop} (hrun : ∀ a ∈ run.head?, P a)
    (hrest : ∀ a ∈ rest.head?, P a) : ∀ a ∈ (run ++ rest).head?, P a := by
  cases run with
  | nil => exact hrest
  | cons a run => exact hrun

/-- A condition on the last character of a joined text holds of its second part. -/
theorem getLast?_of_append {P : α → Prop} (h : ∀ a ∈ (run ++ rest).getLast?, P a) :
    ∀ a ∈ rest.getLast?, P a := by
  intro a ha
  refine h a ?_
  rw [List.getLast?_append, show rest.getLast? = some a from ha]
  rfl

end

/-! ### Decimal digits -/

theorem isDigit_of_mem_decimal {n : Nat} {d : Char} (h : d ∈ decimal n) : d.isDigit = true :=
  Nat.isDigit_of_mem_toDigits (by decide) (by decide) h

theorem decimal_ne_nil (n : Nat) : decimal n ≠ [] := Nat.toDigits_ne_nil

theorem digitsValue_decimal (n : Nat) : digitsValue (decimal n) = n :=
  Nat.ofDigitChars_ten_toDigits

/-- The digits of a number begin with some digit. -/
theorem decimal_eq_cons (n : Nat) : ∃ d ds, decimal n = d :: ds ∧ d.isDigit = true := by
  cases hd : decimal n with
  | nil => exact absurd hd (decimal_ne_nil n)
  | cons d ds =>
      have hmem : d ∈ decimal n := by rw [hd]; exact List.mem_cons_self
      exact ⟨d, ds, rfl, isDigit_of_mem_decimal hmem⟩

/-- There are no leading zeros. -/
theorem decimal_of_head? {n : Nat} (h : (decimal n).head? = some '0') : decimal n = ['0'] := by
  have hsmall : ∀ n < 10, [n.digitChar].head? = some '0' → n = 0 := by decide
  suffices hzero : n = 0 by rw [hzero]; rfl
  induction n using Nat.strongRecOn with
  | ind n ih =>
      by_cases hn : n < 10
      · rw [decimal, Nat.toDigits_of_lt_base hn] at h
        exact hsmall n hn h
      · rw [decimal, Nat.toDigits_of_base_le (by decide) (by omega), List.head?_append,
          ← decimal] at h
        have hlead : (decimal (n / 10)).head? = some '0' := by
          obtain ⟨d, ds, hd, -⟩ := decimal_eq_cons (n / 10)
          rw [hd] at h ⊢
          exact h
        have := ih (n / 10) (by omega) hlead
        omega

/-! ### Beginnings -/

theorem after?_eq_some_iff {start t u : Text} : after? start t = some u ↔ t = start ++ u := by
  induction start generalizing t with
  | nil => simp [after?, eq_comm]
  | cons a start ih =>
      cases t with
      | nil => simp [after?]
      | cons b t =>
          by_cases hab : a = b
          · simp [after?, hab, ih]
          · simp [after?, hab, Ne.symm hab]

/-! ### Letters and digits -/

theorem toNat_of_isAlphanum {c : Char} (h : c.isAlphanum = true) :
    48 ≤ c.toNat ∧ c.toNat ≤ 122 := by
  delta Char.isAlphanum Char.isAlpha Char.isUpper Char.isLower Char.isDigit at h
  simp only [Bool.or_eq_true, Bool.and_eq_true, decide_eq_true_eq, ge_iff_le,
    UInt32.le_iff_toNat_le] at h
  rcases h with (h | h) | h <;>
    exact ⟨Nat.le_trans (by decide) h.1, Nat.le_trans h.2 (by decide)⟩

theorem isBlank_of_isAlphanum {c : Char} (h : c.isAlphanum = true) : isBlank c = false := by
  have hrange := toNat_of_isAlphanum h
  simp [isBlank]
  omega

theorem isAlphanum_of_isDigit {c : Char} (h : c.isDigit = true) : c.isAlphanum = true := by
  simp [Char.isAlphanum, h]

theorem isAlphanum_of_isAlpha {c : Char} (h : c.isAlpha = true) : c.isAlphanum = true := by
  simp [Char.isAlphanum, h]

theorem isAlpha_of_isDigit {c : Char} (h : c.isDigit = true) : c.isAlpha = false := by
  delta Char.isDigit at h
  delta Char.isAlpha Char.isUpper Char.isLower
  simp only [Bool.and_eq_true, decide_eq_true_eq, ge_iff_le, UInt32.le_iff_toNat_le] at h
  simp only [Bool.or_eq_false_iff, Bool.and_eq_false_iff, decide_eq_false_iff_not, ge_iff_le,
    UInt32.le_iff_toNat_le]
  exact ⟨fun hupper => absurd (Nat.le_trans hupper.1 h.2) (by decide),
    Or.inl fun hlower => absurd (Nat.le_trans hlower h.2) (by decide)⟩

theorem isAlpha_of_toLower {c : Char} (h : c.toLower.isAlpha = true) : c.isAlpha = true := by
  delta Char.toLower at h
  split at h
  · rename_i hupper
    exact (Bool.or_eq_true _ _).mpr (Or.inl (decide_eq_true hupper))
  · exact h

/-! ### Margins -/

/-- No blank at either end. -/
structure Bare (t : Text) : Prop where
  first : ∀ c ∈ t.head?, isBlank c = false
  last : ∀ c ∈ t.getLast?, isBlank c = false

theorem trimStart_head (t : Text) : ∀ c ∈ (trimStart t).head?, isBlank c = false := by
  intro c hc
  have h := List.head?_dropWhile_not isBlank t
  rw [show (t.dropWhile isBlank).head? = some c from hc] at h
  exact h

theorem trimEnd_prefix (t : Text) : trimEnd t <+: t := List.rdropWhile_prefix isBlank t

theorem trimEnd_getLast (t : Text) : ∀ c ∈ (trimEnd t).getLast?, isBlank c = false := by
  intro c hc
  rw [trimEnd, List.getLast?_reverse] at hc
  exact trimStart_head t.reverse c hc

/-- What is cut off the end of a text is a row of blanks. -/
theorem exists_trimEnd (t : Text) : ∃ gap, (∀ c ∈ gap, isBlank c = true) ∧ t = trimEnd t ++ gap := by
  refine ⟨(t.reverse.takeWhile isBlank).reverse, ?_, ?_⟩
  · intro c hc
    exact List.mem_takeWhile_imp (List.mem_reverse.mp hc)
  · rw [trimEnd, ← List.reverse_append, List.takeWhile_append_dropWhile, List.reverse_reverse]

theorem trimEnd_append {t gap : Text} (ht : ∀ c ∈ t.getLast?, isBlank c = false)
    (hgap : ∀ c ∈ gap, isBlank c = true) : trimEnd (t ++ gap) = t := by
  have hlast : ∀ c ∈ t.reverse.head?, isBlank c = false := by
    rw [List.head?_reverse]
    exact ht
  rw [trimEnd, List.reverse_append,
    dropWhile_run (fun c hc => hgap c (List.mem_reverse.mp hc)) hlast, List.reverse_reverse]

theorem trimEnd_eq_nil_iff {t : Text} : trimEnd t = [] ↔ ∀ c ∈ t, isBlank c = true :=
  List.rdropWhile_eq_nil_iff

theorem bare_trim (t : Text) : Bare (trim t) := by
  refine ⟨?_, ?_⟩
  · intro c hc
    obtain ⟨rest, hrest⟩ := trimEnd_prefix (trimStart t)
    refine trimStart_head t c ?_
    rw [← hrest, List.head?_append, show (trimEnd (trimStart t)).head? = some c from hc]
    rfl
  · exact trimEnd_getLast (trimStart t)

theorem trim_isInfix (t : Text) : trim t <:+: t := by
  have hfront := trimEnd_prefix (trimStart t)
  exact hfront.isInfix.trans (List.dropWhile_suffix isBlank).isInfix

theorem trimStart_of_bare {t : Text} (h : Bare t) : trimStart t = t := by
  cases t with
  | nil => rfl
  | cons c t => simp [trimStart, h.first c rfl]

theorem trimEnd_of_bare {t : Text} (h : Bare t) : trimEnd t = t := by
  have hback : Bare t.reverse := by
    refine ⟨?_, ?_⟩
    · intro c hc
      rw [List.head?_reverse] at hc
      exact h.last c hc
    · intro c hc
      rw [List.getLast?_reverse] at hc
      exact h.first c hc
  rw [trimEnd, ← trimStart, trimStart_of_bare hback, List.reverse_reverse]

/-- A text without blanks at its ends is its own trimmed form. -/
theorem trim_of_bare {t : Text} (h : Bare t) : trim t = t := by
  rw [trim, trimStart_of_bare h, trimEnd_of_bare h]

theorem bare_of_forall {t : Text} (h : ∀ c ∈ t, isBlank c = false) : Bare t :=
  ⟨fun c hc => h c (List.mem_of_mem_head? hc), fun c hc => h c (List.mem_of_mem_getLast? hc)⟩

@[simp] theorem trim_trim (t : Text) : trim (trim t) = trim t := trim_of_bare (bare_trim t)

/-- Only a text of blanks has nothing left. -/
theorem trim_eq_nil_iff {t : Text} : trim t = [] ↔ ∀ c ∈ t, isBlank c = true := by
  rw [trim, trimEnd_eq_nil_iff]
  constructor
  · intro h c hc
    rw [← List.takeWhile_append_dropWhile (p := isBlank) (l := t)] at hc
    rcases List.mem_append.mp hc with hc | hc
    · exact List.mem_takeWhile_imp hc
    · exact h c hc
  · intro h c hc
    exact h c ((List.dropWhile_suffix isBlank).subset hc)

theorem trim_ne_nil_of_mem {t : Text} {c : Char} (hc : c ∈ t) (hblank : isBlank c = false) :
    trim t ≠ [] := by
  intro h
  rw [trim_eq_nil_iff.mp h c hc] at hblank
  exact Bool.noConfusion hblank

theorem trimmed?_eq_none_iff {t : Text} : trimmed? t = none ↔ trim t = [] := by
  unfold trimmed?
  split
  · rename_i h
    simp [h]
  · rename_i hne
    simpa using hne

theorem trimmed?_eq_some_iff {t u : Text} : trimmed? t = some u ↔ trim t = u ∧ u ≠ [] := by
  unfold trimmed?
  split
  · rename_i h
    simp only [h, reduceCtorEq, false_iff, not_and]
    exact fun hu hne => hne hu.symm
  · rename_i hne
    rw [Option.some.injEq]
    exact ⟨fun h => ⟨h, fun hu => hne (h.trans hu)⟩, fun h => h.1⟩

theorem subset_of_trimmed? {s t u : Text} (h : trimmed? s = some u) (hs : s ⊆ t) : u ⊆ t := by
  obtain ⟨rfl, -⟩ := trimmed?_eq_some_iff.mp h
  exact List.Subset.trans (trim_isInfix s).subset hs

theorem trimmed?_of_bare {t : Text} (h : Bare t) (hne : t ≠ []) : trimmed? t = some t :=
  trimmed?_eq_some_iff.mpr ⟨trim_of_bare h, hne⟩

theorem trimmed?_of_forall {t : Text} (h : ∀ c ∈ t, isBlank c = false) (hne : t ≠ []) :
    trimmed? t = some t :=
  trimmed?_of_bare (bare_of_forall h) hne

theorem trim_ne_nil_of_trimmed? {t u : Text} (h : trimmed? t = some u) : trim u ≠ [] := by
  obtain ⟨rfl, hne⟩ := trimmed?_eq_some_iff.mp h
  rwa [trim_trim]

end LintFindings.Text
