/-
Words that are spelled in another way.

A word is looked up by its normal form, trimmed and in small ASCII letters.  No letter is a blank
in either case, so it does not matter which is done first (`trim_map_toLower`), and words that
differ in their margins and in ASCII case only have one normal form (`normalize_of_variant`).
-/
import LintFindings.Proofs.Text.Lines

namespace LintFindings.Text

variable {t u gap : Text}

theorem isBlank_toLower (c : Char) : isBlank c.toLower = isBlank c := by
  have hascii : ∀ n < 0x80, isBlank (Char.ofNat n).toLower = isBlank (Char.ofNat n) := by decide
  by_cases hc : c.toNat < 0x80
  · have hchar := hascii c.toNat hc
    rwa [Char.ofNat_toNat] at hchar
  · delta Char.toLower
    rw [dif_neg]
    rintro ⟨-, hle⟩
    exact hc (Nat.lt_of_le_of_lt (UInt32.le_iff_toNat_le.mp hle) (by decide))

theorem trim_map_toLower (t : Text) : trim (t.map Char.toLower) = (trim t).map Char.toLower := by
  have hblank : isBlank ∘ Char.toLower = isBlank := funext isBlank_toLower
  simp only [trim, trimEnd, trimStart, List.dropWhile_map, hblank, ← List.map_reverse]

theorem trim_append_left (hgap : ∀ c ∈ gap, isBlank c = true) (t : Text) :
    trim (gap ++ t) = trim t := by
  induction gap with
  | nil => rfl
  | cons c gap ih =>
      obtain ⟨hc, hgap⟩ := List.forall_mem_cons.mp hgap
      rw [List.cons_append, trim_cons_of_isBlank hc, ih hgap]

theorem trim_append_right (hgap : ∀ c ∈ gap, isBlank c = true) (t : Text) :
    trim (t ++ gap) = trim t := by
  induction gap generalizing t with
  | nil => rw [List.append_nil]
  | cons c gap ih =>
      obtain ⟨hc, hgap⟩ := List.forall_mem_cons.mp hgap
      rw [List.append_cons, ih hgap, trim_append_of_isBlank hc]

/-- The other spellings of a word: in any ASCII case, and between any blanks. -/
inductive Variant (t : Text) : Text → Prop
  | spelled {front u back : Text} (hfront : ∀ c ∈ front, isBlank c = true)
      (hcase : u.map Char.toLower = t.map Char.toLower) (hback : ∀ c ∈ back, isBlank c = true) :
      Variant t (front ++ (u ++ back))

/-- **All spellings of a word have one normal form.** -/
theorem normalize_of_variant (h : Variant t u) : normalize u = normalize t := by
  cases h with
  | @spelled front u back hfront hcase hback =>
      rw [normalize, normalize, trim_append_left hfront, trim_append_right hback,
        ← trim_map_toLower, hcase, trim_map_toLower]

end LintFindings.Text
