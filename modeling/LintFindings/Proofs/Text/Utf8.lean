/-
Reading bytes gives back the text that they were made of.

A character takes one to four bytes, and its number is written in digits of six bits: the
first byte has the highest of them and tells how many follow.  Which second bytes may
follow depends on the first one, and the bytes of a character are always among them
(`lead?_three`, `lead?_four`), because no character has a number that needs fewer bytes,
or one of a surrogate, or one above the last.

Bytes that are no text are read as well, and what is lost then is only ever a broken
character.  An ASCII byte ends what was begun before it and is read on its own
(`decodeLossy_append_ascii`), and a line feed comes from no other byte, so the lines of any
bytes can be read one by one (`pieces_decodeLossy`).
-/
import LintFindings.Proofs.Text.Lines
import LintFindings.Text.Utf8
import Mathlib.Tactic.SplitIfs

namespace LintFindings.Utf8

variable {b b₁ b₂ b₃ c low high : UInt8} {bits m n : Nat} {rest : List UInt8}

/-! ### Bytes -/

theorem toNat_ofNat (hn : n < 256) : (UInt8.ofNat n).toNat = n := UInt8.toNat_ofNat_of_lt' hn

theorem le_ofNat (hm : m < 256) (hn : n < 256) : UInt8.ofNat m ≤ UInt8.ofNat n ↔ m ≤ n := by
  rw [UInt8.le_iff_toNat_le, toNat_ofNat hm, toNat_ofNat hn]

/-- A byte with six bits of a character. -/
def tail (n : Nat) : UInt8 := UInt8.ofNat (n + 0x80)

theorem extend_tail (bits : Nat) (hn : n < 64) : extend bits (tail n) = bits * 64 + n := by
  have hbyte : (tail n).toNat = n + 0x80 := toNat_ofNat (by omega)
  unfold extend
  omega

theorem tail_bounds (hm : m < 64) (h : n ≤ m) {k : Nat} (h' : m ≤ k) (hk : k < 64) :
    tail n ≤ tail m ∧ tail m ≤ tail k :=
  ⟨(le_ofNat (by omega) (by omega)).mpr (by omega), (le_ofNat (by omega) (by omega)).mpr (by omega)⟩

theorem isContinuation_tail (hn : n < 64) : isContinuation (tail n) = true := by
  obtain ⟨hlow, hhigh⟩ := tail_bounds hn (Nat.zero_le n) (Nat.le_of_lt_succ hn) (by omega)
  rw [isContinuation, Bool.and_eq_true]
  exact ⟨decide_eq_true hlow, decide_eq_true hhigh⟩

theorem lead?_two (h : 2 ≤ n) (h' : n < 32) :
    lead? (UInt8.ofNat (n + 0xC0)) = some ⟨tail 0, tail 63, 0, n⟩ := by
  rw [lead?, toNat_ofNat (by omega), if_pos (by omega), Nat.add_sub_cancel]
  rfl

theorem lead?_three (hn : n < 16) (hm : m < 64) (hlong : n = 0 → 32 ≤ m)
    (hsurrogate : n = 13 → m < 32) :
    ∃ low high, lead? (UInt8.ofNat (n + 0xE0)) = some ⟨low, high, 1, n⟩ ∧
      low ≤ tail m ∧ tail m ≤ high := by
  by_cases h0 : n = 0
  · rw [h0]
    exact ⟨tail 32, tail 63, rfl, tail_bounds hm (hlong h0) (by omega) (by omega)⟩
  · by_cases h13 : n = 13
    · have := hsurrogate h13
      rw [h13]
      exact ⟨tail 0, tail 31, rfl, tail_bounds hm (by omega) (by omega) (by omega)⟩
    · refine ⟨tail 0, tail 63, ?_, tail_bounds hm (by omega) (by omega) (by omega)⟩
      rw [lead?, toNat_ofNat (by omega), if_neg (by omega), if_neg (by omega), if_neg (by omega),
        if_pos (by omega), Nat.add_sub_cancel]
      rfl

theorem lead?_four (hn : n < 5) (hm : m < 64) (hlong : n = 0 → 16 ≤ m) (hlast : n = 4 → m < 16) :
    ∃ low high, lead? (UInt8.ofNat (n + 0xF0)) = some ⟨low, high, 2, n⟩ ∧
      low ≤ tail m ∧ tail m ≤ high := by
  by_cases h0 : n = 0
  · rw [h0]
    exact ⟨tail 16, tail 63, rfl, tail_bounds hm (hlong h0) (by omega) (by omega)⟩
  · by_cases h4 : n = 4
    · have := hlast h4
      rw [h4]
      exact ⟨tail 0, tail 15, rfl, tail_bounds hm (by omega) (by omega) (by omega)⟩
    · refine ⟨tail 0, tail 63, ?_, tail_bounds hm (by omega) (by omega) (by omega)⟩
      rw [lead?, toNat_ofNat (by omega), if_neg (by omega), if_neg (by omega), if_neg (by omega),
        if_neg (by omega), if_neg (by omega), if_neg (by omega), if_pos (by omega),
        Nat.add_sub_cancel]
      rfl

/-! ### Characters -/

/-- No byte that begins a longer character is ASCII. -/
theorem not_lt_of_lead? {l : Lead} (h : lead? b = some l) : ¬ b < 0x80 := by
  intro hb
  have hn : b.toNat < 0x80 := hb
  rw [lead?, if_neg (by omega), if_neg (by omega), if_neg (by omega), if_neg (by omega),
    if_neg (by omega), if_neg (by omega), if_neg (by omega)] at h
  cases h

theorem decodeLossy_two (hl : lead? b = some ⟨low, high, 0, bits⟩) (h : low ≤ b₁ ∧ b₁ ≤ high) :
    decodeLossy (b :: b₁ :: rest) = Char.ofNat (extend bits b₁) :: decodeLossy rest := by
  rw [decodeLossy, if_neg (not_lt_of_lead? hl), hl]
  simp [h]

theorem decodeLossy_three (hl : lead? b = some ⟨low, high, 1, bits⟩) (h : low ≤ b₁ ∧ b₁ ≤ high)
    (h₂ : isContinuation b₂ = true) :
    decodeLossy (b :: b₁ :: b₂ :: rest)
      = Char.ofNat (extend (extend bits b₁) b₂) :: decodeLossy rest := by
  rw [decodeLossy, if_neg (not_lt_of_lead? hl), hl]
  simp [h, h₂]

theorem decodeLossy_four (hl : lead? b = some ⟨low, high, 2, bits⟩) (h : low ≤ b₁ ∧ b₁ ≤ high)
    (h₂ : isContinuation b₂ = true) (h₃ : isContinuation b₃ = true) :
    decodeLossy (b :: b₁ :: b₂ :: b₃ :: rest)
      = Char.ofNat (extend (extend (extend bits b₁) b₂) b₃) :: decodeLossy rest := by
  rw [decodeLossy, if_neg (not_lt_of_lead? hl), hl]
  simp [h, h₂, h₃]

theorem decodeLossy_encodeChar (c : Char) (rest : List UInt8) :
    decodeLossy (String.utf8EncodeChar c ++ rest) = c :: decodeLossy rest := by
  have hvalid : c.val.toNat < 0xD800 ∨ 0xDFFF < c.val.toNat ∧ c.val.toNat < 0x110000 := c.valid
  have hchar : Char.ofNat c.val.toNat = c := Char.ofNat_toNat c
  simp only [String.utf8EncodeChar]
  generalize c.val.toNat = n at hvalid hchar
  have h64 : n % 64 < 64 := Nat.mod_lt n (by omega)
  have h64' : n / 64 % 64 < 64 := Nat.mod_lt _ (by omega)
  have h64'' : n / 4096 % 64 < 64 := Nat.mod_lt _ (by omega)
  split_ifs with h1 h2 h3
  · have hb : UInt8.ofNat n < 0x80 := by
      rw [UInt8.lt_iff_toNat_lt, toNat_ofNat (by omega)]
      exact Nat.lt_of_le_of_lt h1 (by decide)
    rw [List.singleton_append, decodeLossy, if_pos hb, toNat_ofNat (by omega), hchar]
  · have hn : n / 64 % 32 * 64 + n % 64 = n := by omega
    have hlead := lead?_two (n := n / 64 % 32) (by omega) (by omega)
    refine (decodeLossy_two hlead (tail_bounds h64 (by omega) (by omega) (by omega))).trans ?_
    rw [extend_tail _ h64, hn, hchar]
    rfl
  · have hn : (n / 4096 % 16 * 64 + n / 64 % 64) * 64 + n % 64 = n := by omega
    obtain ⟨low, high, hlead, hbounds⟩ :=
      lead?_three (n := n / 4096 % 16) (by omega) h64' (by omega) (by omega)
    refine (decodeLossy_three hlead hbounds (isContinuation_tail h64)).trans ?_
    rw [extend_tail _ h64', extend_tail _ h64, hn, hchar]
    rfl
  · have hn : ((n / 262144 % 8 * 64 + n / 4096 % 64) * 64 + n / 64 % 64) * 64 + n % 64 = n := by
      omega
    obtain ⟨low, high, hlead, hbounds⟩ :=
      lead?_four (n := n / 262144 % 8) (by omega) h64'' (by omega) (by omega)
    have hlast := isContinuation_tail h64
    refine (decodeLossy_four hlead hbounds (isContinuation_tail h64') hlast).trans ?_
    rw [extend_tail _ h64'', extend_tail _ h64', extend_tail _ h64, hn, hchar]
    rfl

/-- **A text is read back from its bytes.** -/
theorem decodeLossy_encode (t : Text) : decodeLossy (encode t) = t := by
  induction t with
  | nil => rfl
  | cons c t ih => rw [encode, List.flatMap_cons, decodeLossy_encodeChar, ← encode, ih]

theorem decode?_encode (t : Text) : decode? (encode t) = some t := by
  rw [decode?, decodeLossy_encode, if_pos rfl]

/-! ### ASCII among any bytes -/

/-- What may follow a first byte is never ASCII. -/
theorem low_of_lead? {l : Lead} (h : lead? b = some l) : 0x80 ≤ l.low := by
  have hranges : (0x80 : UInt8) ≤ 0x90 ∧ (0x80 : UInt8) ≤ 0xA0 := by decide
  simp only [lead?] at h
  split_ifs at h <;> cases h
  all_goals first | exact UInt8.le_refl _ | exact hranges.1 | exact hranges.2

theorem not_isContinuation (hc : c < 0x80) : isContinuation c = false := by
  rw [isContinuation, Bool.and_eq_false_iff]
  exact .inl (decide_eq_false (UInt8.not_le.mpr hc))

theorem decodeLossy_ascii (hc : c < 0x80) (rest : List UInt8) :
    decodeLossy (c :: rest) = Char.ofNat c.toNat :: decodeLossy rest := by
  rw [decodeLossy, if_pos hc]

/-- **An ASCII byte is read as its character, whatever stands before it.**  No character that is
broken off in front of it takes it along. -/
theorem decodeLossy_append_ascii (hc : c < 0x80) (first second : List UInt8) :
    decodeLossy (first ++ c :: second)
      = decodeLossy first ++ Char.ofNat c.toNat :: decodeLossy second := by
  have hnot := not_isContinuation hc
  have hlow {b : UInt8} {l : Lead} (hl : lead? b = some l) : ¬ l.low ≤ c := fun h =>
    UInt8.not_le.mpr hc (UInt8.le_trans (low_of_lead? hl) h)
  fun_induction decodeLossy first with
  | case1 => exact decodeLossy_ascii hc second
  | case2 b rest hb ih => rw [List.cons_append, decodeLossy_ascii hb, ih, List.cons_append]
  | case3 b rest hb hl ih => simp [decodeLossy, hb, hl, ih]
  -- the first bytes end inside a character, and the ASCII byte is no part of it
  | case4 b hb l hl => simp [decodeLossy, hb, hl, hlow hl, hc]
  | case7 b hb l hl b₁ h₁ hmore => simp [decodeLossy, hb, hl, h₁, hmore, hnot, hc]
  | case10 b hb l hl b₁ h₁ hmore b₂ h₂ hmore₂ =>
      simp [decodeLossy, hb, hl, h₁, hmore, h₂, hmore₂, hnot, hc]
  -- some byte is no part of a character, and is read again
  | case5 b hb l hl b₁ rest₁ h₁ ih =>
      simp only [List.cons_append] at ih ⊢
      rw [decodeLossy, if_neg hb, hl]
      simp [h₁, ih]
  | case8 b hb l hl b₁ h₁ hmore b₂ rest₂ h₂ ih =>
      simp only [List.cons_append] at ih ⊢
      rw [decodeLossy, if_neg hb, hl]
      simp [h₁, hmore, h₂, ih]
  | case11 b hb l hl b₁ h₁ hmore b₂ h₂ hmore₂ b₃ rest₃ h₃ ih =>
      simp only [List.cons_append] at ih ⊢
      rw [decodeLossy, if_neg hb, hl]
      simp [h₁, hmore, h₂, hmore₂, h₃, ih]
  -- a character is whole
  | case6 b hb l hl b₁ rest₁ h₁ hmore ih =>
      simp [decodeLossy, hb, hl, h₁, hmore, ih]
  | case9 b hb l hl b₁ h₁ hmore b₂ rest₂ h₂ hmore₂ ih =>
      simp [decodeLossy, hb, hl, h₁, h₂, hmore₂, ih]
  | case12 b hb l hl b₁ h₁ hmore b₂ h₂ hmore₂ b₃ rest₃ h₃ ih =>
      simp [decodeLossy, hb, hl, h₁, hmore, h₂, hmore₂, h₃, ih]

/-- **A line feed joins no bytes and cuts no character.** -/
theorem decodeLossy_append_newline (first second : List UInt8) :
    decodeLossy (first ++ 0x0A :: second) = decodeLossy first ++ '\n' :: decodeLossy second :=
  decodeLossy_append_ascii (by decide) first second

theorem le_extend (bits : Nat) (b : UInt8) : bits ≤ extend bits b := by
  unfold extend
  omega

/-- The narrower ranges keep out second spellings, so what a first byte leaves open is never
so small that a control could come of it. -/
theorem le_extend_of_lead? {l : Lead} (h : lead? b = some l) (hlow : l.low ≤ b₁) :
    0x10 ≤ extend l.bits b₁ := by
  have hbound := UInt8.le_iff_toNat_le.mp hlow
  simp only [lead?] at h
  unfold extend
  split_ifs at h <;> cases h
  all_goals
    simp only [UInt8.reduceToNat] at hbound ⊢
    omega

/-- A line feed is the character of no other number. -/
theorem newline_ne_ofNat (h : n ≠ 10) : '\n' ≠ Char.ofNat n := by
  by_cases hvalid : n.isValidChar
  · intro heq
    rw [show Char.ofNat n = Char.ofNatAux n hvalid from dif_pos hvalid] at heq
    exact h (congrArg Char.toNat heq).symm
  · rw [show Char.ofNat n = '\x00' from dif_neg hvalid]
    decide

/-- **No line feed is read that was not there.** -/
theorem newline_notMem_decodeLossy {bytes : List UInt8} (h : 0x0A ∉ bytes) :
    '\n' ∉ decodeLossy bytes := by
  have hreplacement : '\n' ≠ replacement := by decide
  have low_le {l : Lead} {b₁ : UInt8} (h : ¬ (!(l.low ≤ b₁ && b₁ ≤ l.high)) = true) :
      l.low ≤ b₁ := by
    simp only [Bool.not_eq_true, Bool.not_eq_false', Bool.and_eq_true, decide_eq_true_eq] at h
    exact h.1
  have hcontrol {n : Nat} (hn : 0x10 ≤ n) : '\n' ≠ Char.ofNat n := newline_ne_ofNat (by omega)
  fun_induction decodeLossy bytes
  case case1 => simp
  case case2 b rest hb ih =>
    simp only [List.mem_cons, not_or] at h ⊢
    exact ⟨newline_ne_ofNat fun hn => h.1 (UInt8.toNat_inj.mp hn.symm), ih h.2⟩
  -- a replacement, at the end or with more to read
  case case4 | case7 | case10 => simp [hreplacement]
  case case3 ih | case5 ih | case8 ih | case11 ih =>
    simp only [List.mem_cons, not_or] at h
    simp [hreplacement, ih (by simp [h])]
  -- a character of more bytes
  case case6 hl _ _ h₁ _ ih =>
    simp only [List.mem_cons, not_or] at h
    have hone := le_extend_of_lead? hl (low_le h₁)
    simp [hcontrol hone, ih h.2.2]
  case case9 hl _ h₁ _ b₂ _ _ _ ih =>
    simp only [List.mem_cons, not_or] at h
    have hone := le_extend_of_lead? hl (low_le h₁)
    simp [hcontrol (Nat.le_trans hone (le_extend _ b₂)), ih h.2.2.2]
  case case12 hl _ h₁ _ b₂ _ _ b₃ _ _ ih =>
    simp only [List.mem_cons, not_or] at h
    have htwo := Nat.le_trans (le_extend_of_lead? hl (low_le h₁)) (le_extend _ b₂)
    simp [hcontrol (Nat.le_trans htwo (le_extend _ b₃)), ih h.2.2.2.2]

/-- **The lines of a text are the lines of its bytes**, each read on its own. -/
theorem pieces_decodeLossy (bytes : List UInt8) :
    Text.pieces (· == '\n') (decodeLossy bytes) = (bytes.splitOn 0x0A).map decodeLossy := by
  have hline {line : List UInt8} (h : 0x0A ∉ line) :
      (decodeLossy line).splitOn '\n' = (line.splitOn 0x0A).map decodeLossy := by
    rw [List.splitOn_eq_singleton h, List.map_singleton,
      List.splitOn_eq_singleton (newline_notMem_decodeLossy h)]
  rw [Text.pieces_eq_splitOnP, ← List.splitOn]
  induction hn : bytes.length using Nat.strongRecOn generalizing bytes with
  | ind n ih =>
      by_cases hmem : 0x0A ∈ bytes
      · obtain ⟨line, rest, rfl, hnot⟩ := List.eq_append_cons_of_mem hmem
        have hrest : rest.length < n := by
          rw [← hn, List.length_append, List.length_cons]
          omega
        rw [decodeLossy_append_newline, List.splitOn_append_cons_self, List.splitOn_append_cons_self,
          List.map_append, hline hnot, ih _ hrest rest rfl]
      · exact hline hmem

end LintFindings.Utf8
