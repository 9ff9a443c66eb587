/-
Reading a TOML string gives back what was written.

Inside double quotes each character is read back from its own spelling, whichever it
has.  Only quotes are not read one by one: at the end of a string of several lines, up
to two of them belong to the string and three to its end.  Both readers of such strings
treat rows of quotes alike (`EndsRows`), so the inductions over their texts carry the
row that has been written and not yet read, which is never longer than two quotes
(`readMultiBasic_escapeAll`, `readMultiLiteral_append`).

The style that is taken for a text fits it (`fits_styleOf`), and a text is read back
from every style that fits it (`readString_writeIn`).  What follows matters only where
it could be taken for more of the string or key.
-/
import LintFindings.Toml.Quoting
import LintFindings.Proofs.Text

namespace LintFindings.Toml

variable {t u rest : Text} {c e : Char}

/-! ### Escapes -/

/-- How a character may be written inside double quotes: by a letter behind a backslash, by its
number, or as it is. -/
inductive Spelling (multi : Bool) (c : Char) : Text → Prop
  | letter {e : Char} : escaped? e = some c → Spelling multi c ['\\', e]
  | code : c.toNat < 0x80 → Spelling multi c
      ['\\', 'u', '0', '0', Text.hexDigit (c.toNat / 16), Text.hexDigit (c.toNat % 16)]
  | itself : c ≠ '"' → c ≠ '\\' → (isPlain c || multi && c == '\n') = true → Spelling multi c [c]

theorem spelling_escapeChar (multi : Bool) (hc : c ≠ '"') :
    Spelling multi c (escapeChar multi c) := by
  unfold escapeChar
  split
  · exact .letter rfl
  · exact .letter rfl
  · cases multi with
    | false => exact .letter rfl
    | true => exact .itself hc (by decide) rfl
  · exact .letter rfl
  · exact .letter rfl
  · exact .letter rfl
  · rename_i hslash
    by_cases hcontrol : isControl c = true
    · rw [if_pos hcontrol]
      refine .code ?_
      simp only [isControl, Bool.or_eq_true, decide_eq_true_eq, beq_iff_eq] at hcontrol
      omega
    · rw [if_neg hcontrol]
      exact .itself hc hslash (by simp [isPlain, hcontrol])

theorem spelling_quote (multi : Bool) : Spelling multi '"' ['\\', '"'] := .letter rfl

/-- No spelling begins with a quote or with a line break of two characters. -/
theorem Spelling.head?_append {multi : Bool} {w : Text} (h : Spelling multi c w) (u : Text) :
    (w ++ u).head? = some '\\' ∨ (w ++ u).head? = some c ∧ c ≠ '"' ∧ c ≠ '\r' := by
  cases h with
  | letter => exact .inl rfl
  | code => exact .inl rfl
  | itself hquote hslash hplain =>
      refine .inr ⟨rfl, hquote, ?_⟩
      rintro rfl
      cases multi <;> exact absurd hplain (by decide)

theorem Spelling.head?_ne_quote {multi : Bool} {w : Text} (h : Spelling multi c w) (u : Text) :
    (w ++ u).head? ≠ some '"' := by
  rcases h.head?_append u with hhead | ⟨hhead, hquote, -⟩
  · rw [hhead]
    decide
  · rw [hhead]
    exact fun hc => hquote (Option.some.inj hc)

theorem hexChar?_code : ∀ n < 0x80,
    hexChar? ['0', '0', Text.hexDigit (n / 16), Text.hexDigit (n % 16)] = some (Char.ofNat n) := by
  decide

/-- No letter behind a backslash begins a number or ends a line. -/
theorem of_escaped? (h : escaped? e = some c) :
    e ≠ 'u' ∧ e ≠ 'U' ∧ isGap e = false ∧ e ≠ '\n' ∧ e ≠ '\r' := by
  unfold escaped? at h
  split at h
  case h_8 => cases h
  all_goals decide

section

variable {multi : Bool} {allowed row : Nat}

theorem escapeAll_row (h : row < allowed) :
    escapeAll multi allowed row ('"' :: t) = '"' :: escapeAll multi allowed (row + 1) t := by
  rw [escapeAll, if_pos rfl, if_pos h]

theorem escapeAll_quote (h : ¬ row < allowed) :
    escapeAll multi allowed row ('"' :: t) = ['\\', '"'] ++ escapeAll multi allowed 0 t := by
  rw [escapeAll, if_pos rfl, if_neg h]
  rfl

theorem escapeAll_other (hc : c ≠ '"') :
    escapeAll multi allowed row (c :: t) = escapeChar multi c ++ escapeAll multi allowed 0 t := by
  rw [escapeAll, if_neg hc]

/-- What is written begins with the spelling of the first character, or with a quote that needs
none. -/
theorem escapeAll_cons (multi : Bool) (allowed row : Nat) (c : Char) (t : Text) :
    (∃ w u, Spelling multi c w ∧ escapeAll multi allowed row (c :: t) = w ++ u) ∨
      row < allowed ∧ ∃ u, escapeAll multi allowed row (c :: t) = '"' :: u := by
  by_cases hc : c = '"'
  · rw [hc]
    by_cases hrow : row < allowed
    · exact .inr ⟨hrow, _, escapeAll_row hrow⟩
    · exact .inl ⟨_, _, spelling_quote multi, escapeAll_quote hrow⟩
  · exact .inl ⟨_, _, spelling_escapeChar multi hc, escapeAll_other hc⟩

end

/-! ### Strings on one line in double quotes -/

theorem readBasic_spelling {w : Text} (h : Spelling false c w) (t : Text) :
    readBasic (w ++ t) = (readBasic t).map (cons c) := by
  cases h with
  | @letter e he =>
      obtain ⟨hu, hU, -⟩ := of_escaped? he
      rw [List.cons_append, List.cons_append, List.nil_append, readBasic]
      · rw [he]
        rfl
      · exact fun _ _ _ _ _ h => absurd h hu
      · exact fun _ _ _ _ _ _ _ _ _ h => absurd h hU
  | code hcode =>
      simp only [List.cons_append, List.nil_append]
      rw [readBasic, hexChar?_code _ hcode, Char.ofNat_toNat]
      rfl
  | itself hquote hslash hplain =>
      rw [Bool.false_and, Bool.or_false] at hplain
      rw [List.singleton_append, readBasic]
      · rw [if_pos ⟨hplain, hslash⟩]
      · exact hquote
      · exact fun _ _ _ _ _ h => absurd h hslash
      · exact fun _ _ _ _ _ _ _ _ _ h => absurd h hslash
      · exact fun _ _ h => absurd h hslash

theorem readBasic_escapeAll (t rest : Text) :
    readBasic (escapeAll false 0 0 t ++ '"' :: rest) = some (t, rest) := by
  induction t with
  | nil => rfl
  | cons c t ih =>
      by_cases hc : c = '"'
      · rw [hc, escapeAll_quote (Nat.lt_irrefl 0), List.append_assoc,
          readBasic_spelling (spelling_quote false), ih]
        rfl
      · have hspelling := spelling_escapeChar false hc
        rw [escapeAll_other hc, List.append_assoc, readBasic_spelling hspelling, ih]
        rfl

/-! ### Rows of quotes -/

theorem head?_of_starts {q : Char} (h : q :: u <+: t) : t.head? = some q := by
  obtain ⟨v, rfl⟩ := h
  rfl

/-- How a reader of strings of several lines goes about quotes: three of them end the string,
and up to two more in front of those belong to it. -/
structure EndsRows (q : Char) (read : Text → Option (Text × Text)) : Prop where
  quote : ∀ u, ¬ [q, q] <+: u → read (q :: u) = (read u).map (cons q)
  close : ∀ r ≤ 2, ∀ rest : Text, rest.head? ≠ some q →
    read (List.replicate r q ++ (List.replicate 3 q ++ rest)) = some (List.replicate r q, rest)

theorem EndsRows.row {q : Char} {read : Text → Option (Text × Text)} (h : EndsRows q read)
    (hu : u.head? ≠ some q) {r : Nat} (hr : r ≤ 2) :
    read (List.replicate r q ++ u)
      = (read u).map fun (s, rest) => (List.replicate r q ++ s, rest) := by
  induction r with
  | zero => simp
  | succ r ih =>
      have hshort : ¬ [q, q] <+: List.replicate r q ++ u := by
        intro htwo
        obtain rfl | rfl : r = 0 ∨ r = 1 := by omega
        · exact hu (head?_of_starts htwo)
        · exact hu (head?_of_starts (List.cons_prefix_cons.mp htwo).2)
      rw [List.replicate_succ, List.cons_append, h.quote _ hshort, ih (by omega)]
      simp [cons, Function.comp_def]

theorem le_longestRow (q : Char) (r : Nat) (t : Text) : r ≤ longestRow q r t := by
  induction t generalizing r with
  | nil => exact Nat.le_refl r
  | cons c t ih =>
      unfold longestRow
      by_cases hc : c = q
      · rw [if_pos hc]
        exact Nat.le_of_succ_le (ih (r + 1))
      · rw [if_neg hc]
        exact Nat.le_max_left r _

theorem ne_return_of_plain (h : (isPlain c || c == '\n') = true) : c ≠ '\r' := by
  rintro rfl
  revert h
  decide

/-! ### Strings of several lines in double quotes -/

theorem readMultiBasic_plain (hquote : c = '"' → ¬ ['"', '"'] <+: t) (hslash : c ≠ '\\')
    (hplain : (isPlain c || c == '\n') = true) :
    readMultiBasic false (c :: t) = (readMultiBasic false t).map (cons c) := by
  rw [readMultiBasic]
  · rw [Bool.false_and, if_neg Bool.false_ne_true, if_pos (by simp [hplain, hslash])]
  · exact fun _ hc ht => hquote hc ⟨_, ht.symm⟩
  · exact fun _ hc ht => hquote hc ⟨_, ht.symm⟩
  · exact fun _ hc ht => hquote hc ⟨_, ht.symm⟩
  · exact fun _ _ _ _ _ hc _ => hslash hc
  · exact fun _ _ _ _ _ _ _ _ _ hc _ => hslash hc
  · exact fun _ _ hc _ => hslash hc
  · exact fun _ hc _ => ne_return_of_plain hplain hc

theorem endsRows_readMultiBasic : EndsRows '"' (readMultiBasic false) where
  quote u hu := readMultiBasic_plain (fun _ => hu) (by decide) rfl
  close r hr rest hrest := by
    have hne : ∀ u, rest ≠ '"' :: u := by
      rintro u rfl
      exact hrest rfl
    obtain rfl | rfl | rfl : r = 0 ∨ r = 1 ∨ r = 2 := by omega
    · change readMultiBasic false ('"' :: '"' :: '"' :: rest) = some ([], rest)
      rw [readMultiBasic]
      · exact fun _ => hne _
      · exact fun _ => hne _
    · change readMultiBasic false ('"' :: '"' :: '"' :: '"' :: rest) = some (['"'], rest)
      rw [readMultiBasic]
      exact fun _ => hne _
    · rfl

theorem readMultiBasic_spelling {w : Text} (h : Spelling true c w) (t : Text) :
    readMultiBasic false (w ++ t) = (readMultiBasic false t).map (cons c) := by
  cases h with
  | @letter e he =>
      obtain ⟨hu, hU, hgap, hbreak, hreturn⟩ := of_escaped? he
      have hline : afterBreak? (skipGap (e :: t)) = none := by
        rw [skipGap, List.dropWhile_cons_of_neg (by simp [hgap]), afterBreak?]
        · exact fun _ h => hbreak (List.cons.inj h).1
        · exact fun _ h => hreturn (List.cons.inj h).1
      rw [List.cons_append, List.cons_append, List.nil_append, readMultiBasic]
      · rw [hline, he]
        rfl
      · exact fun _ _ _ _ _ h => absurd h hu
      · exact fun _ _ _ _ _ _ _ _ _ h => absurd h hU
  | code hcode =>
      simp only [List.cons_append, List.nil_append]
      rw [readMultiBasic, hexChar?_code _ hcode, Char.ofNat_toNat]
      rfl
  | itself hquote hslash hplain =>
      exact readMultiBasic_plain (fun h => absurd h hquote) hslash hplain

/-- The quotes of a row are kept until its end is seen. -/
theorem readMultiBasic_escapeAll (hrest : rest.head? ≠ some '"') {r : Nat} (hr : r ≤ 2) :
    readMultiBasic false
      (List.replicate r '"' ++ (escapeAll true 2 r t ++ (List.replicate 3 '"' ++ rest)))
        = some (List.replicate r '"' ++ t, rest) := by
  induction t generalizing r with
  | nil =>
      rw [escapeAll, List.nil_append, List.append_nil]
      exact endsRows_readMultiBasic.close r hr rest hrest
  | cons c t ih =>
      have hnext := ih (Nat.zero_le 2)
      rw [List.replicate_zero, List.nil_append, List.nil_append] at hnext
      by_cases hc : c = '"'
      · rw [hc]
        by_cases hshort : r < 2
        · -- the quote joins the row that is not read yet
          have hgrown := ih (r := r + 1) (by omega)
          rw [List.replicate_succ', List.append_assoc, List.append_assoc] at hgrown
          rw [escapeAll_row hshort]
          exact hgrown
        · -- the row is as long as it may be; it ends before the backslash
          have hspelling := spelling_quote true
          rw [escapeAll_quote hshort, List.append_assoc,
            endsRows_readMultiBasic.row (hspelling.head?_ne_quote _) hr,
            readMultiBasic_spelling hspelling, hnext]
          rfl
      · have hspelling := spelling_escapeChar true hc
        rw [escapeAll_other hc, List.append_assoc,
          endsRows_readMultiBasic.row (hspelling.head?_ne_quote _) hr,
          readMultiBasic_spelling hspelling, hnext]
        rfl

/-! ### Strings in single quotes -/

theorem readLiteral_append (h : ∀ c ∈ t, isPlain c = true ∧ c ≠ '\'') (rest : Text) :
    readLiteral (t ++ '\'' :: rest) = some (t, rest) := by
  induction t with
  | nil => rfl
  | cons c t ih =>
      obtain ⟨⟨hplain, hquote⟩, ht⟩ := List.forall_mem_cons.mp h
      rw [List.cons_append, readLiteral, if_pos hplain, ih ht]
      · rfl
      · exact hquote

theorem readMultiLiteral_plain (hquote : c = '\'' → ¬ ['\'', '\''] <+: t)
    (hplain : (isPlain c || c == '\n') = true) :
    readMultiLiteral (c :: t) = (readMultiLiteral t).map (cons c) := by
  rw [readMultiLiteral]
  · rw [if_pos hplain]
  · exact fun _ hc ht => hquote hc ⟨_, ht.symm⟩
  · exact fun _ hc ht => hquote hc ⟨_, ht.symm⟩
  · exact fun _ hc ht => hquote hc ⟨_, ht.symm⟩
  · exact fun _ hc _ => ne_return_of_plain hplain hc

theorem endsRows_readMultiLiteral : EndsRows '\'' readMultiLiteral where
  quote u hu := readMultiLiteral_plain (fun _ => hu) rfl
  close r hr rest hrest := by
    have hne : ∀ u, rest ≠ '\'' :: u := by
      rintro u rfl
      exact hrest rfl
    obtain rfl | rfl | rfl : r = 0 ∨ r = 1 ∨ r = 2 := by omega
    · change readMultiLiteral ('\'' :: '\'' :: '\'' :: rest) = some ([], rest)
      rw [readMultiLiteral]
      · exact fun _ => hne _
      · exact fun _ => hne _
    · change readMultiLiteral ('\'' :: '\'' :: '\'' :: '\'' :: rest) = some (['\''], rest)
      rw [readMultiLiteral]
      exact fun _ => hne _
    · rfl

theorem readMultiLiteral_append (hrest : rest.head? ≠ some '\'')
    (hplain : ∀ c ∈ t, (isPlain c || c == '\n') = true) {r : Nat} (hr : longestRow '\'' r t ≤ 2) :
    readMultiLiteral (List.replicate r '\'' ++ (t ++ (List.replicate 3 '\'' ++ rest)))
      = some (List.replicate r '\'' ++ t, rest) := by
  induction t generalizing r with
  | nil =>
      rw [List.nil_append, List.append_nil]
      exact endsRows_readMultiLiteral.close r hr rest hrest
  | cons c t ih =>
      have hle : r ≤ 2 := (le_longestRow '\'' r _).trans hr
      obtain ⟨hfirst, ht⟩ := List.forall_mem_cons.mp hplain
      rw [longestRow] at hr
      by_cases hc : c = '\''
      · rw [if_pos hc] at hr
        have hgrown := ih ht hr
        rw [List.replicate_succ', List.append_assoc, List.append_assoc] at hgrown
        rw [hc]
        exact hgrown
      · rw [if_neg hc] at hr
        have hnext := ih ht ((Nat.le_max_right r _).trans hr)
        rw [List.replicate_zero, List.nil_append, List.nil_append] at hnext
        rw [List.cons_append, endsRows_readMultiLiteral.row (by simpa using hc) hle,
          readMultiLiteral_plain (fun h => absurd h hc) hfirst, hnext]
        rfl

/-! ### Styles -/

/-- Whether a text can be written in a style. -/
def Style.Fits (t : Text) : Style → Prop
  | .basic | .multiBasic => True
  | .literal => ∀ c ∈ t, isPlain c = true ∧ c ≠ '\''
  | .multiLiteral =>
    (∀ c ∈ t, (isPlain c || c == '\n') = true) ∧ longestRow '\'' 0 t ≤ 2

theorem longestRow_of_mem {q : Char} (h : q ∈ t) (r : Nat) : 0 < longestRow q r t := by
  induction t generalizing r with
  | nil => cases h
  | cons c t ih =>
      unfold longestRow
      by_cases hc : c = q
      · rw [if_pos hc]
        exact Nat.lt_of_lt_of_le (Nat.succ_pos r) (le_longestRow q (r + 1) t)
      · rw [if_neg hc]
        have ht : q ∈ t := (List.mem_cons.mp h).resolve_left (Ne.symm hc)
        exact Nat.lt_of_lt_of_le (ih ht 0) (Nat.le_max_right r _)

theorem plain_of_not_needsCodes (h : needsCodes t = false) :
    ∀ c ∈ t, (isPlain c || c == '\n') = true := by
  intro c hc
  have hcode := List.any_eq_false.mp h c hc
  simp only [isPlain, Bool.and_eq_true, bne_iff_ne, ne_eq, not_and, not_not, Bool.or_eq_true,
    beq_iff_eq, Bool.not_eq_true'] at hcode ⊢
  by_cases hcontrol : isControl c = true
  · by_cases htab : c = '\t'
    · exact .inl (.inl htab)
    · exact .inr (hcode ⟨hcontrol, htab⟩)
  · exact .inl (.inr (Bool.not_eq_true _ ▸ hcontrol))

theorem fits_literal (hcodes : needsCodes t = false) (hbreak : '\n' ∉ t) (hquote : '\'' ∉ t) :
    Style.literal.Fits t := by
  intro c hc
  have hplain := plain_of_not_needsCodes hcodes c hc
  refine ⟨?_, fun h => hquote (h ▸ hc)⟩
  rcases Bool.or_eq_true _ _ ▸ hplain with h | h
  · exact h
  · exact absurd (beq_iff_eq.mp h ▸ hc) hbreak

/-- **The style that is taken for a text fits it.** -/
theorem fits_styleOf (t : Text) : (styleOf t).Fits t := by
  unfold styleOf
  dsimp only
  split
  · trivial
  · split
    · rename_i h
      simp only [Bool.and_eq_true, Bool.not_eq_true', decide_eq_true_eq] at h
      obtain ⟨⟨hcodes, hsingles⟩, hbreak⟩ := h
      refine fits_literal hcodes (by simpa using hbreak) ?_
      intro hquote
      exact absurd hsingles (Nat.ne_of_gt (longestRow_of_mem hquote 0))
    · split
      · trivial
      · split
        · rename_i h
          simp only [Bool.and_eq_true, Bool.not_eq_true', decide_eq_true_eq] at h
          exact ⟨plain_of_not_needsCodes h.1, h.2⟩
        · split <;> trivial

/-! ### Strings -/

theorem readString_basic (h : ¬ ['"', '"'] <+: t) : readString ('"' :: t) = readBasic t := by
  rw [readString]
  exact fun _ ht => h ⟨_, ht.symm⟩

theorem readString_literal (h : ¬ ['\'', '\''] <+: t) : readString ('\'' :: t) = readLiteral t := by
  rw [readString]
  exact fun _ ht => h ⟨_, ht.symm⟩

theorem dropBreak_of_head (h : t.head? ≠ some '\n') (hreturn : t.head? ≠ some '\r') :
    dropBreak t = t := by
  rw [dropBreak, afterBreak?]
  · rfl
  · rintro u rfl
    exact h rfl
  · rintro u rfl
    exact hreturn rfl

/-- The line break that is written in front of a string of several lines is not read. -/
theorem dropBreak_opening (h : '\n' ∉ t → u.head? ≠ some '\n')
    (hreturn : u.head? ≠ some '\r') :
    dropBreak ((if t.contains '\n' then ['\n'] else []) ++ u) = u := by
  by_cases hbreak : t.contains '\n' = true
  · rw [if_pos hbreak]
    rfl
  · rw [if_neg hbreak, List.nil_append]
    exact dropBreak_of_head (h (by simpa using hbreak)) hreturn

theorem opening_escapeAll (t u : Text) :
    ('\n' ∉ t → (escapeAll true 2 0 t ++ '"' :: u).head? ≠ some '\n') ∧
      (escapeAll true 2 0 t ++ '"' :: u).head? ≠ some '\r' := by
  cases t with
  | nil => exact ⟨fun _ => by simp [escapeAll], by simp [escapeAll]⟩
  | cons c t =>
      rcases escapeAll_cons true 2 0 c t with ⟨w, v, hspelling, hw⟩ | ⟨-, v, hv⟩
      · rw [hw, List.append_assoc]
        rcases hspelling.head?_append (v ++ '"' :: u) with hhead | ⟨hhead, -, hreturn⟩
        · rw [hhead]
          exact ⟨fun _ => by decide, by decide⟩
        · rw [hhead]
          refine ⟨fun hbreak hc => hbreak ?_, fun hc => hreturn (Option.some.inj hc)⟩
          rw [← Option.some.inj hc]
          exact List.mem_cons_self
      · rw [hv]
        exact ⟨fun _ => by simp, by simp⟩

theorem opening_literal (h : ∀ c ∈ t, (isPlain c || c == '\n') = true) (u : Text) :
    ('\n' ∉ t → (t ++ '\'' :: u).head? ≠ some '\n') ∧ (t ++ '\'' :: u).head? ≠ some '\r' := by
  cases t with
  | nil => exact ⟨fun _ => by simp, by simp⟩
  | cons c t =>
      refine ⟨fun hbreak hc => hbreak ?_, fun hc => ?_⟩
      · rw [← Option.some.inj hc]
        exact List.mem_cons_self
      · exact ne_return_of_plain (h c List.mem_cons_self) (Option.some.inj hc)

theorem not_twoQuotes_escapeAll (hrest : rest.head? ≠ some '"') :
    ¬ ['"', '"'] <+: escapeAll false 0 0 t ++ '"' :: rest := by
  intro htwo
  cases t with
  | nil => exact hrest (head?_of_starts (List.cons_prefix_cons.mp htwo).2)
  | cons c t =>
      rcases escapeAll_cons false 0 0 c t with ⟨w, u, hspelling, hw⟩ | ⟨hrow, -⟩
      · rw [hw, List.append_assoc] at htwo
        exact hspelling.head?_ne_quote (u ++ '"' :: rest) (head?_of_starts htwo)
      · omega

theorem not_twoQuotes_literal (h : ∀ c ∈ t, isPlain c = true ∧ c ≠ '\'')
    (hrest : rest.head? ≠ some '\'') : ¬ ['\'', '\''] <+: t ++ '\'' :: rest := by
  intro htwo
  cases t with
  | nil => exact hrest (head?_of_starts (List.cons_prefix_cons.mp htwo).2)
  | cons c t => exact (h c List.mem_cons_self).2 (List.cons_prefix_cons.mp htwo).1.symm

/-- A string is read back whatever follows it, unless that is a further quote. -/
theorem readString_writeIn {style : Style} (h : style.Fits t)
    (hrest : ∀ c ∈ rest.head?, c ≠ '"' ∧ c ≠ '\'') :
    readString (writeIn style t ++ rest) = some (t, rest) := by
  have hdouble : rest.head? ≠ some '"' := fun h => (hrest _ h).1 rfl
  have hsingle : rest.head? ≠ some '\'' := fun h => (hrest _ h).2 rfl
  cases style with
  | basic =>
      rw [writeIn, List.append_assoc]
      refine (readString_basic (not_twoQuotes_escapeAll hdouble)).trans ?_
      exact readBasic_escapeAll t rest
  | literal =>
      rw [writeIn, List.append_assoc]
      refine (readString_literal (not_twoQuotes_literal h hsingle)).trans ?_
      exact readLiteral_append h rest
  | multiBasic =>
      obtain ⟨hbreak, hreturn⟩ := opening_escapeAll t ('"' :: '"' :: rest)
      rw [writeIn, List.append_assoc, List.append_assoc, List.append_assoc]
      refine (congrArg (readMultiBasic false) (dropBreak_opening hbreak hreturn)).trans ?_
      exact readMultiBasic_escapeAll hdouble (Nat.zero_le 2)
  | multiLiteral =>
      obtain ⟨hbreak, hreturn⟩ := opening_literal h.1 ('\'' :: '\'' :: rest)
      rw [writeIn, List.append_assoc, List.append_assoc, List.append_assoc]
      refine (congrArg readMultiLiteral (dropBreak_opening hbreak hreturn)).trans ?_
      exact readMultiLiteral_append hsingle h.1 h.2

/-- **A string is read back.** -/
theorem readString_writeString (t : Text) (hrest : ∀ c ∈ rest.head?, c ≠ '"' ∧ c ≠ '\'') :
    readString (writeString t ++ rest) = some (t, rest) :=
  readString_writeIn (fits_styleOf t) hrest

/-- A string begins with a quote. -/
theorem writeString_cons (t : Text) :
    ∃ c u, writeString t = c :: u ∧ (c = '"' ∨ c = '\'') := by
  rw [writeString]
  cases styleOf t with
  | basic => exact ⟨_, _, rfl, .inl rfl⟩
  | literal => exact ⟨_, _, rfl, .inr rfl⟩
  | multiBasic => exact ⟨_, _, rfl, .inl rfl⟩
  | multiLiteral => exact ⟨_, _, rfl, .inr rfl⟩

/-! ### Keys -/

/-- What a key is written as. -/
inductive KeySpelling (t : Text) : Text → Prop
  | bare : t ≠ [] → (∀ c ∈ t, isBare c = true) → KeySpelling t t
  | basic : KeySpelling t (writeIn .basic t)
  | literal : Style.literal.Fits t → KeySpelling t (writeIn .literal t)

theorem keySpelling_writeKey (t : Text) : KeySpelling t (writeKey t) := by
  unfold writeKey
  dsimp only
  split
  · rename_i h
    exact .bare h.1 (List.all_eq_true.mp h.2)
  · split
    · exact .basic
    · split
      · rename_i h
        simp only [Bool.and_eq_true, Bool.not_eq_true', Bool.or_eq_false_iff] at h
        exact .literal (fits_literal h.1.1 (by simpa using h.1.2) (by simpa using h.2))
      · exact .basic

theorem not_quote_of_isBare (h : isBare c = true) : c ≠ '"' ∧ c ≠ '\'' := by
  constructor <;>
    · rintro rfl
      revert h
      decide

/-- A key begins with a quote or with a character of its own. -/
theorem KeySpelling.cons {w : Text} (h : KeySpelling t w) :
    ∃ c u, w = c :: u ∧ (c = '"' ∨ c = '\'' ∨ isBare c = true) := by
  cases h with
  | bare hne hbare =>
      obtain ⟨c, u, rfl⟩ := List.exists_cons_of_ne_nil hne
      exact ⟨c, u, rfl, .inr (.inr (hbare c List.mem_cons_self))⟩
  | basic => exact ⟨_, _, rfl, .inl rfl⟩
  | literal => exact ⟨_, _, rfl, .inr (.inl rfl)⟩

theorem readSimpleKey_spelling {w : Text} (h : KeySpelling t w)
    (hrest : ∀ c ∈ rest.head?, isBare c = false) : readSimpleKey (w ++ rest) = some (t, rest) := by
  cases h with
  | bare hne hbare =>
      obtain ⟨c, u, rfl⟩ := List.exists_cons_of_ne_nil hne
      obtain ⟨hdouble, hsingle⟩ := not_quote_of_isBare (hbare c List.mem_cons_self)
      rw [readSimpleKey]
      · rw [Text.takeWhile_run hbare hrest, Text.dropWhile_run hbare hrest]
      · exact fun _ h => hdouble (List.cons.inj h).1
      · exact fun _ h => hsingle (List.cons.inj h).1
  | basic =>
      rw [writeIn, List.append_assoc]
      exact readBasic_escapeAll t rest
  | literal hfits =>
      rw [writeIn, List.append_assoc]
      exact readLiteral_append hfits rest

/-- **A key is read back.** -/
theorem readSimpleKey_writeKey (t : Text) (hrest : ∀ c ∈ rest.head?, isBare c = false) :
    readSimpleKey (writeKey t ++ rest) = some (t, rest) :=
  readSimpleKey_spelling (keySpelling_writeKey t) hrest

end LintFindings.Toml
