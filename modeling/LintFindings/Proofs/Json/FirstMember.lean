/-
How far into a text the first member of an object reaches.

The round trip of written JSON starts from a value; here a text is given, and what is
asked is where its first colon stands once it has been read as an object.  The name in
front of it is read character by character, and no escape has a colon in it, so a colon
in the spelling of a name is a colon in the name (`colon_mem_of_readString`).  Where
there is none, the first colon of the text is the one behind the name, and what follows
it is a value and then a comma or a closing brace (`readValue_brace_inv`).

Of such a value two more things are needed: it does not begin with a word other than
the three that JSON has, and a row of digits at its beginning is not followed by a
colon, in whatever script the digits are (`head?_after_digits`).
-/
import LintFindings.Proofs.Json.RoundTrip
import LintFindings.Proofs.Unicode

namespace LintFindings.Json

variable {t u rest : Text} {c d : Char} {fuel : Nat}

/-! ### Names -/

/-- The blanks in front of a text, none of which is a colon. -/
theorem exists_gap (t : Text) : ∃ g, t = g ++ skipGap t ∧ ':' ∉ g := by
  refine ⟨t.takeWhile isGap, List.takeWhile_append_dropWhile.symm, ?_⟩
  intro hmem
  exact absurd (List.mem_takeWhile_imp hmem) (by decide)

theorem hexNumber?_of_mem {ds : Text} (hd : d ∈ ds) (hvalue : Text.hexValue? d = none) :
    Text.hexNumber? ds = none := by
  suffices hfold : ∀ n, ds.foldlM (fun n d => (Text.hexValue? d).map (n * 16 + ·)) n = none from
    hfold 0
  induction ds with
  | nil => simp at hd
  | cons e ds ih =>
      intro n
      rw [List.foldlM_cons]
      rcases List.mem_cons.mp hd with rfl | hd
      · rw [hvalue]
        rfl
      · cases Text.hexValue? e with
        | none => rfl
        | some m => exact ih hd _

/-- A string is read up to some quote, and a colon before the quote is one of its pieces. -/
theorem readPieces_eq_some {ps : List Piece} (h : readPieces t = some (ps, rest)) :
    ∃ raw, t = raw ++ '"' :: rest ∧ (':' ∈ raw → .char ':' ∈ ps) := by
  fun_induction readPieces t generalizing ps with
  | case1 => cases h
  | case2 t =>
      cases h
      exact ⟨[], rfl, by simp⟩
  | case3 a b c d t ih =>
      simp only [Option.bind_eq_bind, Option.bind_eq_some_iff] at h
      obtain ⟨n, hn, ⟨qs, rest'⟩, hread, heq⟩ := h
      cases heq
      obtain ⟨raw, rfl, hcolon⟩ := ih hread
      refine ⟨'\\' :: 'u' :: a :: b :: c :: d :: raw, rfl, ?_⟩
      intro hmem
      have hdigit : ':' ∉ [a, b, c, d] := by
        intro hdigit
        rw [hexNumber?_of_mem hdigit (by decide)] at hn
        cases hn
      have hraw : ':' ∈ raw := by
        simp only [List.mem_cons, List.not_mem_nil, or_false, not_or] at hdigit
        simpa [hdigit] using hmem
      exact List.mem_cons_of_mem _ (hcolon hraw)
  | case4 e t hne ih =>
      simp only [Option.bind_eq_bind, Option.bind_eq_some_iff] at h
      obtain ⟨x, hx, ⟨qs, rest'⟩, hread, heq⟩ := h
      cases heq
      obtain ⟨raw, rfl, hcolon⟩ := ih hread
      refine ⟨'\\' :: e :: raw, rfl, ?_⟩
      intro hmem
      have he : e ≠ ':' := by
        rintro rfl
        cases hx
      have hraw : ':' ∈ raw := by simpa [he.symm] using hmem
      exact List.mem_cons_of_mem _ (hcolon hraw)
  | case5 c t _ _ _ hbad => cases h
  | case6 c t _ _ _ hgood ih =>
      simp only [Option.bind_eq_bind, Option.bind_eq_some_iff] at h
      obtain ⟨⟨qs, rest'⟩, hread, heq⟩ := h
      cases heq
      obtain ⟨raw, rfl, hcolon⟩ := ih hread
      refine ⟨c :: raw, rfl, ?_⟩
      intro hmem
      rcases List.mem_cons.mp hmem with rfl | hraw
      · exact List.mem_cons_self
      · exact List.mem_cons_of_mem _ (hcolon hraw)

/-- What stands in a string as a character is a character of its text. -/
theorem mem_of_joinUnits {ps : List Piece} {s : Text} (h : joinUnits ps = some s)
    (hc : .char c ∈ ps) : c ∈ s := by
  fun_induction joinUnits ps generalizing s with
  | case1 => simp at hc
  | case2 d ps ih =>
      obtain ⟨s', hs', rfl⟩ := Option.map_eq_some_iff.mp h
      rcases List.mem_cons.mp hc with heq | hc
      · cases heq
        exact List.mem_cons_self
      · exact List.mem_cons_of_mem _ (ih hs' hc)
  | case3 n _ m ps _ ih =>
      obtain ⟨s', hs', rfl⟩ := Option.map_eq_some_iff.mp h
      exact List.mem_cons_of_mem _ (ih hs' (by simpa using hc))
  | case4 => cases h
  | case5 => cases h
  | case6 => cases h
  | case7 n ps _ _ ih =>
      obtain ⟨s', hs', rfl⟩ := Option.map_eq_some_iff.mp h
      exact List.mem_cons_of_mem _ (ih hs' (by simpa using hc))

/-- **A colon in the spelling of a string is a colon in its text.** -/
theorem colon_mem_of_readString {s : Option Text} (h : readString t = some (s, rest)) :
    ∃ raw, t = raw ++ '"' :: rest ∧ ∀ name ∈ s, ':' ∈ raw → ':' ∈ name := by
  obtain ⟨⟨ps, rest'⟩, hread, heq⟩ := Option.map_eq_some_iff.mp h
  cases heq
  obtain ⟨raw, hraw, hcolon⟩ := readPieces_eq_some hread
  exact ⟨raw, hraw, fun name hname hmem => mem_of_joinUnits hname (hcolon hmem)⟩

/-! ### Objects -/

/-- A text whose first colon stands behind a name, unless the name has one itself.  A value
follows it, and then a comma or a closing brace. -/
def NameFirst (t : Text) (name : Option Text) : Prop :=
  ∃ front u fuel v rest, t = front ++ ':' :: u ∧ (∀ s ∈ name, ':' ∈ front → ':' ∈ s) ∧
    readValue fuel u = some (v, rest) ∧
    ((skipGap rest).head? = some ',' ∨ (skipGap rest).head? = some '}')

theorem readMembers_inv {ms : List (Option Text × Json)}
    (h : readMembers fuel t = some (ms, rest)) :
    ∃ name v ms', ms = (name, v) :: ms' ∧ NameFirst t name := by
  cases fuel with
  | zero => cases h
  | succ fuel =>
      rw [readMembers] at h
      split at h
      case h_2 => cases h
      case h_1 t₁ hskip =>
        simp only [Option.bind_eq_bind, Option.bind_eq_some_iff] at h
        obtain ⟨⟨name, t₂⟩, hname, h⟩ := h
        split at h
        case h_2 => cases h
        case h_1 u hu =>
          simp only [Option.bind_eq_some_iff] at h
          obtain ⟨⟨v, t₃⟩, hvalue, h⟩ := h
          obtain ⟨g₁, hg₁, hcolon₁⟩ := exists_gap t
          obtain ⟨raw, hraw, hcolon⟩ := colon_mem_of_readString hname
          obtain ⟨g₂, hg₂, hcolon₂⟩ := exists_gap t₂
          rw [hskip, hraw, hg₂, hu] at hg₁
          have hsplit : t = g₁ ++ '"' :: (raw ++ '"' :: g₂) ++ ':' :: u := by simpa using hg₁
          have hfront : ∀ s ∈ name, ':' ∈ g₁ ++ '"' :: (raw ++ '"' :: g₂) → ':' ∈ s := by
            intro s hs hmem
            refine hcolon s hs ?_
            simpa [hcolon₁, hcolon₂] using hmem
          split at h
          case h_1 t₄ hend =>
            obtain ⟨⟨ms', t₅⟩, -, heq⟩ := Option.map_eq_some_iff.mp h
            cases heq
            exact ⟨name, v, ms', rfl, _, u, fuel, v, t₃, hsplit, hfront, hvalue, by simp [hend]⟩
          case h_2 t₄ hend =>
            cases h
            exact ⟨name, v, [], rfl, _, u, fuel, v, t₃, hsplit, hfront, hvalue, by simp [hend]⟩
          case h_3 => cases h

/-- **What an opening brace opens**: an object with no members, or one with a first member. -/
theorem readValue_brace_inv {v : Json} (h : readValue fuel ('{' :: t) = some (v, rest)) :
    v = .object [] ∨
      ∃ name w ms, v = .object ((name, w) :: ms) ∧ NameFirst ('{' :: t) name := by
  cases fuel with
  | zero => cases h
  | succ fuel =>
      rw [readValue, skipGap_cons (c := '{') (by decide)] at h
      simp only at h
      split at h
      case h_1 =>
        cases h
        exact .inl rfl
      case h_2 =>
        obtain ⟨⟨ms, t₁⟩, hms, heq⟩ := Option.map_eq_some_iff.mp h
        cases heq
        obtain ⟨name, w, ms', rfl, front, u, fuel', x, rest', hsplit, hfront, hvalue, hend⟩ :=
          readMembers_inv hms
        obtain ⟨g, hg, hcolon⟩ := exists_gap t
        refine .inr ⟨name, w, ms', rfl, '{' :: g ++ front, u, fuel', x, rest', ?_, ?_, hvalue, hend⟩
        · rw [hg, hsplit]
          simp
        · intro s hs hmem
          refine hfront s hs ?_
          simpa [hcolon] using hmem

/-! ### Values behind the first colon -/

/-- A number ends with its digits, unless a point or an exponent follows them. -/
theorem rest_of_readNumber {n : Number} (hc : c ≠ '-')
    (hend : ∀ d ∈ ((c :: t).dropWhile Char.isDigit).head?, d ≠ '.' ∧ d ≠ 'e' ∧ d ≠ 'E')
    (h : readNumber (c :: t) = some (n, rest)) : rest = (c :: t).dropWhile Char.isDigit := by
  have hsign : readSign (c :: t) = (false, c :: t) := by
    rw [readSign]
    intro _ heq
    exact hc (List.cons.inj heq).1
  simp only [readNumber, hsign, Option.bind_eq_bind, Option.bind_eq_some_iff] at h
  obtain ⟨⟨whole, t₁⟩, hwhole, ⟨fraction, t₂⟩, hfraction, ⟨exponent, t₃⟩, hexponent, heq⟩ := h
  cases heq
  have ht₁ : t₁ = (c :: t).dropWhile Char.isDigit := by
    simp only [readWhole, readDigits, Option.bind_eq_bind, Option.bind_eq_some_iff] at hwhole
    obtain ⟨⟨ds, t'⟩, hdigits, hwhole⟩ := hwhole
    split at hdigits
    · cases hdigits
    · cases hdigits
      split at hwhole
      · cases hwhole
      · cases hwhole
        rfl
  rw [← ht₁] at hend ⊢
  cases t₁ with
  | nil =>
      cases hfraction
      cases hexponent
      rfl
  | cons d t₁ =>
      obtain ⟨hpoint, he, hE⟩ := hend d rfl
      have ht₂ : t₂ = d :: t₁ := by
        rw [readFraction] at hfraction
        · cases hfraction
          rfl
        · intro _ heq
          exact hpoint (List.cons.inj heq).1
      rw [ht₂, readExponent, if_neg (by simp [he, hE])] at hexponent
      cases hexponent
      rfl

theorem ne_of_isDecimalDigit (hc : Unicode.isDecimalDigit c = true)
    (hd : Unicode.isDecimalDigit d = false) : c ≠ d := by
  rintro rfl
  rw [hc] at hd
  exact Bool.noConfusion hd

theorem isGap_of_isDecimalDigit (hc : Unicode.isDecimalDigit c = true) : isGap c = false := by
  cases hgap : isGap c with
  | false => rfl
  | true =>
      exfalso
      rcases isGap_eq_true hgap with rfl | rfl | rfl | rfl <;> revert hc <;> decide

/-- A value that begins with a digit is a number. -/
theorem readNumber_of_readValue {v : Json} (hc : Unicode.isDecimalDigit c = true)
    (h : readValue fuel (c :: t) = some (v, rest)) :
    ∃ n, readNumber (c :: t) = some (n, rest) := by
  cases fuel with
  | zero => cases h
  | succ fuel =>
      rw [readValue, skipGap_cons (isGap_of_isDecimalDigit hc)] at h
      split at h
      case h_7 =>
        obtain ⟨⟨n, rest'⟩, hnumber, heq⟩ := Option.map_eq_some_iff.mp h
        cases heq
        exact ⟨n, hnumber⟩
      all_goals
        rename_i heq
        exact absurd (List.cons.inj heq).1 (ne_of_isDecimalDigit hc (by decide))

/-- **No colon follows the digits that a value begins with.**  The digits of other scripts than
ASCII are no part of a number, so where they follow, a value cannot end. -/
theorem head?_after_digits {v : Json} (hc : Unicode.isDecimalDigit c = true)
    (h : readValue fuel (c :: t) = some (v, rest))
    (hend : (skipGap rest).head? = some ',' ∨ (skipGap rest).head? = some '}') :
    ((c :: t).dropWhile Unicode.isDecimalDigit).head? ≠ some ':' := by
  obtain ⟨n, hnumber⟩ := readNumber_of_readValue hc h
  have hminus : c ≠ '-' := ne_of_isDecimalDigit hc (by decide)
  have hnext : ∀ d ∈ ((c :: t).dropWhile Char.isDigit).head?,
      Unicode.isDecimalDigit d = false ∧ d ≠ ':' := by
    intro d hd
    by_cases hstop : d ≠ '.' ∧ d ≠ 'e' ∧ d ≠ 'E'
    · have hrest := rest_of_readNumber hminus
        (fun d' hd' => by rwa [Option.mem_unique hd' hd]) hnumber
      by_contra hbad
      have hgap : isGap d = false := by
        by_cases hdigit : Unicode.isDecimalDigit d = true
        · exact isGap_of_isDecimalDigit hdigit
        · obtain rfl : d = ':' := by simpa [hdigit] using hbad
          rfl
      obtain ⟨u, hu⟩ := List.head?_eq_some_iff.mp hd
      rw [hrest, hu, skipGap_cons hgap, List.head?_cons] at hend
      apply hbad
      rcases hend with hend | hend <;> cases hend <;> decide
    · have hcases : d = '.' ∨ d = 'e' ∨ d = 'E' := by
        by_contra hnone
        exact hstop (by simpa [not_or] using hnone)
      rcases hcases with rfl | rfl | rfl <;> decide
  have hsplit : (c :: t).takeWhile Char.isDigit ++ (c :: t).dropWhile Char.isDigit = c :: t :=
    List.takeWhile_append_dropWhile
  rw [← hsplit, Text.dropWhile_run
    (fun d hd => Unicode.isDecimalDigit_of_isDigit (List.mem_takeWhile_imp hd))
    fun d hd => (hnext d hd).1]
  intro hcolon
  exact (hnext ':' hcolon).2 rfl

end LintFindings.Json
