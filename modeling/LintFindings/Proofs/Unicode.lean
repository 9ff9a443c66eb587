/-
What the tables of characters say.

A table of characters is long, and only a few facts are needed of it: that
ASCII characters fold as they become small, that two other characters fold to
ASCII letters, and that no character of a word is a blank.  The first follows from
the first row of the folding table, and the second from the images of all of its
rows; for the third, every run of the category table is held against the blanks.
-/
import LintFindings.Unicode.Category
import LintFindings.Unicode.Folding
import LintFindings.Proofs.Text

namespace LintFindings.Unicode

variable {c : Char} {n : Nat} {kind : Category → Bool} {runs : Array (Nat × Category)}

/-! ### Case folding -/

/-- The row of the ASCII capitals is the only one that holds ASCII characters. -/
theorem folded?_of_ascii (hn : n < 0x80) :
    foldRows.findSome? (·.folded? n) = (FoldRow.mk 0x41 0x5A 1 0x61).folded? n := by
  have hfirst : ∀ row ∈ foldRows.tail, 0x80 ≤ row.first := by decide +kernel
  have hrest : ∀ row ∈ foldRows.tail, row.folded? n = none := by
    intro row hrow
    have hrow' := hfirst row hrow
    exact if_neg fun h => absurd h.1 (by omega)
  have hsplit : foldRows = FoldRow.mk 0x41 0x5A 1 0x61 :: foldRows.tail := rfl
  rw [hsplit, List.findSome?_cons, List.findSome?_eq_none_iff.mpr hrest]
  cases FoldRow.folded? ⟨0x41, 0x5A, 1, 0x61⟩ n <;> rfl

theorem foldCase_of_ascii (hc : c.toNat < 0x80) : foldCase c = c.toLower := by
  have hrow : ∀ n < 0x80, (((FoldRow.mk 0x41 0x5A 1 0x61).folded? n).map Char.ofNat).getD
      (Char.ofNat n) = (Char.ofNat n).toLower := by decide +kernel
  have hc' := hrow c.toNat hc
  rw [Char.ofNat_toNat] at hc'
  rw [← hc', foldCase, folded?_of_ascii hc]
  cases FoldRow.folded? ⟨0x41, 0x5A, 1, 0x61⟩ c.toNat <;> rfl

/-- Only the long s and the Kelvin sign fold to ASCII characters without being such. -/
theorem of_foldCase_ascii (h : (foldCase c).toNat < 0x80) :
    c.toNat < 0x80 ∨ c = 'ſ' ∨ c = '\u212a' := by
  have hrows : ∀ row ∈ foldRows, row.last < 0x80 ∨ (row.first = 0x17F ∧ row.last = 0x17F) ∨
      (row.first = 0x212A ∧ row.last = 0x212A) ∨
      (0x80 ≤ row.image ∧ row.image + (row.last - row.first) < 0xD800) ∨
      (0xE000 ≤ row.image ∧ row.image + (row.last - row.first) < 0x110000) := by
    decide +kernel
  rw [foldCase] at h
  split at h
  · rename_i n hn
    obtain ⟨row, hrow, hfolded⟩ := List.exists_of_findSome?_eq_some hn
    rw [FoldRow.folded?] at hfolded
    split at hfolded
    · rename_i hin
      obtain ⟨hfirst, hlast, -⟩ := hin
      have himage : row.image + (c.toNat - row.first) = n := Option.some.inj hfolded
      -- an image beyond ASCII is a code point of its own
      have hwide (hn : 0x80 ≤ n) (hvalid : n.isValidChar) : False := by
        rw [Char.ofNat, dif_pos hvalid] at h
        exact absurd (show n < 0x80 from h) (Nat.not_lt_of_le hn)
      obtain hascii | hlong | hkelvin | hlow | hhigh := hrows row hrow
      · exact Or.inl (by omega)
      · refine Or.inr (Or.inl ?_)
        rw [← Char.ofNat_toNat c, show c.toNat = 0x17F by omega]
      · refine Or.inr (Or.inr ?_)
        rw [← Char.ofNat_toNat c, show c.toNat = 0x212A by omega]
      · exact (hwide (by omega) (Or.inl (by omega))).elim
      · exact (hwide (by omega) (Or.inr ⟨by omega, by omega⟩)).elim
    · cases hfolded
  · exact Or.inl h

/-! ### Categories -/

theorem isDecimalDigit_of_isDigit (h : c.isDigit = true) : isDecimalDigit c = true := by
  have hrange := Text.toNat_of_isAlphanum (Text.isAlphanum_of_isDigit h)
  rw [isDecimalDigit, if_pos (by omega), h]

/-- What a search by halves ends at: the last run that begins at `n` or before. -/
theorem search_spec {steps : Nat} : ∀ {low high : Nat}, low < high → high ≤ runs.size →
    high - low ≤ Nat.pow 2 steps → (∀ run ∈ runs[low]?, run.1 ≤ n) → (∀ run ∈ runs[high]?, n < run.1) →
    ∃ k run, runs[k]? = some run ∧ search runs n steps low high = run.2 ∧ run.1 ≤ n ∧
      ∀ next ∈ runs[k + 1]?, n < next.1 := by
  have hend {low : Nat} (hlow : low < runs.size) (hfrom : ∀ run ∈ runs[low]?, run.1 ≤ n)
      (hto : ∀ run ∈ runs[low + 1]?, n < run.1) :
      ∃ k run, runs[k]? = some run ∧ (runs.getD low (0, .cn)).2 = run.2 ∧ run.1 ≤ n ∧
        ∀ next ∈ runs[k + 1]?, n < next.1 := by
    have hrun : runs[low]? = some runs[low] := Array.getElem?_eq_getElem hlow
    refine ⟨low, runs[low], hrun, ?_, hfrom _ hrun, hto⟩
    rw [Array.getD_eq_getD_getElem?, hrun, Option.getD_some]
  induction steps with
  | zero =>
      intro low high hlow hhigh hsteps hfrom hto
      have hpow : Nat.pow 2 0 = 1 := rfl
      have hnext : high = low + 1 := by omega
      subst hnext
      exact hend (by omega) hfrom hto
  | succ steps ih =>
      intro low high hlow hhigh hsteps hfrom hto
      rw [search]
      by_cases hone : high ≤ low + 1
      · have hnext : high = low + 1 := by omega
        subst hnext
        rw [if_pos hone]
        exact hend (by omega) hfrom hto
      · rw [if_neg hone]
        dsimp only
        have hbound : (low + high) / 2 < runs.size := by omega
        have hmiddle : runs[(low + high) / 2]? = some runs[(low + high) / 2] :=
          Array.getElem?_eq_getElem hbound
        rw [Array.getD_eq_getD_getElem?, hmiddle, Option.getD_some]
        have hpow : Nat.pow 2 (steps + 1) = Nat.pow 2 steps * 2 := rfl
        rw [hpow] at hsteps
        by_cases hn : runs[(low + high) / 2].1 ≤ n
        · rw [if_pos hn]
          refine ih (by omega) hhigh (by omega) (fun run hrun => ?_) hto
          rw [hmiddle] at hrun
          exact Option.some.inj hrun ▸ hn
        · rw [if_neg hn]
          refine ih (by omega) (by omega) (by omega) hfrom fun run hrun => ?_
          rw [hmiddle] at hrun
          exact Option.some.inj hrun ▸ Nat.lt_of_not_le hn

/-- Whether no run of a kind has a character in one of the ranges. -/
def apart (kind : Category → Bool) (ranges : List (Nat × Nat)) : List (Nat × Category) → Bool
  | [] => true
  | run :: back =>
    (!kind run.2 || ranges.all fun r => r.2 < run.1 || back.head?.any (·.1 ≤ r.1)) &&
      apart kind ranges back

theorem kind_of_apart {ranges : List (Nat × Nat)} {r : Nat × Nat} {run : Nat × Category}
    (hr : r ∈ ranges) (hfirst : r.1 ≤ n) (hlast : n ≤ r.2) (hrun : run.1 ≤ n) :
    ∀ {l : List (Nat × Category)} {k : Nat}, apart kind ranges l = true → l[k]? = some run →
      (∀ next ∈ l[k + 1]?, n < next.1) → kind run.2 = false := by
  intro l
  induction l with
  | nil =>
      intro k _ hk
      simp at hk
  | cons run' back ih =>
      intro k hapart hk hnext
      rw [apart, Bool.and_eq_true] at hapart
      cases k with
      | succ k => exact ih hapart.2 hk hnext
      | zero =>
          obtain rfl : run' = run := Option.some.inj hk
          by_contra hkind
          have hrange : (r.2 < run'.1 || back.head?.any (·.1 ≤ r.1)) = true := by
            have hranges := hapart.1
            rw [eq_true_of_ne_false hkind, Bool.not_true, Bool.false_or] at hranges
            exact List.all_eq_true.mp hranges r hr
          rw [Bool.or_eq_true, decide_eq_true_eq, Option.any_eq_true] at hrange
          obtain hbefore | ⟨next, hhead, hbehind⟩ := hrange
          · omega
          · have hn := hnext next (by rwa [List.getElem?_cons_succ, ← List.head?_eq_getElem?])
            have hbehind := of_decide_eq_true hbehind
            omega

/-- A character is of no kind that is apart from a range which holds it. -/
theorem kind_search {ranges : List (Nat × Nat)} {r : Nat × Nat} {l : List (Nat × Category)}
    (hlength : l.length ≤ Nat.pow 2 16) (hhead : l.head?.map Prod.fst = some 0)
    (hapart : apart kind ranges l = true) (hr : r ∈ ranges) (hfirst : r.1 ≤ n) (hlast : n ≤ r.2) :
    kind (search l.toArray n 16 0 l.toArray.size) = false := by
  obtain ⟨run, hrun, hzero⟩ := Option.map_eq_some_iff.mp hhead
  rw [List.head?_eq_getElem?] at hrun
  have hlow : ∀ run ∈ l.toArray[0]?, run.1 ≤ n := by
    intro run' hrun'
    rw [List.getElem?_toArray, hrun] at hrun'
    obtain rfl : run = run' := Option.some.inj hrun'
    omega
  have hpos : 0 < l.toArray.size := (List.getElem?_eq_some_iff.mp hrun).1
  have hsteps : l.toArray.size - 0 ≤ Nat.pow 2 16 := hlength
  obtain ⟨k, run, hk, hsearch, hrun, hnext⟩ := search_spec hpos (Nat.le_refl _) hsteps hlow
    (by simp)
  rw [hsearch]
  simp only [List.getElem?_toArray] at hk hnext
  exact kind_of_apart hr hfirst hlast hrun hapart hk hnext

/-- The categories of the characters of words. -/
def Category.isOfWords (g : Category) : Bool :=
  g.isLetter || g.isMark || g = .nd || g = .nl || g = .pc

/-- The blanks that are not ASCII characters. -/
def wideBlanks : List (Nat × Nat) :=
  [(0x85, 0x85), (0xA0, 0xA0), (0x1680, 0x1680), (0x2000, 0x200A), (0x2028, 0x2029),
    (0x202F, 0x202F), (0x205F, 0x205F), (0x3000, 0x3000)]

theorem exists_wideBlank (hc : isBlank c = true) (hwide : 0x80 ≤ c.toNat) :
    ∃ r ∈ wideBlanks, r.1 ≤ c.toNat ∧ c.toNat ≤ r.2 := by
  simp only [isBlank, Bool.or_eq_true, Bool.and_eq_true, decide_eq_true_eq, beq_iff_eq] at hc
  simp only [wideBlanks, List.mem_cons, List.not_mem_nil, or_false, exists_eq_or_imp,
    exists_eq_left]
  omega

theorem flatMap_toList_cons {s : String} {l t : Text} {lines : List String} (hs : s.toList = l)
    (h : lines.flatMap String.toList = t) : (s :: lines).flatMap String.toList = l ++ t := by
  rw [List.flatMap_cons, hs, h]

/-- The characters of the table, and what a walk through its runs finds.  The characters are
spelled out, as evaluation is slow where it must take them from the lines of the table. -/
theorem exists_table : ∃ t, table.flatMap String.toList = t ∧ (runsOf 0 0 t).length ≤ Nat.pow 2 16 ∧
    (runsOf 0 0 t).head?.map Prod.fst = some 0 ∧
    apart Category.isOfWords wideBlanks (runsOf 0 0 t) = true := by
  apply Exists.intro
  apply And.intro
  · unfold table
    repeat apply flatMap_toList_cons String.toList_ofList
    exact List.flatMap_nil
  · decide +kernel

theorem isOfWords_generalCategory (hc : isBlank c = true) (hwide : 0x80 ≤ c.toNat) :
    (generalCategory c).isOfWords = false := by
  obtain ⟨r, hr, hfirst, hlast⟩ := exists_wideBlank hc hwide
  obtain ⟨t, ht, hlength, hhead, hapart⟩ := exists_table
  rw [generalCategory, runs, ht]
  exact kind_search hlength hhead hapart hr hfirst hlast

/-- **No character of a word is a blank.** -/
theorem isBlank_of_isWordChar (hc : isWordChar c = true) : isBlank c = false := by
  by_contra hblank
  have hblank := eq_true_of_ne_false hblank
  by_cases hwide : c.toNat < 0x80
  · rw [isWordChar, if_pos hwide, Bool.or_eq_true, beq_iff_eq] at hc
    obtain hc | rfl := hc
    · exact absurd hblank (by simp [Text.isBlank_of_isAlphanum hc])
    · exact absurd hblank (by decide)
  · have hkind := isOfWords_generalCategory hblank (Nat.le_of_not_lt hwide)
    rw [Category.isOfWords] at hkind
    rw [isWordChar, if_neg hwide] at hc
    dsimp only at hc
    rw [hkind, Bool.false_or] at hc
    -- neither a joiner nor an enclosed letter is a blank
    simp only [isEnclosedLetter, isBlank, Bool.or_eq_true, Bool.and_eq_true, decide_eq_true_eq,
      beq_iff_eq] at hc hblank
    omega

end LintFindings.Unicode
