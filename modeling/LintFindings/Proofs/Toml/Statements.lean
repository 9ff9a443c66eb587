/-
Reading the statements of a document gives back what was written.

A text `Reads` as some statements if it does so whatever follows it.  Such texts may be
put one behind the other (`Reads.append`), so a document is read once its lines are:
headers, empty lines, and entries whose values read (`ReadsValue`).

Only the amount of fuel is not the same for each part of a document.  One unit for each
character is always enough, since no statement is empty; `Reads` says no more than that.
-/
import LintFindings.Toml.Reader
import LintFindings.Proofs.Toml.Strings

namespace LintFindings.Toml

variable {t u w rest : Text} {c : Char} {key : Text} {v : Toml} {s : Statement}
  {ss ss' : List Statement}

/-! ### Gaps -/

theorem skipGap_of_head (h : ∀ c ∈ t.head?, isGap c = false) : skipGap t = t := by
  cases t with
  | nil => rfl
  | cons c t => rw [skipGap, List.dropWhile_cons_of_neg (by simpa using h c rfl)]

/-- What may begin a statement: an opening bracket, a quote or a character of keys. -/
def Begins (c : Char) : Prop := c = '[' ∨ c = '"' ∨ c = '\'' ∨ isBare c = true

instance (c : Char) : Decidable (Begins c) :=
  inferInstanceAs (Decidable (c = '[' ∨ c = '"' ∨ c = '\'' ∨ isBare c = true))

/-- Nothing else begins with what a statement begins with. -/
theorem Begins.ne (h : Begins c) : c ≠ ' ' ∧ c ≠ '\t' ∧ c ≠ '#' ∧ c ≠ '\n' ∧ c ≠ '\r' := by
  refine ⟨?_, ?_, ?_, ?_, ?_⟩ <;>
    · rintro rfl
      revert h
      decide

theorem Begins.isGap (h : Begins c) : isGap c = false := by
  obtain ⟨hspace, htab, -⟩ := h.ne
  simp [Toml.isGap, hspace, htab]

/-! ### Entries -/

theorem readKey_writeKey (n : Nat) (key rest : Text) :
    readKey (n + 2) (writeKey key ++ ' ' :: '=' :: rest) = some ([key], '=' :: rest) := by
  obtain ⟨c, u, hkey, hc⟩ := (keySpelling_writeKey key).cons
  have hskip : skipGap (writeKey key ++ ' ' :: '=' :: rest)
      = writeKey key ++ ' ' :: '=' :: rest := by
    rw [hkey]
    refine skipGap_of_head ?_
    rintro d ⟨⟩
    exact Begins.isGap (.inr hc)
  have hread : readSimpleKey (writeKey key ++ ' ' :: '=' :: rest)
      = some (key, ' ' :: '=' :: rest) := by
    refine readSimpleKey_writeKey key ?_
    rintro d ⟨⟩
    rfl
  rw [readKey, hskip, hread]
  rfl

/-- Whether a text is read as a value that stands at the end of a line. -/
structure ReadsValue (w : Text) (v : Toml) : Prop where
  head : ∃ c u, w = c :: u ∧ isGap c = false
  read : ∀ n rest, w.length ≤ n → readValue (n + 2) 0 (w ++ '\n' :: rest) = some (v, '\n' :: rest)

/-- An entry on a line of its own is read back. -/
theorem readStatement_entry (h : ReadsValue w v) (key rest : Text) :
    readStatement (writeKey key ++ " = ".toList ++ w ++ ['\n'] ++ rest)
      = some (.entry [key] v, rest) := by
  obtain ⟨c, u, hkey, hc⟩ := (keySpelling_writeKey key).cons
  obtain ⟨d, w, rfl, hd⟩ := h.head
  have hbracket : c ≠ '[' := by
    rintro rfl
    revert hc
    decide
  have hskip : skipGap (' ' :: (d :: w ++ '\n' :: rest)) = d :: w ++ '\n' :: rest :=
    List.dropWhile_cons_of_pos rfl |>.trans (skipGap_of_head (by rintro e ⟨⟩; exact hd))
  have hshape : writeKey key ++ " = ".toList ++ (d :: w) ++ ['\n'] ++ rest
      = writeKey key ++ ' ' :: '=' :: ' ' :: (d :: w ++ '\n' :: rest) := by simp
  have hvalue := h.read (2 * (' ' :: (d :: w ++ '\n' :: rest)).length) rest (by simp; omega)
  rw [hshape, readStatement]
  · rw [maxNesting, readKey_writeKey]
    change ((readValue (2 * (' ' :: (d :: w ++ '\n' :: rest)).length + 2) 0
      (skipGap (' ' :: (d :: w ++ '\n' :: rest)))).bind fun read =>
        (afterLine? read.2).map (Statement.entry [key] read.1, ·)) = _
    rw [hskip, hvalue]
    rfl
  · intro _ ht
    rw [hkey] at ht
    exact hbracket (List.cons.inj ht).1
  · intro _ ht
    rw [hkey] at ht
    exact hbracket (List.cons.inj ht).1

/-! ### Strings and arrays -/

theorem readValue_writeString (n level : Nat) (t : Text)
    (hrest : ∀ c ∈ rest.head?, c ≠ '"' ∧ c ≠ '\'') :
    readValue (n + 1) level (writeString t ++ rest) = some (.string t, rest) := by
  have hread := readString_writeString t hrest
  obtain ⟨c, u, ht, hc⟩ := writeString_cons t
  rw [ht] at hread ⊢
  rcases hc with rfl | rfl
  · change (readString ('"' :: u ++ rest)).map _ = _
    rw [hread]
    rfl
  · change (readString ('\'' :: u ++ rest)).map _ = _
    rw [hread]
    rfl

/-- What is not passed over between the items of an array. -/
def Shown (c : Char) : Prop := isGap c = false ∧ c ≠ '#' ∧ c ≠ '\n' ∧ c ≠ '\r'

instance (c : Char) : Decidable (Shown c) :=
  inferInstanceAs (Decidable (isGap c = false ∧ c ≠ '#' ∧ c ≠ '\n' ∧ c ≠ '\r'))

theorem skipLines_gap {gap : Text} (hgap : ∀ c ∈ gap, isGap c = true) (hc : Shown c) (n : Nat)
    (t : Text) : skipLines (n + 1) (gap ++ c :: t) = some (c :: t) := by
  obtain ⟨hno, hhash, hbreak, hreturn⟩ := hc
  have hskip : skipGap (gap ++ c :: t) = c :: t :=
    Text.dropWhile_run hgap (by rintro d ⟨⟩; exact hno)
  rw [skipLines, hskip]
  split
  · rename_i ht
    exact absurd (List.cons.inj ht).1 hhash
  · rename_i ht
    exact absurd (List.cons.inj ht).1 hbreak
  · rename_i ht
    exact absurd (List.cons.inj ht).1 hreturn
  · rfl

theorem skipLines_shown (hc : Shown c) (n : Nat) (t : Text) :
    skipLines (n + 1) (c :: t) = some (c :: t) :=
  skipLines_gap (List.forall_mem_nil _) hc n t

theorem skipLines_newline (n : Nat) (t : Text) :
    skipLines (n + 1) ('\n' :: t) = skipLines n t := rfl

theorem readItems_end (n level : Nat) (h : skipLines (t.length + 1) t = some (']' :: u)) :
    readItems (n + 1) level t = some ([], u) := by
  rw [readItems, h]
  rfl

theorem readItems_more {n level : Nat} {t' u' : Text}
    (h : skipLines (t.length + 1) t = some w) (hw : w.head? ≠ some ']')
    (hv : readValue n level w = some (v, t'))
    (h' : skipLines (t'.length + 1) t' = some (',' :: u')) :
    readItems (n + 1) level t = (readItems n level u').map fun (vs, t) => (v :: vs, t) := by
  rw [readItems, h]
  dsimp only [bind, Option.bind]
  split
  · exact absurd rfl hw
  · rw [hv]
    dsimp only
    rw [h']
    rfl

theorem readItems_last {n level : Nat} {t' u' : Text}
    (h : skipLines (t.length + 1) t = some w) (hw : w.head? ≠ some ']')
    (hv : readValue n level w = some (v, t'))
    (h' : skipLines (t'.length + 1) t' = some (']' :: u')) :
    readItems (n + 1) level t = some ([v], u') := by
  rw [readItems, h]
  dsimp only [bind, Option.bind]
  split
  · exact absurd rfl hw
  · rw [hv]
    dsimp only
    rw [h']
    rfl

/-! ### Documents -/

/-- Whether a text is read as some statements, whatever follows it. -/
def Reads (t : Text) (ss : List Statement) : Prop :=
  ∀ rest fuel, (t ++ rest).length < fuel →
    ∃ fuel', rest.length < fuel' ∧
      readStatements fuel (t ++ rest) = (readStatements fuel' rest).map (ss ++ ·)

theorem Reads.nil : Reads [] [] := by
  intro rest fuel hfuel
  exact ⟨fuel, hfuel, by simp⟩

theorem Reads.append (ht : Reads t ss) (hu : Reads u ss') : Reads (t ++ u) (ss ++ ss') := by
  intro rest fuel hfuel
  rw [List.append_assoc] at hfuel ⊢
  obtain ⟨fuel₁, hfuel₁, hread₁⟩ := ht (u ++ rest) fuel hfuel
  obtain ⟨fuel₂, hfuel₂, hread₂⟩ := hu rest fuel₁ hfuel₁
  refine ⟨fuel₂, hfuel₂, ?_⟩
  rw [hread₁, hread₂, Option.map_map]
  congr 1
  funext tail
  simp

theorem Reads.flatMap {α : Type} {f : α → Text} {g : α → List Statement}
    (h : ∀ a, Reads (f a) (g a)) (as : List α) : Reads (as.flatMap f) (as.flatMap g) := by
  induction as with
  | nil => exact .nil
  | cons a as ih => exact (h a).append ih

/-- An empty line says nothing. -/
theorem Reads.emptyLine : Reads ['\n'] [] := by
  intro rest fuel hfuel
  cases fuel with
  | zero => omega
  | succ fuel =>
      refine ⟨fuel, by simpa using hfuel, ?_⟩
      rw [readStatements, skipGap_of_head (by rintro d ⟨⟩; rfl)]
      exact Option.map_id'.symm

/-- A text that is read as a statement is a document of one. -/
theorem Reads.statement (hc : Begins c)
    (h : ∀ rest, readStatement (c :: t ++ rest) = some (s, rest)) : Reads (c :: t) [s] := by
  intro rest fuel hfuel
  cases fuel with
  | zero => omega
  | succ fuel =>
      refine ⟨fuel, by simp at hfuel; omega, ?_⟩
      obtain ⟨-, -, hhash, hbreak, hreturn⟩ := hc.ne
      rw [readStatements, skipGap_of_head (by rintro d ⟨⟩; exact hc.isGap)]
      split
      · rename_i ht
        cases ht
      · rename_i ht
        exact absurd (List.cons.inj ht).1 hhash
      · rename_i ht
        exact absurd (List.cons.inj ht).1 hbreak
      · rename_i ht
        exact absurd (List.cons.inj ht).1 hreturn
      · rw [h rest]
        rfl

theorem Reads.entry (h : ReadsValue w v) (key : Text) :
    Reads (writeKey key ++ " = ".toList ++ w ++ ['\n']) [.entry [key] v] := by
  obtain ⟨c, u, hkey, hc⟩ := (keySpelling_writeKey key).cons
  have hread := readStatement_entry h key
  rw [hkey] at hread ⊢
  exact Reads.statement (.inr hc) hread

/-- **A document is read as the statements of its lines.** -/
theorem Reads.document (h : Reads t ss) : readStatements (t.length + 1) t = some ss := by
  obtain ⟨fuel, hfuel, hread⟩ := h [] (t.length + 1) (by simp)
  rw [List.append_nil] at hread
  rw [hread]
  cases fuel with
  | zero => cases hfuel
  | succ fuel =>
      rw [readStatements]
      simp [skipGap]

/-! ### Documents that say nothing -/

/-- A line that has nothing but blanks and perhaps a comment. -/
inductive SilentLine : Text → Prop
  | blank {gap : Text} (hgap : ∀ c ∈ gap, isGap c = true) : SilentLine gap
  | comment {gap u : Text} (hgap : ∀ c ∈ gap, isGap c = true) (hu : ∀ c ∈ u, isPlain c = true) :
      SilentLine (gap ++ '#' :: u)

/-- A text of such lines, of which the last one has no line break. -/
inductive Silent : Text → Prop
  | last {line : Text} (h : SilentLine line) : Silent line
  | more {line t rest : Text} (h : SilentLine line) (hbreak : afterBreak? t = some rest)
      (hrest : Silent rest) : Silent (line ++ t)

theorem afterBreak?_eq_some_iff :
    afterBreak? t = some rest ↔ t = '\n' :: rest ∨ t = '\r' :: '\n' :: rest := by
  constructor
  · intro h
    unfold afterBreak? at h
    split at h
    · cases h
      exact .inl rfl
    · cases h
      exact .inr rfl
    · cases h
  · rintro (rfl | rfl) <;> rfl

/-- A comment ends before its line break. -/
theorem afterLine?_comment (hu : ∀ c ∈ u, isPlain c = true)
    (ht : ∀ c ∈ t.head?, isPlain c = false) :
    afterLine? ('#' :: (u ++ t)) = if t = [] then some [] else afterBreak? t := by
  have hskip : skipGap ('#' :: (u ++ t)) = '#' :: (u ++ t) :=
    skipGap_of_head (by rintro d ⟨⟩; rfl)
  rw [afterLine?, hskip, afterComment?, Text.dropWhile_run hu ht]
  cases t with
  | nil => rfl
  | cons c t => rfl

/-- A line that says nothing is passed over. -/
theorem readStatements_silentLine (h : SilentLine w) (hbreak : afterBreak? t = some rest)
    (fuel : Nat) : readStatements (fuel + 1) (w ++ t) = readStatements fuel rest := by
  have hhead : ∀ c ∈ t.head?, isGap c = false ∧ isPlain c = false := by
    obtain rfl | rfl := afterBreak?_eq_some_iff.mp hbreak
    · rintro c ⟨⟩
      decide
    · rintro c ⟨⟩
      decide
  have hne : t ≠ [] := by
    rintro rfl
    cases hbreak
  cases h with
  | blank hgap =>
      have hskip : skipGap (w ++ t) = t := Text.dropWhile_run hgap fun c hc => (hhead c hc).1
      rw [readStatements, hskip]
      obtain rfl | rfl := afterBreak?_eq_some_iff.mp hbreak
      · rfl
      · rfl
  | @comment gap u hgap hu =>
      have hskip : skipGap (gap ++ '#' :: u ++ t) = '#' :: (u ++ t) := by
        rw [List.append_assoc]
        exact Text.dropWhile_run hgap (by rintro c ⟨⟩; rfl)
      have hline := afterLine?_comment hu fun c hc => (hhead c hc).2
      rw [if_neg hne, hbreak] at hline
      rw [readStatements, hskip]
      change afterLine? ('#' :: (u ++ t)) >>= readStatements fuel = _
      rw [hline]
      rfl

theorem readStatements_lastLine (h : SilentLine w) {fuel : Nat} (hfuel : w.length < fuel) :
    readStatements fuel w = some [] := by
  cases fuel with
  | zero => omega
  | succ fuel =>
      cases h with
      | blank hgap =>
          have hskip : skipGap (w ++ []) = [] := Text.dropWhile_run hgap nofun
          rw [List.append_nil] at hskip
          rw [readStatements, hskip]
      | @comment gap u hgap hu =>
          have hskip : skipGap (gap ++ '#' :: u) = '#' :: (u ++ []) := by
            rw [List.append_nil]
            exact Text.dropWhile_run hgap (by rintro c ⟨⟩; rfl)
          have hline : afterLine? ('#' :: (u ++ [])) = some [] := afterLine?_comment hu nofun
          rw [readStatements, hskip]
          change afterLine? ('#' :: (u ++ [])) >>= readStatements fuel = _
          rw [hline]
          cases fuel with
          | zero => simp at hfuel
          | succ fuel => rfl

theorem readStatements_silent (h : Silent t) {fuel : Nat} (hfuel : t.length < fuel) :
    readStatements fuel t = some [] := by
  induction h generalizing fuel with
  | last h => exact readStatements_lastLine h hfuel
  | @more line t rest h hbreak _ ih =>
      cases fuel with
      | zero => omega
      | succ fuel =>
          rw [readStatements_silentLine h hbreak]
          refine ih ?_
          obtain rfl | rfl := afterBreak?_eq_some_iff.mp hbreak <;>
            simp at hfuel <;> omega

theorem SilentLine.head_ne (h : SilentLine w) : w.head? ≠ some '\uFEFF' := by
  have hblank {gap : Text} (hgap : ∀ c ∈ gap, isGap c = true) : gap.head? ≠ some '\uFEFF' := by
    intro hhead
    exact absurd (hgap _ (List.mem_of_mem_head? hhead)) (by decide)
  cases h with
  | blank hgap => exact hblank hgap
  | @comment gap u hgap _ =>
      intro hhead
      rw [List.head?_append] at hhead
      obtain hgap' | ⟨-, hhash⟩ := Option.or_eq_some_iff.mp hhead
      · exact hblank hgap hgap'
      · cases hhash

theorem Silent.head_ne (h : Silent t) : t.head? ≠ some '\uFEFF' := by
  cases h with
  | last h => exact h.head_ne
  | more h hbreak _ =>
      intro hhead
      rw [List.head?_append] at hhead
      obtain hline | ⟨-, hrest⟩ := Option.or_eq_some_iff.mp hhead
      · exact h.head_ne hline
      · obtain rfl | rfl := afterBreak?_eq_some_iff.mp hbreak <;> cases hrest

/-- **A document of blank lines and comments says nothing.** -/
theorem read?_silent (h : Silent t) : read? t = some [] := by
  unfold read?
  split
  · exact absurd rfl h.head_ne
  · have hread := readStatements_silent h (Nat.lt_succ_self t.length)
    change readStatements (t.length + 1) t >>= ofStatements? = _
    rw [hread]
    rfl

end LintFindings.Toml
