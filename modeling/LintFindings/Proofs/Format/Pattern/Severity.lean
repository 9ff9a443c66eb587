/-
The severity and the code in the pattern of compilers.

Both stand before the message, and each may be missing.  They are read from the mark behind a code
up to the severity, and each of them is a part before which blanks are taken whole (`Reads`).  The
words of a severity are an alternative, each of them in any case.  Behind a word there is a colon, so no
other word is found in its place, and the order of the words does not count (`severity_eq`).
-/
import LintFindings.Proofs.Format.Pattern.Message
import LintFindings.Proofs.Format.Severity

namespace LintFindings.Gnu

open Regex

variable {g : List (Text × Text)} {w : Way} {t u v message rule gap : Text} {o : Option Text}
  {c opening close : Char} {x : Text → Option Text}

/-! ### The mark and the code -/

/-- The mark of a rule that can be fixed. -/
def markPart : Regex := maybe ("[*]".toList.map sign ++ [several .blank])

/-- The code of a rule and its mark. -/
def codePart : Regex :=
  maybe [named "code" (seq [several (.unions [.range 0x41 0x5A]),
    several (.unions [.range 0x30 0x39])]), .loop 0 (some 1) true (sign ':'), several .blank,
    markPart]

theorem Reads.several_blanks {k : Finds}
    {next? : Text → Option Body} {front : Front} (h : Reads k next? front g)
    (hw : w.captured = held (front.taken ++ g)) : (several .blank).answer? k w =
      ((afterBlank? w.rest).bind (afterBlanks? front next?)).map fun b => held (b.taken ++ g) := by
  rw [several, answer?_loop_one]
  cases hrest : w.rest with
  | nil => exact answer?_set_nil hrest
  | cons c t =>
      rw [answer?_set_cons hrest, CharSet.mem_blank, afterBlank?]
      split
      · exact h.blanks ((Way.captured_past (u := [c]) hrest).trans hw)
      · rfl

theorem reads_message (front : Front) (g : List (Text × Text)) :
    Reads fromMessage (message? front) front g :=
  ⟨fun _ => fromMessage_begun, fun _ _ => rfl, fun _ h => h⟩

theorem reads_mark (front : Front) (g : List (Text × Text)) :
    Reads (markPart.answer? fromMessage) (marked? front) front g where
  begun w hw hbegin := by
    rw [markPart, answer?_maybe, answer?_seq_append, answer?_signs, marked?, Option.map_or,
      fromMessage_begun hw hbegin, afterMark?]
    congr 1
    cases hafter : Text.after? "[*]".toList w.rest with
    | none => rfl
    | some t =>
        have hrest := Text.after?_eq_some_iff.mp hafter
        rw [Option.bind_some, Option.bind_some, answer?_seq_cons, answer?_seq_nil]
        exact (reads_message front g).several_blanks ((Way.captured_past hrest).trans hw)
  blank w hw := by
    have hafter : Text.after? "[*]".toList w.rest = none := by
      rw [Option.eq_none_iff_forall_ne_some]
      intro t ht
      rw [Text.after?_eq_some_iff.mp ht] at hw
      cases hw '[' rfl
    rw [markPart, answer?_maybe, answer?_seq_append, answer?_signs, hafter]
    rfl
  plain t h := (Option.or_eq_none_iff.mp h).2

theorem isAlpha_of_isUpper (h : c.isUpper = true) : c.isAlpha = true :=
  (Bool.or_eq_true _ _).mpr (Or.inl h)

theorem mem_upper : (CharSet.unions [.range 0x41 0x5A]).mem = Char.isUpper := by
  funext c
  simp

theorem mem_asciiDigit : (CharSet.unions [.range 0x30 0x39]).mem = Char.isDigit := by
  funext c
  simp

/-- What is found behind a code. -/
def fromColon : Finds :=
  (seq [.loop 0 (some 1) true (sign ':'), several .blank, markPart]).answer? fromMessage

theorem begins_fromColon : Begins fromColon (.union (.single ':') .blank) := by
  refine begins_seq_cons (begins_loop_optional (begins_set.mono ?_)
    (begins_seq_cons (begins_run_one.mono ?_))) <;>
  · intro c hc
    simp_all [CharSet.mem]

theorem fromColon_eq (front : Front) (hw : w.captured = held (front.taken ++ g)) : fromColon w =
    ((afterBlank? (match w.rest with
      | ':' :: t => t
      | t => t)).bind (afterBlanks? front (marked? front))).map fun b => held (b.taken ++ g) := by
  have hblanks {w : Way} (hw : w.captured = held (front.taken ++ g)) :
      (seq [several .blank, markPart]).answer? fromMessage w =
        ((afterBlank? w.rest).bind (afterBlanks? front (marked? front))).map
          fun b => held (b.taken ++ g) := by
    rw [answer?_seq_cons, answer?_seq_cons, answer?_seq_nil]
    exact (reads_mark front g).several_blanks hw
  rw [fromColon, answer?_seq_cons, answer?_loop_optional, answer?_sign, hblanks hw]
  split
  · rename_i t hrest
    rw [hrest, show Text.after? [':'] (':' :: t) = some t from rfl, Option.bind_some,
      hblanks ((Way.captured_past (u := [':']) hrest).trans hw)]
    exact Option.or_none
  · rename_i hcolon
    have hafter : Text.after? [':'] w.rest = none := by
      rw [Option.eq_none_iff_forall_ne_some]
      intro t ht
      exact hcolon t (Text.after?_eq_some_iff.mp ht)
    rw [hafter]
    rfl

/-- What is found from a code on. -/
theorem code_eq {severity : Option Text}
    (hw : w.captured = held (Front.taken ⟨severity, none⟩ ++ g)) :
    (named "code" (seq [several (.unions [.range 0x41 0x5A]),
      several (.unions [.range 0x30 0x39])])).answer? fromColon w =
    ((code? w.rest).bind fun (code, t) =>
      afterBlanks? ⟨severity, some code⟩ (marked? ⟨severity, some code⟩) t).map
        fun b => held (b.taken ++ g) := by
  have hdigit : ∀ c, (CharSet.unions [.range 0x41 0x5A]).mem c = true →
      (CharSet.unions [.range 0x30 0x39]).mem c = false := by
    intro c hc
    rw [mem_upper] at hc
    rw [mem_asciiDigit]
    refine eq_false_of_ne_true fun hdigit => ?_
    cases (isAlpha_of_isUpper hc).symm.trans (Text.isAlpha_of_isDigit hdigit)
  have hcolon : ∀ c, (CharSet.unions [.range 0x30 0x39]).mem c = true →
      (CharSet.union (.single ':') .blank).mem c = false := by
    intro c hc
    rw [mem_asciiDigit] at hc
    have hne : c ≠ ':' := by
      rintro rfl
      cases hc
    simp [CharSet.mem, Text.isBlank_of_isAlphanum (Text.isAlphanum_of_isDigit hc), hne]
  have hleave : Begins (fun w' => fromColon (w'.leave "code".toList))
      (.union (.single ':') .blank) := fun w hw => begins_fromColon (w.leave _) hw
  rw [named, answer?_group_some, answer?_seq_cons, several,
    answer?_run_one (begins_seq_cons begins_several) hdigit, mem_upper, Way.rest_enter, code?]
  dsimp only
  by_cases hletters : w.rest.takeWhile Char.isUpper = []
  · rw [if_pos hletters, if_pos (Or.inl hletters)]
    rfl
  · rw [if_neg hletters, answer?_seq_cons, answer?_seq_nil, several, answer?_run_one hleave hcolon,
      mem_asciiDigit, Way.rest_past]
    by_cases hdigits : (w.rest.dropWhile Char.isUpper).takeWhile Char.isDigit = []
    · rw [if_pos hdigits, if_pos (Or.inr hdigits)]
      rfl
    · rw [if_neg hdigits, if_neg (not_or.mpr ⟨hletters, hdigits⟩), Way.past_past]
      have hrest : w.rest = (w.rest.takeWhile Char.isUpper ++
          (w.rest.dropWhile Char.isUpper).takeWhile Char.isDigit) ++
            (w.rest.dropWhile Char.isUpper).dropWhile Char.isDigit := by
        rw [List.append_assoc, List.takeWhile_append_dropWhile, List.takeWhile_append_dropWhile]
      rw [fromColon_eq ⟨severity, some _⟩ (Way.captured_held hw hrest "code"),
        Option.bind_map]
      rfl

theorem reads_code (severity : Option Text) (g : List (Text × Text)) :
    Reads (codePart.answer? fromMessage) (coded? severity) ⟨severity, none⟩ g where
  begun w hw hbegin := by
    rw [codePart, answer?_maybe, answer?_seq_cons, coded?, Option.map_or,
      fromMessage_begun hw hbegin]
    exact congrArg (Option.or · _) (code_eq hw)
  blank w hw := by
    have hupper : ∀ c ∈ w.rest.head?, (CharSet.unions [.range 0x41 0x5A]).mem c = false := by
      intro c hc
      rw [mem_upper]
      refine eq_false_of_ne_true fun hupper => ?_
      have hblank := Text.isBlank_of_isAlphanum
        (Text.isAlphanum_of_isAlpha (isAlpha_of_isUpper hupper))
      cases hblank.symm.trans (hw c hc)
    rw [codePart, answer?_maybe,
      begins_seq_cons (begins_named (begins_seq_cons begins_several)) w hupper, Option.none_or]
  plain t h := (Option.or_eq_none_iff.mp h).2

/-! ### The severity -/

/-- A word in any case. -/
def caseless (word : Text) : Regex :=
  seq (word.map fun c => .set (.unions ((Unicode.caseVariants c).map .single)))

/-- The severity. -/
def severityPart : Regex :=
  maybe [named "severity" (.group none (oneOf (words.map caseless))), many .blank, sign ':',
    many .blank]

theorem mem_words : t ∈ words ↔ t ∈ Severity.knownTokens.map Prod.fst := by
  have hsub : words.all (Severity.knownTokens.map Prod.fst).contains = true := by decide
  have hsup : (Severity.knownTokens.map Prod.fst).all words.contains = true := by decide
  constructor
  · exact fun h => List.contains_iff_mem.mp (List.all_eq_true.mp hsub t h)
  · exact fun h => List.contains_iff_mem.mp (List.all_eq_true.mp hsup t h)

theorem mem_unions_single {cs : List Char} {d : Char} :
    (CharSet.unions (cs.map .single)).mem d = true ↔ d ∈ cs := by
  rw [CharSet.mem_unions, List.any_map, List.any_eq_true]
  simp only [Function.comp_apply, CharSet.mem_single, beq_iff_eq, exists_eq_right']

/-- The letters of known words. -/
def letters : List Char := "acefghilmnoprstuw".toList

theorem mem_letters (ht : t ∈ words) (hc : c ∈ t) : c ∈ letters := by
  have hwords : words.all (·.all letters.contains) = true := by decide
  exact List.contains_iff_mem.mp (List.all_eq_true.mp (List.all_eq_true.mp hwords t ht) c hc)

/-- The case variants of a letter of known words are the characters that fold to it. -/
theorem mem_caseVariants {d : Char} (hc : c ∈ letters) :
    d ∈ Unicode.caseVariants c ↔ Unicode.foldCase d = c := by
  constructor
  · intro hd
    have hfold : letters.all (fun c =>
        (Unicode.caseVariants c).all fun d => Unicode.foldCase d == c) = true := by
      decide +kernel
    exact beq_iff_eq.mp (List.all_eq_true.mp (List.all_eq_true.mp hfold c hc) d hd)
  · rintro rfl
    have hsmall : letters.all (·.toNat < 0x80) = true := by decide
    have hascii := of_decide_eq_true (List.all_eq_true.mp hsmall _ hc)
    obtain hd | rfl | rfl := Unicode.of_foldCase_ascii hascii
    · have hvariants : (List.range 0x80).all (fun n => letters.contains (Char.ofNat n).toLower →
          (Unicode.caseVariants (Char.ofNat n).toLower).contains (Char.ofNat n)) = true := by
        decide +kernel
      rw [Unicode.foldCase_of_ascii hd] at hc ⊢
      have hvariant := of_decide_eq_true
        (List.all_eq_true.mp hvariants d.toNat (List.mem_range.mpr hd))
      rw [Char.ofNat_toNat] at hvariant
      exact List.contains_iff_mem.mp (hvariant (List.contains_iff_mem.mpr hc))
    · decide +kernel
    · exact absurd hc (by decide +kernel)

theorem answer?_caseless {k : Finds} (hrest : w.rest = u ++ v)
    (hu : ∀ c ∈ u.map Unicode.foldCase, c ∈ letters) :
    (caseless (u.map Unicode.foldCase)).answer? k w = k (w.past u v) := by
  induction u generalizing w with
  | nil =>
      rw [List.nil_append] at hrest
      rw [caseless, List.map_nil, List.map_nil, answer?_seq_nil, Way.past_nil hrest]
  | cons d u ih =>
      rw [List.map_cons] at hu
      obtain ⟨hd, hu⟩ := List.forall_mem_cons.mp hu
      have hmem := mem_unions_single.mpr ((mem_caseVariants hd).mpr rfl)
      have hbehind := ih (w := w.past [d] (u ++ v)) rfl hu
      rw [caseless] at hbehind
      rw [caseless, List.map_cons, List.map_cons, answer?_seq_cons,
        answer?_set_cons (t := u ++ v) hrest, if_pos hmem, hbehind, Way.past_past]
      rfl

theorem exists_of_answer?_caseless {k : Finds}
    (ht : ∀ c ∈ t, c ∈ letters) (h : (caseless t).answer? k w = some x) :
    ∃ u v, w.rest = u ++ v ∧ u.map Unicode.foldCase = t ∧ k (w.past u v) = some x := by
  induction t generalizing w with
  | nil =>
      rw [caseless, List.map_nil, answer?_seq_nil] at h
      exact ⟨[], w.rest, rfl, rfl, h⟩
  | cons c t ih =>
      obtain ⟨hc, ht⟩ := List.forall_mem_cons.mp ht
      rw [caseless, List.map_cons, answer?_seq_cons] at h
      obtain ⟨d, rest, hrest, hd, h⟩ := exists_of_answer?_set h
      obtain ⟨u, v, hsplit, hu, h⟩ := ih ht h
      rw [Way.rest_past] at hsplit
      rw [Way.past_past] at h
      refine ⟨d :: u, v, by rw [hrest, hsplit, List.cons_append], ?_, h⟩
      rw [List.map_cons, (mem_caseVariants hc).mp (mem_unions_single.mp hd), hu]

/-- What is found behind the word of a severity. -/
def fromWord : Finds :=
  (seq [many .blank, sign ':', many .blank]).answer? (codePart.answer? fromMessage)

theorem exists_of_fromWord (h : fromWord w = some x) :
    ∃ gap t, (∀ c ∈ gap, isBlank c = true) ∧ w.rest = gap ++ ':' :: t := by
  rw [fromWord, answer?_seq_cons] at h
  obtain ⟨gap, t, hrest, hgap, h⟩ := exists_of_answer?_run h
  rw [answer?_seq_cons, answer?_sign] at h
  obtain ⟨t', ht', -⟩ := Option.bind_eq_some_iff.mp h
  rw [Way.rest_past] at ht'
  exact ⟨gap, t', hgap, by rw [hrest, Text.after?_eq_some_iff.mp ht']; rfl⟩

theorem fromWord_eq (hw : w.captured = held (took "severity" (some v) ++ g))
    (hgap : ∀ c ∈ gap, isBlank c = true) (hrest : w.rest = gap ++ ':' :: t) : fromWord w =
      (afterBlanks? ⟨some v, none⟩ (coded? (some v)) t).map fun b => held (b.taken ++ g) := by
  have hcolon : ∀ c, CharSet.blank.mem c = true → (CharSet.single ':').mem c = false := by
    intro c hc
    rw [CharSet.mem_single, beq_eq_false_iff_ne]
    rintro rfl
    cases hc
  have hstop : ∀ c ∈ (':' :: t).head?, CharSet.blank.mem c = false := Text.head?_cons_of rfl
  have hpast : (w.past (gap ++ [':']) t).captured =
      held (Front.taken ⟨some v, none⟩ ++ g) :=
    (Way.captured_past (by rw [hrest, List.append_assoc]; rfl)).trans hw
  rw [fromWord, answer?_seq_cons, answer?_seq_cons, answer?_seq_cons, answer?_seq_nil, many,
    answer?_run_append begins_sign hcolon hrest hgap hstop, answer?_sign, Way.rest_past,
    show Text.after? [':'] (':' :: t) = some t from rfl, Option.bind_some, Way.past_past]
  exact (reads_code (some v) g).blanks hpast

theorem chars_of_known (hword : u.map Unicode.foldCase ∈ Severity.knownTokens.map Prod.fst) :
    ∀ c ∈ u, c ≠ ':' ∧ isBlank c = false := by
  intro c hc
  obtain hascii | rfl := ascii_or_longS hword hc
  · have htokens : (Severity.knownTokens.map Prod.fst).all (·.all Char.isAlpha) = true := by decide
    have halpha := List.all_eq_true.mp (List.all_eq_true.mp htokens _ hword) _
      (List.mem_map_of_mem hc)
    rw [Unicode.foldCase_of_ascii hascii] at halpha
    have halpha := Text.isAlpha_of_toLower halpha
    refine ⟨?_, Text.isBlank_of_isAlphanum (Text.isAlphanum_of_isAlpha halpha)⟩
    rintro rfl
    cases halpha
  · decide

theorem exists_severe_of_caseless (ht : t ∈ words)
    (h : (caseless t).answer? (fun w' => fromWord (w'.leave "severity".toList))
      (w.enter "severity".toList) = some x) :
    ∃ word rest, word.map Unicode.foldCase = t ∧ Severe w.rest word rest := by
  obtain ⟨word, v, hrest, rfl, hfound⟩ := exists_of_answer?_caseless (fun c => mem_letters ht) h
  obtain ⟨gap, rest, hgap, hv⟩ := exists_of_fromWord hfound
  rw [Way.rest_leave, Way.rest_past] at hv
  rw [Way.rest_enter, hv, ← List.append_assoc] at hrest
  have hknown := mem_words.mp ht
  exact ⟨word, rest, rfl, hknown, chars_of_known hknown, gap, hgap, hrest⟩

theorem named_severity_eq :
    (named "severity" (.group none (oneOf (words.map caseless)))).answer? fromWord w =
      words.findSome? fun t => (caseless t).answer?
        (fun w' => fromWord (w'.leave "severity".toList)) (w.enter "severity".toList) := by
  rw [named, answer?_group_some, answer?_group_none, answer?_oneOf, List.findSome?_map]
  · rfl
  · exact fun hnil => absurd (List.map_eq_nil_iff.mp hnil) (by decide)

/-- The word of a severity is the one that the reader finds, whatever the order of the words. -/
theorem severity_eq (hw : w.captured = held g) :
    (named "severity" (.group none (oneOf (words.map caseless)))).answer? fromWord w =
      ((severity? w.rest).bind fun (word, t) =>
        afterBlanks? ⟨some word, none⟩ (coded? (some word)) t).map fun b => held (b.taken ++ g) := by
  rw [named_severity_eq]
  cases hfound : severity? w.rest with
  | none =>
      rw [Option.bind_none, Option.map_none, List.findSome?_eq_none_iff]
      intro t ht
      rw [Option.eq_none_iff_forall_ne_some]
      intro x hx
      obtain ⟨word, rest, -, hsevere⟩ := exists_severe_of_caseless ht hx
      cases hfound.symm.trans (severity?_of_severe hsevere)
  | some found =>
      obtain ⟨word, t⟩ := found
      have hsevere := severe_of_severity? hfound
      obtain ⟨gap, hgap, hrest⟩ := hsevere.eq
      rw [List.append_assoc] at hrest
      have hmem := mem_words.mpr hsevere.known
      rw [findSome?_eq_of_unique hmem, answer?_caseless (w := w.enter _) hrest fun c =>
        mem_letters hmem]
      · exact fromWord_eq (Way.captured_held hw hrest "severity") hgap rfl
      · intro t' ht' hne
        rw [Option.eq_none_iff_forall_ne_some]
        intro x hx
        obtain ⟨word', rest, rfl, hsevere'⟩ := exists_severe_of_caseless ht' hx
        have hword := (takeWhile_of_severe hsevere').1.symm.trans (takeWhile_of_severe hsevere).1
        exact hne (hword ▸ rfl)

theorem reads_severity (g : List (Text × Text)) :
    Reads (severityPart.answer? (codePart.answer? fromMessage)) body? ⟨none, none⟩ g where
  begun w hw hbegin := by
    rw [severityPart, answer?_maybe, answer?_seq_cons, body?, Option.map_or,
      (reads_code none g).begun w hw hbegin]
    exact congrArg (Option.or · _) (severity_eq hw)
  blank w hw := by
    have hnone : (named "severity" (.group none (oneOf (words.map caseless)))).answer? fromWord w =
        none := by
      rw [named_severity_eq, List.findSome?_eq_none_iff]
      intro t ht
      rw [Option.eq_none_iff_forall_ne_some]
      intro x hx
      obtain ⟨word, rest, rfl, hsevere⟩ := exists_severe_of_caseless ht hx
      obtain ⟨gap, -, hrest⟩ := hsevere.eq
      cases word with
      | nil => exact absurd ht (by decide)
      | cons c word =>
          rw [hrest] at hw
          cases (hw c rfl).symm.trans (hsevere.chars c List.mem_cons_self).2
    rw [severityPart, answer?_maybe, answer?_seq_cons]
    exact (congrArg (Option.or · _) hnone).trans ((reads_code none g).blank w hw)
  plain t h := (reads_code none []).plain t (Option.or_eq_none_iff.mp h).2

end LintFindings.Gnu
