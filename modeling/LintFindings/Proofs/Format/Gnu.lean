/-
How a line of a compiler is cut into its parts.

Each reader of a part scans the text, some of them from behind.  Here each is
described without its scans, as the ways in which a text can be cut: a text that
is `Ruled` ends in a rule, one that is `Severe` begins with a severity, and a
code is told by its letters and digits (`IsCode`).  Read from right to left such
a description finds a part that is there; read from left to right it says what
stands in the text when one is found.
-/
import LintFindings.Format.Gnu
import LintFindings.Proofs.Format.Located

namespace LintFindings

namespace Gnu

variable {t u message rule code word gap file line : Text} {front : Front} {b : Body} {c : Char}

/-! ### The trailing rule -/

/-- A text ends in a rule in brackets, with blanks before it and a message before them. -/
structure Ruled (t message rule : Text) : Prop where
  message_ne : message ≠ []
  message_last : ∀ c ∈ message.getLast?, isBlank c = false
  rule_ne : rule ≠ []
  rule_chars : ∀ c ∈ rule, isRuleChar c = true
  eq : ∃ gap opening close, gap ≠ [] ∧ (∀ c ∈ gap, isBlank c = true) ∧
    (opening = '(' ∨ opening = '[') ∧ (close = ')' ∨ close = ']') ∧
    t = message ++ gap ++ opening :: (rule ++ [close])

theorem isRuleChar_opening (hc : c = '(' ∨ c = '[') : isRuleChar c = false := by
  obtain rfl | rfl := hc <;> decide +kernel

theorem isBlank_of_isRuleChar (hc : isRuleChar c = true) : isBlank c = false := by
  rw [isRuleChar, Bool.or_eq_true] at hc
  obtain hc | hc := hc
  · exact Unicode.isBlank_of_isWordChar hc
  · have hsigns : "./@:=-".toList.any isBlank = false := by decide
    exact eq_false_of_ne_true (List.any_eq_false.mp hsigns c (List.contains_iff_mem.mp hc))

theorem cutRule?_of_ruled (h : Ruled t message rule) : cutRule? t = some (message, rule) := by
  obtain ⟨gap, opening, close, hgapne, hgap, hopening, hclose, rfl⟩ := h.eq
  obtain ⟨front, blank, rfl⟩ := (List.eq_nil_or_concat' gap).resolve_left hgapne
  have hback : (message ++ (front ++ [blank]) ++ opening :: (rule ++ [close])).reverse =
      close :: (rule.reverse ++ opening :: blank :: (message ++ front).reverse) := by simp
  have hrule : ∀ c ∈ rule.reverse, isRuleChar c = true :=
    fun c hc => h.rule_chars c (List.mem_reverse.mp hc)
  have hstop : ∀ c ∈ (opening :: blank :: (message ++ front).reverse).head?,
      isRuleChar c = false := Text.head?_cons_of (isRuleChar_opening hopening)
  have hmessage : Text.trimEnd (message ++ front) = message :=
    Text.trimEnd_append h.message_last fun c hc => hgap c (List.mem_append_left _ hc)
  have hblank : isBlank blank = true := hgap blank (by simp)
  obtain ⟨r, rs, hr⟩ := List.ne_nil_iff_exists_cons.mp fun hnil =>
    h.rule_ne (List.reverse_eq_nil_iff.mp hnil)
  rw [cutRule?, hback]
  dsimp only
  rw [if_pos hclose, Text.takeWhile_run hrule hstop, Text.dropWhile_run hrule hstop, hr]
  dsimp only
  rw [List.reverse_reverse, hmessage, if_pos ⟨hopening, hblank, h.message_ne⟩, ← hr,
    List.reverse_reverse]

theorem ruled_of_cutRule? (h : cutRule? t = some (message, rule)) : Ruled t message rule := by
  rw [cutRule?] at h
  split at h
  · rename_i close back hback
    split at h
    · rename_i hclose
      split at h
      · rename_i r rs opening blank front hrule hfront
        dsimp only at h
        split at h
        · rename_i hgood
          obtain ⟨hopening, hblank, hne⟩ := hgood
          obtain ⟨rfl, rfl⟩ := Prod.mk.inj (Option.some.inj h)
          obtain ⟨gap, hgap, hsplit⟩ := Text.exists_trimEnd front.reverse
          refine ⟨hne, Text.trimEnd_getLast _, ?_, ?_, gap ++ [blank], opening, close, by simp, ?_,
            hopening, hclose, ?_⟩
          · simp [hrule]
          · intro c hc
            exact List.mem_takeWhile_imp (List.mem_reverse.mp hc)
          · intro c hc
            obtain hc | hc := List.mem_append.mp hc
            · exact hgap c hc
            · rwa [List.mem_singleton.mp hc]
          · have hparts : t = front.reverse ++ [blank] ++
                opening :: ((back.takeWhile isRuleChar).reverse ++ [close]) := by
              have hrow : back = back.takeWhile isRuleChar ++ opening :: blank :: front := by
                rw [← hfront, List.takeWhile_append_dropWhile]
              have hreverse := congrArg List.reverse hrow
              rw [← List.reverse_reverse t, hback, List.reverse_cons, hreverse]
              simp
            rw [← List.append_assoc, ← hsplit]
            exact hparts
        · cases h
      · cases h
    · cases h
  · cases h

/-! ### The message -/

theorem message?_of_ruled (h : Ruled t message rule) (hline : '\n' ∉ message) :
    message? front t = some ⟨front.severity, front.code, some rule, message⟩ := by
  rw [message?, cutRule?_of_ruled h]
  dsimp only
  rw [if_neg]
  simpa using ⟨h.message_ne, hline⟩

theorem message?_of_not_ruled (h : ∀ message rule, ¬ Ruled t message rule) (hne : t ≠ [])
    (hline : '\n' ∉ t) : message? front t = some ⟨front.severity, front.code, none, t⟩ := by
  have hcut : cutRule? t = none :=
    Option.eq_none_iff_forall_not_mem.mpr fun (m, r) hm => h m r (ruled_of_cutRule? hm)
  rw [message?, hcut]
  dsimp only
  rw [if_neg]
  simpa using ⟨hne, hline⟩

/-! ### Blanks between the parts -/

section

variable (front : Front) (next? : Text → Option Body) (hne : t ≠ [])
  (ht : ∀ c ∈ t.head?, isBlank c = false)

include hne ht

theorem afterBlanks?_append (hgap : ∀ c ∈ gap, isBlank c = true) :
    afterBlanks? front next? (gap ++ t) = next? t := by
  rw [afterBlanks?, Text.dropWhile_run hgap ht]
  cases t with
  | nil => exact absurd rfl hne
  | cons c t => rfl

theorem afterBlanks?_self : afterBlanks? front next? t = next? t :=
  afterBlanks?_append front next? hne ht (List.forall_mem_nil _)

theorem afterBlanks?_space : afterBlanks? front next? (' ' :: t) = next? t :=
  afterBlanks?_append front next? hne ht (List.forall_mem_singleton.mpr rfl)

end

/-- A reader goes on behind the blanks, unless there is nothing else. -/
theorem afterBlanks?_eq_some {next? : Text → Option Body} (h : afterBlanks? front next? t = some b) :
    ∃ gap u, (∀ c ∈ gap, isBlank c = true) ∧ t = gap ++ u ∧ u ≠ [] ∧
      ((∀ c ∈ u.head?, isBlank c = false) ∧ next? u = some b ∨
        (∀ c ∈ u, isBlank c = true) ∧ message? front u = some b) := by
  rw [afterBlanks?] at h
  split at h
  · rename_i hall
    have hblank : ∀ c ∈ t, isBlank c = true := by
      rw [← List.takeWhile_append_dropWhile (p := isBlank) (l := t), hall, List.append_nil]
      exact fun _ => List.mem_takeWhile_imp
    split at h
    · rename_i c hlast
      split at h
      · cases h
      · obtain ⟨gap, rfl⟩ := List.getLast?_eq_some_iff.mp hlast
        exact ⟨gap, [c], fun d hd => hblank d (by simp [hd]), rfl, by simp,
          Or.inr ⟨fun d hd => hblank d (by simp [hd]), h⟩⟩
    · cases h
  · rename_i hne
    exact ⟨t.takeWhile isBlank, t.dropWhile isBlank, fun _ => List.mem_takeWhile_imp,
      List.takeWhile_append_dropWhile.symm, hne, Or.inl ⟨Text.trimStart_head t, h⟩⟩

theorem afterBlank?_eq_some_iff : afterBlank? t = some u ↔ ∃ c, isBlank c = true ∧ t = c :: u := by
  cases t with
  | nil => simp [afterBlank?]
  | cons c t =>
      rw [afterBlank?]
      by_cases hc : isBlank c = true
      · rw [if_pos hc]
        constructor
        · rintro ⟨⟩
          exact ⟨c, hc, rfl⟩
        · rintro ⟨c', -, heq⟩
          rw [(List.cons.inj heq).2]
      · rw [if_neg hc]
        constructor
        · intro h
          cases h
        · rintro ⟨c', hc', heq⟩
          rw [(List.cons.inj heq).1] at hc
          exact absurd hc' hc

/-! ### The code -/

/-- What the code of a rule looks like. -/
structure IsCode (code : Text) : Prop where
  eq : ∃ letters digits, letters ≠ [] ∧ (∀ c ∈ letters, c.isUpper = true) ∧
    digits ≠ [] ∧ (∀ c ∈ digits, c.isDigit = true) ∧ code = letters ++ digits

/-- A word that would be taken for a code, were it followed by a message. -/
def CodeLike (word : Text) : Prop := ∃ code, IsCode code ∧ (word = code ∨ word = code ++ [':'])

/-- The first word of a text. -/
def firstWord (t : Text) : Text := t.takeWhile (!isBlank ·)

/-- A code begins with a capital. -/
theorem exists_of_isCode (h : IsCode code) : ∃ c t, code = c :: t ∧ c.isUpper = true := by
  obtain ⟨letters, digits, hne, hletters, -, -, rfl⟩ := h.eq
  obtain ⟨c, t, rfl⟩ := List.ne_nil_iff_exists_cons.mp hne
  exact ⟨c, t ++ digits, rfl, hletters c List.mem_cons_self⟩

theorem isAlphanum_of_isCode (h : IsCode code) (hc : c ∈ code) : c.isAlphanum = true := by
  obtain ⟨letters, digits, -, hletters, -, hdigits, rfl⟩ := h.eq
  obtain hc | hc := List.mem_append.mp hc
  · exact Text.isAlphanum_of_isAlpha ((Bool.or_eq_true _ _).mpr (Or.inl (hletters c hc)))
  · exact Text.isAlphanum_of_isDigit (hdigits c hc)

theorem trimmed?_of_isCode (h : IsCode code) : Text.trimmed? code = some code := by
  obtain ⟨c, t, hcons, -⟩ := exists_of_isCode h
  exact Text.trimmed?_of_forall (fun _ hc => Text.isBlank_of_isAlphanum (isAlphanum_of_isCode h hc))
    (hcons ▸ List.cons_ne_nil c t)

theorem code?_append (hcode : IsCode code) (hc : isBlank c = true) {colon : Text}
    (hcolon : colon = [] ∨ colon = [':']) :
    code? (code ++ colon ++ c :: t) = some (code, t) := by
  obtain ⟨letters, digits, hlettersne, hletters, hdigitsne, hdigits, rfl⟩ := hcode.eq
  have hnodigit : ∀ d ∈ (colon ++ c :: t).head?, d.isDigit = false := by
    refine Text.head?_append_of ?_ (Text.head?_cons_of ?_)
    · obtain rfl | rfl := hcolon
      · exact nofun
      · exact Text.head?_cons_of rfl
    · by_contra hdigit
      have hdigit := Text.isAlphanum_of_isDigit (eq_true_of_ne_false hdigit)
      rw [Text.isBlank_of_isAlphanum hdigit] at hc
      cases hc
  have hnoletter : ∀ d ∈ (digits ++ (colon ++ c :: t)).head?, d.isUpper = false := by
    obtain ⟨d, ds, rfl⟩ := List.ne_nil_iff_exists_cons.mp hdigitsne
    have halpha := Text.isAlpha_of_isDigit (hdigits d List.mem_cons_self)
    exact Text.head?_cons_of (Bool.or_eq_false_iff.mp halpha).1
  have hafter : afterBlank? (c :: t) = some t := afterBlank?_eq_some_iff.mpr ⟨c, hc, rfl⟩
  rw [List.append_assoc, List.append_assoc, code?, Text.takeWhile_run hletters hnoletter,
    Text.dropWhile_run hletters hnoletter, Text.takeWhile_run hdigits hnodigit,
    Text.dropWhile_run hdigits hnodigit]
  rw [if_neg (by simp [hlettersne, hdigitsne])]
  obtain rfl | rfl := hcolon
  · rw [List.nil_append]
    split
    · rename_i heq
      rw [(List.cons.inj heq).1] at hc
      exact absurd hc (by decide)
    · rw [hafter, Option.map_some]
  · exact congrArg (Option.map _) hafter

theorem code?_eq_some_iff : code? t = some (code, u) ↔
    IsCode code ∧ ∃ colon c, (colon = [] ∨ colon = [':']) ∧ isBlank c = true ∧
      t = code ++ colon ++ c :: u := by
  constructor
  · intro h
    rw [code?] at h
    split at h
    · cases h
    · rename_i hne
      obtain ⟨hletters, hdigits⟩ := not_or.mp hne
      obtain ⟨u', hu', heq⟩ := Option.map_eq_some_iff.mp h
      obtain ⟨rfl, rfl⟩ := Prod.mk.inj heq
      obtain ⟨c, hc, hrest⟩ := afterBlank?_eq_some_iff.mp hu'
      have hsplit : t = t.takeWhile Char.isUpper ++
          (t.dropWhile Char.isUpper).takeWhile Char.isDigit ++
          (t.dropWhile Char.isUpper).dropWhile Char.isDigit := by
        rw [List.append_assoc, List.takeWhile_append_dropWhile, List.takeWhile_append_dropWhile]
      refine ⟨⟨_, _, hletters, fun _ => List.mem_takeWhile_imp, hdigits,
        fun _ => List.mem_takeWhile_imp, rfl⟩, ?_⟩
      split at hrest
      · rename_i hcolon
        refine ⟨[':'], c, Or.inr rfl, hc, ?_⟩
        rw [hcolon, hrest] at hsplit
        rw [List.append_assoc]
        exact hsplit
      · refine ⟨[], c, Or.inl rfl, hc, ?_⟩
        rw [hrest] at hsplit
        rw [List.append_nil]
        exact hsplit
  · rintro ⟨hcode, colon, c, hcolon, hc, rfl⟩
    exact code?_append hcode hc hcolon

theorem firstWord_run (ht : ∀ c ∈ t, isBlank c = false) (hu : ∀ c ∈ u.head?, isBlank c = true) :
    firstWord (t ++ u) = t :=
  Text.takeWhile_run (fun c hc => by simp [ht c hc]) fun c hc => by simp [hu c hc]

/-- What stands behind a blank does not change the first word. -/
theorem firstWord_append (hu : ∀ c ∈ u.head?, isBlank c = true) :
    firstWord (t ++ u) = firstWord t := by
  induction t with
  | nil => exact firstWord_run (by simp) hu
  | cons c t ih =>
      rw [firstWord, firstWord] at ih
      rw [List.cons_append, firstWord, firstWord, List.takeWhile_cons, List.takeWhile_cons, ih]

/-! ### The mark -/

theorem afterMark?_eq_some_iff :
    afterMark? t = some u ↔ ∃ c, isBlank c = true ∧ t = "[*]".toList ++ c :: u := by
  rw [afterMark?, Option.bind_eq_some_iff]
  constructor
  · rintro ⟨rest, hrest, hu⟩
    obtain ⟨c, hc, rfl⟩ := afterBlank?_eq_some_iff.mp hu
    exact ⟨c, hc, Text.after?_eq_some_iff.mp hrest⟩
  · rintro ⟨c, hc, rfl⟩
    exact ⟨c :: u, Text.after?_eq_some_iff.mpr rfl, afterBlank?_eq_some_iff.mpr ⟨c, hc, rfl⟩⟩

/-! ### The severity -/

/-- A text begins with a known severity, in any case variant, and a colon. -/
structure Severe (t word rest : Text) : Prop where
  known : word.map Unicode.foldCase ∈ Severity.knownTokens.map Prod.fst
  chars : ∀ c ∈ word, c ≠ ':' ∧ isBlank c = false
  eq : ∃ gap, (∀ c ∈ gap, isBlank c = true) ∧ t = word ++ gap ++ ':' :: rest

/-- The severity of a text is what stands before the first blank or colon. -/
theorem takeWhile_of_severe (h : Severe t word u) :
    t.takeWhile (fun c => c != ':' && !isBlank c) = word ∧
      (t.dropWhile (fun c => c != ':' && !isBlank c)).dropWhile isBlank = ':' :: u := by
  obtain ⟨gap, hgap, rfl⟩ := h.eq
  have hword : ∀ c ∈ word, (c != ':' && !isBlank c) = true := by
    intro c hc
    simp [h.chars c hc]
  have hstop : ∀ c ∈ (gap ++ ':' :: u).head?, (c != ':' && !isBlank c) = false := by
    refine Text.head?_append_of (fun c hc => ?_) (Text.head?_cons_of rfl)
    simp [hgap c (List.mem_of_mem_head? hc)]
  have hcolon : ∀ c ∈ (':' :: u).head?, isBlank c = false := Text.head?_cons_of rfl
  rw [List.append_assoc, Text.takeWhile_run hword hstop, Text.dropWhile_run hword hstop,
    Text.dropWhile_run hgap hcolon]
  exact ⟨rfl, rfl⟩

theorem severity?_of_severe (h : Severe t word u) : severity? t = some (word, u) := by
  obtain ⟨hword, hrest⟩ := takeWhile_of_severe h
  rw [severity?, hword, hrest]
  exact if_pos (List.contains_iff_mem.mpr h.known)

theorem severe_of_severity? (h : severity? t = some (word, u)) : Severe t word u := by
  rw [severity?] at h
  split at h
  · rename_i rest hrest
    split at h
    · rename_i hknown
      obtain ⟨rfl, rfl⟩ := Prod.mk.inj (Option.some.inj h)
      refine ⟨List.contains_iff_mem.mp hknown, ?_,
        (t.dropWhile fun c => c != ':' && !isBlank c).takeWhile isBlank,
        fun _ => List.mem_takeWhile_imp, ?_⟩
      · intro c hc
        simpa using List.mem_takeWhile_imp hc
      · rw [← hrest, List.append_assoc, List.takeWhile_append_dropWhile,
          List.takeWhile_append_dropWhile]
    · cases h
  · cases h

theorem severity?_eq_none (h : ∀ word u, ¬ Severe t word u) : severity? t = none := by
  rw [Option.eq_none_iff_forall_not_mem]
  rintro ⟨word, u⟩ hu
  exact h word u (severe_of_severity? hu)

/-- A case variant of a known severity is made of letters. -/
theorem isAlpha_of_token
    (hword : word.map Char.toLower ∈ Severity.knownTokens.map Prod.fst) (hc : c ∈ word) :
    c.isAlpha = true := by
  have htokens : (Severity.knownTokens.map Prod.fst).all (·.all Char.isAlpha) = true := by decide
  have hletters := List.all_eq_true.mp (List.all_eq_true.mp htokens _ hword)
  exact Text.isAlpha_of_toLower (hletters _ (List.mem_map_of_mem hc))

theorem map_foldCase (hword : ∀ c ∈ word, c.isAlphanum = true) :
    word.map Unicode.foldCase = word.map Char.toLower := by
  refine List.map_congr_left fun c hc => Unicode.foldCase_of_ascii ?_
  have hrange := Text.toNat_of_isAlphanum (hword c hc)
  omega

/-- A run of letters and digits is no severity as soon as it has a digit. -/
theorem not_severe_of_digit (hrun : ∀ c ∈ t, c.isAlphanum = true)
    (hdigit : ∃ c ∈ t, c.isDigit = true) (hu : ∀ c ∈ u.head?, c = ':' ∨ isBlank c = true)
    (rest : Text) : ¬ Severe (t ++ u) word rest := by
  intro h
  have hword : word = t := by
    rw [← (takeWhile_of_severe h).1]
    refine Text.takeWhile_run (fun c hc => ?_) fun c hc => ?_
    · have hcolon : c ≠ ':' := by
        rintro rfl
        exact absurd (hrun ':' hc) (by decide)
      simp [hcolon, Text.isBlank_of_isAlphanum (hrun c hc)]
    · obtain rfl | hblank := hu c hc
      · rfl
      · simp [hblank]
  obtain ⟨d, hd, hdigit⟩ := hdigit
  have hknown := h.known
  rw [hword, map_foldCase hrun] at hknown
  have halpha := isAlpha_of_token hknown hd
  rw [Text.isAlpha_of_isDigit hdigit] at halpha
  cases halpha

/-! ### The location -/

/-- A path that a line can begin with. -/
structure IsPath (t : Text) : Prop where
  chars : ∀ c ∈ t, isBlank c = false ∧ c ≠ ':'
  name : ∃ c ∈ t, c.isDigit = false

theorem IsPath.ne_colon (h : IsPath t) : ∀ c ∈ t, (c != ':') = true :=
  fun c hc => bne_iff_ne.mpr (h.chars c hc).2

theorem isFile_of_isPath (h : IsPath t) : isFile t = true := by
  obtain ⟨c, hc, hdigit⟩ := h.name
  rw [isFile, Bool.and_eq_true, List.all_eq_true, List.any_eq_true]
  refine ⟨fun d hd => ?_, c, hc, ?_⟩
  · rw [(h.chars d hd).1, Bool.not_false]
  · rw [hdigit, Bool.not_false]

theorem isPath_of_isFile (h : isFile t = true) (hcolon : ':' ∉ t) : IsPath t := by
  rw [isFile, Bool.and_eq_true, List.all_eq_true, List.any_eq_true] at h
  obtain ⟨hchars, c, hc, hdigit⟩ := h
  refine ⟨fun d hd => ⟨(Bool.not_eq_true' _).mp (hchars d hd), ?_⟩, c, hc,
    (Bool.not_eq_true' _).mp hdigit⟩
  rintro rfl
  exact hcolon hd

instance (t : Text) : Decidable (IsPath t) :=
  decidable_of_iff (isFile t = true ∧ t.contains ':' = false)
    ⟨fun h => isPath_of_isFile h.1 fun hmem => by simp [hmem] at h,
      fun h => ⟨isFile_of_isPath h, by simpa using fun hmem => (h.chars ':' hmem).2 rfl⟩⟩

theorem trimmed?_of_isPath (h : IsPath t) : Text.trimmed? t = some t := by
  obtain ⟨c, hc, -⟩ := h.name
  exact Text.trimmed?_of_forall (fun d hd => (h.chars d hd).1) (List.ne_nil_of_mem hc)

theorem column?_eq_some_iff {column : Text} : column? t = some (column, u) ↔
    Text.DigitRun column ∧ t = ':' :: (column ++ ':' :: u) := by
  constructor
  · intro h
    unfold column? at h
    split at h
    · rename_i t
      split at h
      · rename_i ds u' hrun
        obtain ⟨rfl, rfl⟩ := Prod.mk.inj (Option.some.inj h)
        obtain ⟨hds, rfl, -⟩ := Text.digitRun?_eq_some_iff.mp hrun
        exact ⟨hds, rfl⟩
      · cases h
    · cases h
  · rintro ⟨hcolumn, rfl⟩
    rw [column?, hcolumn.digitRun?_colon]
    rfl

/-- The pieces of a line with a location and what stands behind it. -/
def located (file line : Text) (column : Option Text) (b : Body) : Located :=
  { file, line, column, severity := b.severity, code := b.code, rule := b.rule
    message := b.message }

/-- A column is looked for behind the line number before anything else is. -/
theorem pieces?_location (hfile : IsPath file) (hline : Text.DigitRun line) (t : Text) :
    pieces? (file ++ ':' :: (line ++ ':' :: t)) =
      ((column? (':' :: t)).bind fun (column, u) =>
        (rest? u).map (located file line (some column))).or
        ((rest? t).map (located file line none)) := by
  have hcolon : ∀ c ∈ (':' :: (line ++ ':' :: t)).head?, (c != ':') = false :=
    Text.head?_cons_of rfl
  rw [pieces?, Text.takeWhile_run hfile.ne_colon hcolon, Text.dropWhile_run hfile.ne_colon hcolon,
    isFile_of_isPath hfile]
  simp only [Bool.not_true, Bool.false_eq_true, if_false, hline.digitRun?_colon, Option.bind_some]
  rfl

/-- A line with pieces begins with a location. -/
theorem exists_of_pieces? {p : Located} (h : pieces? t = some p) :
    ∃ file line column u b, IsPath file ∧ Text.DigitRun line ∧
      (∀ ds ∈ column, Text.DigitRun ds) ∧
      t = file ++ ':' :: (line ++ column.elim [] (':' :: ·) ++ ':' :: u) ∧
      rest? u = some b ∧ p = located file line column b := by
  rw [pieces?] at h
  split at h
  · cases h
  · rename_i hfile
    have hpath : IsPath (t.takeWhile (· != ':')) := by
      refine isPath_of_isFile (by simpa using hfile) fun hcolon => ?_
      exact absurd (List.mem_takeWhile_imp hcolon) (by decide)
    split at h
    · rename_i v hv
      have ht : t = t.takeWhile (· != ':') ++ ':' :: v := by
        rw [← hv, List.takeWhile_append_dropWhile]
      obtain ⟨⟨line, w⟩, hrun, hlocated⟩ := Option.bind_eq_some_iff.mp h
      obtain ⟨hline, rfl, -⟩ := Text.digitRun?_eq_some_iff.mp hrun
      obtain hcolumn | ⟨-, hplain⟩ := Option.or_eq_some_iff.mp hlocated
      · obtain ⟨⟨column, u⟩, hc, hb⟩ := Option.bind_eq_some_iff.mp hcolumn
        obtain ⟨b, hbody, rfl⟩ := Option.map_eq_some_iff.mp hb
        obtain ⟨hdigits, rfl⟩ := column?_eq_some_iff.mp hc
        refine ⟨_, line, some column, u, b, hpath, hline, ?_, ?_, hbody, rfl⟩
        · rintro ds ⟨⟩
          exact hdigits
        · simpa using ht
      · split at hplain
        · rename_i u
          obtain ⟨b, hbody, rfl⟩ := Option.map_eq_some_iff.mp hplain
          refine ⟨_, line, none, u, b, hpath, hline, nofun, ?_, hbody, rfl⟩
          simpa using ht
        · cases hplain
    · cases h

/-- With a column and without one, a colon stands behind the line number. -/
theorem exists_colon_of_pieces? {p : Located} (h : pieces? t = some p) :
    ∃ file line u, IsPath file ∧ Text.DigitRun line ∧ t = file ++ ':' :: (line ++ ':' :: u) := by
  obtain ⟨file, line, column, u, b, hfile, hline, -, rfl, -, -⟩ := exists_of_pieces? h
  cases column with
  | none => exact ⟨file, line, u, hfile, hline, by simp⟩
  | some ds => exact ⟨file, line, ds ++ ':' :: u, hfile, hline, by simp⟩

end Gnu

end LintFindings
