/-
What a pattern reads from a line.

The engine that compiles a pattern says where each group of a match begins and ends; nothing else
is assumed of it.  `Captures` says which part of the line a group took.  From a group for a text a
pattern reads that part without its margins, unless it is blank (`ReadsText`), and from a group
for a number the value of that part (`ReadsNumber`).  A line that is matched is refused if the file
or the message is missing, or if a group for a number took part with something that is no number
of thirty-two bits (`Refused`).  Of two groups for one thing the preferred one is read if it can
be, but both have to be in order.
-/
import LintFindings.Pattern
import LintFindings.Proofs.Config.Reader
import LintFindings.Proofs.Format.Located

namespace LintFindings

/-! ### Numbers -/

namespace Text

variable {t ds : Text} {n : UInt32}

/-- A number as it may be written: digits, perhaps with a plus sign in front. -/
def Unsigned (t : Text) (n : UInt32) : Prop := ∃ ds, (t = ds ∨ t = '+' :: ds) ∧ Numeral ds n

theorem uint32?_plus (h : '+' ∉ ds) : uint32? ('+' :: ds) = uint32? ds := by
  have hds : ∀ rest, ds = '+' :: rest → False := fun rest heq => h (by simp [heq])
  rw [uint32?, uint32?, unsigned?.eq_1, unsigned?.eq_2 _ _ hds]

/-- What is read as a number is a row of digits, perhaps behind a plus sign. -/
theorem exists_digits_of_uint32? (h : uint32? t = some n) :
    ∃ ds, (t = ds ∨ t = '+' :: ds) ∧ '+' ∉ ds := by
  obtain ⟨k, hk, -⟩ := Option.map_eq_some_iff.mp h
  have hdigits {ds : Text} (hall : ds.all Char.isDigit = true) : '+' ∉ ds := fun hmem =>
    absurd (List.all_eq_true.mp hall '+' hmem) (by decide)
  by_cases hplus : ∃ ds, t = '+' :: ds
  · obtain ⟨ds, rfl⟩ := hplus
    rw [unsigned?.eq_1] at hk
    split at hk
    · exact ⟨ds, .inr rfl, hdigits (by simp_all)⟩
    · cases hk
  · rw [unsigned?.eq_2 _ _ fun ds heq => hplus ⟨ds, heq⟩] at hk
    split at hk
    · exact ⟨t, .inl rfl, hdigits (by simp_all)⟩
    · cases hk

theorem uint32?_eq_some_iff : uint32? t = some n ↔ Unsigned t n := by
  constructor
  · intro h
    obtain ⟨ds, rfl | rfl, hplus⟩ := exists_digits_of_uint32? h
    · exact ⟨_, .inl rfl, numeral_of_uint32? h hplus⟩
    · rw [uint32?_plus hplus] at h
      exact ⟨_, .inr rfl, numeral_of_uint32? h hplus⟩
  · rintro ⟨ds, rfl | rfl, hds⟩
    · exact uint32?_of_numeral hds
    · rw [uint32?_plus hds.digitRun.plus_notMem]
      exact uint32?_of_numeral hds

theorem uint32?_eq_none_iff : uint32? t = none ↔ ∀ n, ¬ Unsigned t n := by
  rw [Option.eq_none_iff_forall_ne_some]
  exact forall_congr' fun n => not_congr uint32?_eq_some_iff

end Text

/-! ### Groups -/

namespace CompiledRegex

variable {r : CompiledRegex} {t group text : Text} {groups : Text → Option Text}

/-- A group took part in the match that was found in a line, and this is the part of the line that
it took. -/
def Captures (r : CompiledRegex) (t group text : Text) : Prop :=
  ∃ spans first last, r.find? t = some spans ∧ spans group = some (first, last) ∧
    text = slice t first last

theorem slice_isInfix (t : Text) (first last : Nat) : slice t first last <:+: t := by
  have hfront := List.take_prefix (last - first) (t.drop first)
  exact hfront.isInfix.trans (List.drop_suffix first t).isInfix

theorem Captures.isInfix (h : r.Captures t group text) : text <:+: t := by
  obtain ⟨_, first, last, -, -, rfl⟩ := h
  exact slice_isInfix t first last

theorem captures?_eq_none_iff : r.captures? t = none ↔ r.find? t = none :=
  Option.map_eq_none_iff

/-- What is read of a group is what it took. -/
theorem captured_iff (h : r.captures? t = some groups) :
    groups group = some text ↔ r.Captures t group text := by
  obtain ⟨spans, hspans, rfl⟩ := Option.map_eq_some_iff.mp h
  rw [Option.map_eq_some_iff]
  constructor
  · rintro ⟨⟨first, last⟩, hspan, rfl⟩
    exact ⟨spans, first, last, hspans, hspan, rfl⟩
  · rintro ⟨spans', first, last, hspans', hspan, rfl⟩
    cases hspans.symm.trans hspans'
    exact ⟨(first, last), hspan, rfl⟩

end CompiledRegex

/-! ### Reading a line -/

namespace Pattern

variable {engine : RegexEngine} {r : CompiledRegex} {t name regex : Text} {group : String}
variable {groups : Text → Option Text} {found : LineMatch} {m : Matcher}

/-- What a pattern reads from a group for a text: what the group took, without its margins, and
nothing if it took no part or blanks only. -/
def ReadsText (r : CompiledRegex) (t : Text) (group : String) : Option Text → Prop
  | some u => ∃ text, r.Captures t group.toList text ∧ text.trim = u ∧ u ≠ []
  | none => ∀ text, r.Captures t group.toList text → ∀ c ∈ text, isBlank c = true

/-- What a pattern reads from a group for a number: its value, and nothing if it took no part. -/
def ReadsNumber (r : CompiledRegex) (t : Text) (group : String) : Option UInt32 → Prop
  | some n => ∃ text, r.Captures t group.toList text ∧ text.Unsigned n
  | none => ∀ text, ¬ r.Captures t group.toList text

/-- The groups for texts without which nothing is found. -/
def neededGroups : List String := ["file", "message"]

/-- The groups for numbers. -/
def numberGroups : List String := ["line", "col", "column", "end_line", "end_col", "end_column"]

/-- Why a pattern finds nothing in a line. -/
inductive Refused (r : CompiledRegex) (t : Text) : Prop
  | unmatched (h : r.find? t = none)
  | lacking {group : String} (hgroup : group ∈ neededGroups) (h : ReadsText r t group none)
  | misnumbered {group : String} (hgroup : group ∈ numberGroups) {text : Text}
      (htext : r.Captures t group.toList text) (hbad : ∀ n, ¬ text.Unsigned n)

/-- What a pattern finds in a line. -/
structure Reads (r : CompiledRegex) (t : Text) (found : LineMatch) : Prop where
  file : ReadsText r t "file" (some found.file)
  message : ReadsText r t "message" (some found.message)
  line : ReadsNumber r t "line" found.line
  column : ∃ col column, ReadsNumber r t "col" col ∧ ReadsNumber r t "column" column ∧
    found.column = col.or column
  endLine : ReadsNumber r t "end_line" found.endLine
  endColumn : ∃ col column, ReadsNumber r t "end_col" col ∧
    ReadsNumber r t "end_column" column ∧ found.endColumn = col.or column
  severity : ReadsText r t "severity" found.severity
  rule : ∃ rule code, ReadsText r t "rule" rule ∧ ReadsText r t "code" code ∧
    found.rule = rule.or code
  helpUri : found.helpUri = none

theorem lineMatch?_eq_some_iff : lineMatch? groups = some found ↔
    group? groups "file" = some found.file ∧ group? groups "message" = some found.message ∧
      number? groups "line" = some found.line ∧
      (∃ col column, number? groups "col" = some col ∧ number? groups "column" = some column ∧
        found.column = col.or column) ∧
      number? groups "end_line" = some found.endLine ∧
      (∃ col column, number? groups "end_col" = some col ∧
        number? groups "end_column" = some column ∧ found.endColumn = col.or column) ∧
      group? groups "severity" = found.severity ∧
      (group? groups "rule").or (group? groups "code") = found.rule ∧ found.helpUri = none := by
  simp only [lineMatch?, bind, Option.bind_eq_some_iff, Option.some.injEq]
  constructor
  · rintro ⟨file, hfile, message, hmessage, n, hn, col, hcol, column, hcolumn, endLine, hendLine,
      endCol, hendCol, endColumn, hendColumn, rfl⟩
    exact ⟨hfile, hmessage, hn, ⟨col, column, hcol, hcolumn, rfl⟩, hendLine,
      ⟨endCol, endColumn, hendCol, hendColumn, rfl⟩, rfl, rfl, rfl⟩
  · rintro ⟨hfile, hmessage, hn, ⟨col, column, hcol, hcolumn, h⟩, hendLine,
      ⟨endCol, endColumn, hendCol, hendColumn, h'⟩, hseverity, hrule, huri⟩
    refine ⟨_, hfile, _, hmessage, _, hn, _, hcol, _, hcolumn, _, hendLine, _, hendCol, _,
      hendColumn, ?_⟩
    rw [hseverity, hrule, ← h, ← h', ← huri]

theorem lineMatch?_eq_none_iff : lineMatch? groups = none ↔
    (∃ group ∈ neededGroups, group? groups group = none) ∨
      ∃ group ∈ numberGroups, number? groups group = none := by
  constructor
  · intro h
    by_contra hall
    obtain ⟨htexts, hnumbers⟩ := not_or.mp hall
    have htext : ∀ group ∈ neededGroups, ∃ u, group? groups group = some u := fun group hgroup =>
      Option.ne_none_iff_exists'.mp fun hnone => htexts ⟨group, hgroup, hnone⟩
    have hnumber : ∀ group ∈ numberGroups, ∃ o, number? groups group = some o :=
      fun group hgroup =>
        Option.ne_none_iff_exists'.mp fun hnone => hnumbers ⟨group, hgroup, hnone⟩
    simp only [neededGroups, numberGroups, List.forall_mem_cons] at htext hnumber
    obtain ⟨⟨file, hfile⟩, ⟨message, hmessage⟩, -⟩ := htext
    obtain ⟨⟨line, hline⟩, ⟨col, hcol⟩, ⟨column, hcolumn⟩, ⟨endLine, hendLine⟩, ⟨endCol, hendCol⟩,
      ⟨endColumn, hendColumn⟩, -⟩ := hnumber
    let found : LineMatch :=
      { file, message, line, endLine
        column := col.or column
        endColumn := endCol.or endColumn
        severity := group? groups "severity"
        rule := (group? groups "rule").or (group? groups "code")
        helpUri := none }
    have hfound : lineMatch? groups = some found := lineMatch?_eq_some_iff.mpr
      ⟨hfile, hmessage, hline, ⟨col, column, hcol, hcolumn, rfl⟩, hendLine,
        ⟨endCol, endColumn, hendCol, hendColumn, rfl⟩, rfl, rfl, rfl⟩
    rw [h] at hfound
    cases hfound
  · intro hmissing
    rw [Option.eq_none_iff_forall_ne_some]
    intro found hfound
    obtain ⟨hfile, hmessage, hline, ⟨col, column, hcol, hcolumn, -⟩, hendLine,
      ⟨endCol, endColumn, hendCol, hendColumn, -⟩, -⟩ := lineMatch?_eq_some_iff.mp hfound
    simp_all [neededGroups, numberGroups]

section

variable (h : r.captures? t = some groups)

include h

theorem group?_eq_iff (o : Option Text) : group? groups group = o ↔ ReadsText r t group o := by
  cases o with
  | some u =>
      simp only [group?, ReadsText, Option.bind_eq_some_iff, Text.trimmed?_eq_some_iff,
        CompiledRegex.captured_iff h]
  | none =>
      simp only [group?, ReadsText, Option.bind_eq_none_iff, Text.trimmed?_eq_none_iff,
        Text.trim_eq_nil_iff, CompiledRegex.captured_iff h]

theorem number?_eq_some_iff (o : Option UInt32) :
    number? groups group = some o ↔ ReadsNumber r t group o := by
  have htook : ∀ text, groups group.toList = some text ↔ r.Captures t group.toList text :=
    fun text => CompiledRegex.captured_iff h
  cases o with
  | none =>
      unfold number?
      cases hlookup : groups group.toList with
      | none =>
          refine iff_of_true rfl fun text htext => ?_
          rw [(htook text).mpr htext] at hlookup
          cases hlookup
      | some text =>
          refine iff_of_false ?_ fun hnone => hnone text ((htook text).mp hlookup)
          simp [Text.optionalUint32?]
  | some n =>
      simp only [ReadsNumber, ← htook, ← Text.uint32?_eq_some_iff, number?]
      cases groups group.toList <;> simp [Text.optionalUint32?]

theorem number?_eq_none_iff : number? groups group = none ↔
    ∃ text, r.Captures t group.toList text ∧ ∀ n, ¬ text.Unsigned n := by
  simp only [← CompiledRegex.captured_iff h, ← Text.uint32?_eq_none_iff, number?]
  cases groups group.toList <;> simp [Text.optionalUint32?]

end

/-- A line is refused for exactly these reasons. -/
theorem refused_iff : r.captures? t >>= lineMatch? = none ↔ Refused r t := by
  cases h : r.captures? t with
  | none => exact iff_of_true rfl (.unmatched (CompiledRegex.captures?_eq_none_iff.mp h))
  | some groups =>
      refine lineMatch?_eq_none_iff.trans ?_
      simp only [group?_eq_iff h, number?_eq_none_iff h]
      constructor
      · rintro (⟨group, hgroup, hnone⟩ | ⟨group, hgroup, text, htext, hbad⟩)
        · exact .lacking hgroup hnone
        · exact .misnumbered hgroup htext hbad
      · intro hrefused
        cases hrefused with
        | unmatched hsearch =>
            rw [CompiledRegex.captures?_eq_none_iff.mpr hsearch] at h
            cases h
        | lacking hgroup hnone => exact .inl ⟨_, hgroup, hnone⟩
        | misnumbered hgroup htext hbad => exact .inr ⟨_, hgroup, _, htext, hbad⟩

theorem Reads.exists_groups (h : Reads r t found) :
    ∃ groups, r.captures? t = some groups := by
  obtain ⟨_, ⟨spans, _, _, hspans, -⟩, -⟩ := h.file
  exact ⟨_, Option.map_eq_some_iff.mpr ⟨spans, hspans, rfl⟩⟩

/-- What is found is what the groups say. -/
theorem reads_iff : r.captures? t >>= lineMatch? = some found ↔ Reads r t found := by
  constructor
  · intro hfound
    obtain ⟨groups, h, hfound⟩ := Option.bind_eq_some_iff.mp hfound
    simp only [lineMatch?_eq_some_iff, group?_eq_iff h, number?_eq_some_iff h]
      at hfound
    obtain ⟨hfile, hmessage, hline, hcolumn, hendLine, hendColumn, hseverity, hrule, huri⟩ := hfound
    have hread (group : String) : ReadsText r t group (group? groups group) :=
      (group?_eq_iff h _).mp rfl
    exact ⟨hfile, hmessage, hline, hcolumn, hendLine, hendColumn, hseverity,
      ⟨_, _, hread "rule", hread "code", hrule.symm⟩, huri⟩
  · intro hreads
    obtain ⟨groups, h⟩ := hreads.exists_groups
    obtain ⟨rule, code, hrule, hcode, heq⟩ := hreads.rule
    rw [← group?_eq_iff h] at hrule hcode
    refine Option.bind_eq_some_iff.mpr ⟨groups, h, lineMatch?_eq_some_iff.mpr ?_⟩
    simp only [group?_eq_iff h, number?_eq_some_iff h]
    exact ⟨hreads.file, hreads.message, hreads.line, hreads.column, hreads.endLine,
      hreads.endColumn, hreads.severity, by rw [hrule, hcode, heq], hreads.helpUri⟩

/-- A text without margins that stands in the line. -/
structure Piece (t u : Text) : Prop where
  ne : u ≠ []
  bare : u.Bare
  isInfix : u <:+: t

theorem ReadsText.piece {u : Text} (h : ReadsText r t group (some u)) : Piece t u := by
  obtain ⟨text, htext, rfl, hne⟩ := h
  exact ⟨hne, Text.bare_trim text, (Text.trim_isInfix text).trans htext.isInfix⟩

/-- The texts of a match. -/
def texts (found : LineMatch) : List Text :=
  [found.file, found.message] ++ found.severity.toList ++ found.rule.toList

theorem Reads.piece (h : Reads r t found) : ∀ u ∈ texts found, Piece t u := by
  intro u hu
  simp only [texts, List.mem_append, List.mem_cons, List.not_mem_nil, or_false,
    Option.mem_toList] at hu
  rcases hu with ((rfl | rfl) | hseverity) | hrule
  · exact h.file.piece
  · exact h.message.piece
  · have hread := h.severity
    rw [hseverity] at hread
    exact hread.piece
  · obtain ⟨rule, code, hread, hread', heq⟩ := h.rule
    rcases Option.or_eq_some_iff.mp (heq.symm.trans hrule) with rfl | ⟨-, rfl⟩
    · exact hread.piece
    · exact hread'.piece

/-- **A pattern reads exactly what its groups took.**  For every engine, every pattern that can be
used with it and every line: nothing is found only for the reasons of `Refused`, and what is found
is read from the groups (`Reads`), each text of it a piece of the line. -/
theorem reads_groups (h : matcher? name regex engine = .ok m) :
    m.name = name ∧ ∃ r, engine.compile? regex = .ok r ∧ ∀ t,
      (m.matchLine? t = none ↔ Refused r t) ∧
      (∀ found, m.matchLine? t = some found ↔ Reads r t found) ∧
      ∀ found, m.matchLine? t = some found → ∀ u ∈ texts found, Piece t u := by
  obtain ⟨r, hcompile, rfl⟩ := Except.map_eq_ok.mp h
  obtain ⟨hr, -, -⟩ := PatternSpec.compile_eq_ok_iff (p := ⟨name, regex⟩).mp hcompile
  refine ⟨rfl, r, hr, fun t => ⟨refused_iff, fun found => reads_iff, ?_⟩⟩
  intro found hfound
  exact (reads_iff.mp hfound).piece

/-- A number that is too large, a blank file, and a line in which both are in order. -/
theorem reads_groups_overflow :
    let engine := RegexEngine.builtin
    let regex := "^(?P<file>[^:]+):(?P<line>[+0-9]+): (?P<message>.+)$".toList
    let found : LineMatch :=
      { file := "a.c".toList, line := some 7, column := none, endLine := none, endColumn := none
        severity := none, rule := none, helpUri := none, message := "boom".toList }
    ∃ m, matcher? "n".toList regex engine = .ok m ∧
      m.matchLine? "a.c:99999999999: boom".toList = none ∧ m.matchLine? " :7: boom".toList = none ∧
      ∃ r, engine.compile? regex = .ok r ∧ Reads r "a.c:+7: boom ".toList found := by
  intro engine regex found
  have husable : PatternSpec.Usable engine ⟨"n".toList, regex⟩ := by decide +kernel
  -- what is read from a line, as far as the pattern can be compiled
  let read (t : Text) : Option LineMatch :=
    (engine.compile? regex).toOption.bind fun r => r.captures? t >>= lineMatch?
  have hlarge : read "a.c:99999999999: boom".toList = none := by decide +kernel
  have hblank : read " :7: boom".toList = none := by decide +kernel
  have hfound : read "a.c:+7: boom ".toList = some found := by decide +kernel
  clear_value engine regex found
  obtain ⟨r, hr, hfile, hmessage⟩ := husable
  have hcompile := PatternSpec.compile_of_usable hr hfile hmessage
  have hm : matcher? "n".toList regex engine = .ok (matcher "n".toList r) :=
    Except.map_eq_ok.mpr ⟨r, hcompile, rfl⟩
  obtain ⟨-, r', hr', hall⟩ := reads_groups hm
  cases hr.symm.trans hr'
  have hread (t : Text) : read t = (matcher "n".toList r).matchLine? t := by
    dsimp only [read]
    rw [hr]
    rfl
  rw [hread] at hlarge hblank hfound
  exact ⟨_, hm, hlarge, hblank, r, hr, ((hall _).2.1 found).mp hfound⟩

end Pattern

end LintFindings
