/-
What a line does with its location.

A column is looked for behind the line number before anything else is, and it is given
back only where nothing can be made of the rest.  Behind a location there is a message
as soon as there is anything but blanks (`isSome_rest?`), so on a trimmed line that goes
on behind its column the column is kept.  The one line that is left is the bare location:
there the column is given back, and with its colon it becomes the message
(`column_in_message`).  Without a column a bare location has no message.
-/
import LintFindings.Proofs.Format.Parts

namespace LintFindings.Gnu

variable {t u message rule word file line column : Text} {front : Front} {n c : UInt32}

/-! ### There is a message as soon as there is any text -/

theorem isSome_message? (hne : t ≠ []) (hline : '\n' ∉ t) : (message? front t).isSome := by
  by_cases hruled : ∃ message rule, Ruled t message rule
  · obtain ⟨message, rule, hruled⟩ := hruled
    obtain ⟨gap, opening, close, -, -, -, -, heq⟩ := hruled.eq
    rw [message?_of_ruled hruled fun hmem => hline (by simp [heq, hmem])]
    rfl
  · rw [message?_of_not_ruled (fun message rule h => hruled ⟨message, rule, h⟩) hne hline]
    rfl

theorem isSome_body? (hne : t ≠ []) (hline : '\n' ∉ t) : (body? t).isSome := by
  have hcoded : (coded? none t).isSome := by
    rw [coded?, Option.isSome_or, isSome_message? hne hline, Bool.or_true]
  rw [body?, Option.isSome_or, hcoded, Bool.or_true]

theorem isSome_rest? (hsolid : ∃ c ∈ t, isBlank c = false) (hline : '\n' ∉ t) :
    (rest? t).isSome := by
  have hsplit : t.takeWhile isBlank ++ t.dropWhile isBlank = t := List.takeWhile_append_dropWhile
  have hne : t.dropWhile isBlank ≠ [] := by
    intro hnil
    obtain ⟨c, hc, hblank⟩ := hsolid
    rw [← hsplit, hnil, List.append_nil] at hc
    rw [List.mem_takeWhile_imp hc] at hblank
    cases hblank
  have hline' : '\n' ∉ t.dropWhile isBlank :=
    fun hmem => hline ((List.dropWhile_suffix isBlank).subset hmem)
  rw [rest?, ← hsplit, afterBlanks?_append _ _ hne (Text.trimStart_head t)
    fun _ => List.mem_takeWhile_imp]
  exact isSome_body? hne hline'

/-! ### What a column would be as a message -/

section

variable (h : Text.Numeral column c)

include h

theorem exists_of_numeral : ∃ d ds, column = d :: ds ∧ d.isDigit = true := by
  obtain ⟨d, ds, hcons⟩ := List.ne_nil_iff_exists_cons.mp h.ne
  exact ⟨d, ds, hcons, h.digits d (by simp [hcons])⟩

theorem isBlank_of_mem_numeral {d : Char} (hd : d ∈ column ++ [':']) : isBlank d = false := by
  obtain hd | hd := List.mem_append.mp hd
  · exact Text.isBlank_of_isAlphanum (Text.isAlphanum_of_isDigit (h.digits d hd))
  · rw [List.mem_singleton.mp hd]
    rfl

theorem severity?_numeral : severity? (column ++ [':']) = none := by
  obtain ⟨d, ds, hcons, hd⟩ := exists_of_numeral h
  exact severity?_eq_none fun word u =>
    not_severe_of_digit (fun e he => Text.isAlphanum_of_isDigit (h.digits e he))
      ⟨d, by simp [hcons], hd⟩ (Text.head?_cons_of (Or.inl rfl)) u

/-- A code begins with a letter. -/
theorem code?_numeral : code? (column ++ [':']) = none := by
  rw [Option.eq_none_iff_forall_not_mem]
  rintro ⟨code, u⟩ hu
  obtain ⟨hcode, colon, b, -, -, heq⟩ := code?_eq_some_iff.mp hu
  obtain ⟨e, t, rfl, hupper⟩ := exists_of_isCode hcode
  obtain ⟨d, ds, rfl, hd⟩ := exists_of_numeral h
  obtain rfl : d = e := (List.cons.inj heq).1
  have halpha : d.isAlpha = true := (Bool.or_eq_true _ _).mpr (Or.inl hupper)
  rw [Text.isAlpha_of_isDigit hd] at halpha
  cases halpha

omit h in
/-- A rule ends in a bracket. -/
theorem not_ruled_colon : ¬ Ruled (t ++ [':']) message rule := by
  intro hruled
  obtain ⟨gap, opening, close, -, -, -, hclose, heq⟩ := hruled.eq
  have hlast := congrArg List.getLast? heq
  rw [show message ++ gap ++ opening :: (rule ++ [close]) =
    (message ++ gap ++ opening :: rule) ++ [close] by simp, List.getLast?_concat,
    List.getLast?_concat] at hlast
  rw [← Option.some.inj hlast] at hclose
  exact absurd hclose (by decide)

theorem rest?_numeral : rest? (column ++ [':']) = some ⟨none, none, none, column ++ [':']⟩ := by
  have hne : column ++ [':'] ≠ [] := by simp
  have hline : '\n' ∉ column ++ [':'] := by
    intro hmem
    have hblank := isBlank_of_mem_numeral h hmem
    exact absurd hblank (by decide)
  have hhead : ∀ d ∈ (column ++ [':']).head?, isBlank d = false :=
    fun d hd => isBlank_of_mem_numeral h (List.mem_of_mem_head? hd)
  rw [rest?, afterBlanks?_self _ _ hne hhead, body?, severity?_numeral h, Option.bind_none,
    Option.none_or, coded?, code?_numeral h, Option.bind_none, Option.none_or,
    message?_of_not_ruled (fun _ _ => not_ruled_colon) hne hline]

end

/-! ### Lines that begin with a location -/

/-- The match of a location and of what is behind it. -/
theorem lineMatch?_located {column : Option Text} {k : Option UInt32} {b : Body}
    (hfile : IsPath file) (hline : Text.Numeral line n)
    (hcolumn : Text.optionalUint32? column = some k) (hbare : b.message.Bare)
    (hne : b.message ≠ []) : (located file line column b).lineMatch? = some
      { file := file, line := some n, column := k, endLine := none, endColumn := none
        severity := b.severity.bind Text.trimmed?
        rule := (b.rule.bind Text.trimmed?).or (b.code.bind Text.trimmed?)
        helpUri := none, message := b.message } :=
  Located.lineMatch?_eq_some_iff.mpr
    { file := trimmed?_of_isPath hfile
      message := Text.trimmed?_of_bare hbare hne
      line := ⟨n, Text.uint32?_of_numeral hline, rfl⟩
      column := hcolumn
      severity := rfl
      rule := rfl
      endLine := rfl
      endColumn := rfl
      helpUri := rfl }

/-- A location with a column and its last colon. -/
def location (file line column : Text) : Text :=
  file ++ ':' :: (line ++ ':' :: (column ++ [':']))

theorem location_append (file line column u : Text) :
    location file line column ++ u = file ++ ':' :: (line ++ ':' :: (column ++ ':' :: u)) := by
  simp [location]

section

variable (hfile : IsPath file) (hline : Text.Numeral line n) (hcolumn : Text.Numeral column c)

include hfile hline hcolumn

theorem pieces?_location_append (u : Text) : pieces? (location file line column ++ u) =
    ((rest? u).map (located file line (some column))).or
      ((rest? (column ++ ':' :: u)).map (located file line none)) := by
  have hfound : column? (':' :: (column ++ ':' :: u)) = some (column, u) :=
    column?_eq_some_iff.mpr ⟨hcolumn.digitRun, rfl⟩
  rw [location_append, pieces?_location hfile hline.digitRun, hfound]
  rfl

/-- Where a line goes on behind its column, the column is kept. -/
theorem exists_matchLine?_location (hu : u ≠ []) (hlast : ∀ d ∈ u.getLast?, isBlank d = false)
    (hnewline : '\n' ∉ u) :
    ∃ m, matcher.matchLine? (location file line column ++ u) = some m ∧
      m.file = file ∧ m.line = some n ∧ m.column = some c := by
  have hlast' : u.getLast? = some (u.getLast hu) := List.getLast?_eq_some_getLast hu
  obtain ⟨b, hb⟩ := Option.isSome_iff_exists.mp
    (isSome_rest? ⟨_, List.getLast_mem hu, hlast _ hlast'⟩ hnewline)
  have hpieces : pieces? (location file line column ++ u) =
      some (located file line (some column) b) := by
    rw [pieces?_location_append hfile hline hcolumn, hb, Option.map_some, Option.some_or]
  have hp := pieced_of_pieces? hpieces
  have hbare : b.message.Bare := by
    refine hp.message_bare ?_
    rw [List.getLast?_append, hlast', Option.some_or]
    exact hlast' ▸ hlast
  have hnumber : Text.optionalUint32? (some column) = some (some c) :=
    Option.map_eq_some_iff.mpr ⟨c, Text.uint32?_of_numeral hcolumn, rfl⟩
  exact ⟨_, Option.bind_eq_some_iff.mpr
    ⟨_, hpieces, lineMatch?_located hfile hline hnumber hbare hp.message_ne⟩, rfl, rfl, rfl⟩

/-- The column of a bare location is taken for its message. -/
theorem matchLine?_location : matcher.matchLine? (location file line column) = some
    { file := file, line := some n, column := none, endLine := none, endColumn := none
      severity := none, rule := none, helpUri := none, message := column ++ [':'] } := by
  have hpieces : pieces? (location file line column) =
      some (located file line none ⟨none, none, none, column ++ [':']⟩) := by
    rw [← List.append_nil (location file line column),
      pieces?_location_append hfile hline hcolumn, rest?_numeral hcolumn]
    rfl
  have hbare : (column ++ [':']).Bare :=
    Text.bare_of_forall fun _ hd => isBlank_of_mem_numeral hcolumn hd
  exact Option.bind_eq_some_iff.mpr
    ⟨_, hpieces, lineMatch?_located hfile hline rfl hbare (List.concat_ne_nil _ _)⟩

end

theorem matchLine?_line (hfile : IsPath file) (hline : Text.Numeral line n) :
    matcher.matchLine? (file ++ ':' :: (line ++ [':'])) = none := by
  have hpieces : pieces? (file ++ ':' :: (line ++ [':'])) = none := by
    rw [pieces?_location hfile hline.digitRun]
    rfl
  show (pieces? _).bind Located.lineMatch? = none
  rw [hpieces, Option.bind_none]

/-- **A column is never read as text, unless the line ends behind it.**  Every trimmed line that
begins with a location and goes on is recognized with this location.  A bare location without a
column is not recognized, and one with a column is, but the column is its message. -/
theorem column_kept (hfile : IsPath file) (hline : Text.Numeral line n)
    (hcolumn : Text.Numeral column c) :
    (∀ t, location file line column <+: t → t ≠ location file line column → Text.trim t = t →
      '\n' ∉ t → ∃ m, matcher.matchLine? t = some m ∧
        m.file = file ∧ m.line = some n ∧ m.column = some c) ∧
    matcher.matchLine? (location file line column) = some
      { file := file, line := some n, column := none, endLine := none, endColumn := none
        severity := none, rule := none, helpUri := none, message := column ++ [':'] } ∧
    matcher.matchLine? (file ++ ':' :: (line ++ [':'])) = none := by
  refine ⟨?_, matchLine?_location hfile hline hcolumn, matchLine?_line hfile hline⟩
  rintro t ⟨u, rfl⟩ hne htrim hnewline
  have hlast : ∀ d ∈ (location file line column ++ u).getLast?, isBlank d = false :=
    htrim ▸ (Text.bare_trim _).last
  refine exists_matchLine?_location hfile hline hcolumn ?_ (Text.getLast?_of_append hlast)
    fun hmem => hnewline (List.mem_append_right _ hmem)
  rintro rfl
  exact hne (List.append_nil _)

theorem column_kept_path : IsPath "src/a.go".toList ∧ Text.Numeral "12".toList 12 ∧
    Text.Numeral "05".toList 5 ∧ location "src/a.go".toList "12".toList "05".toList <+:
      "src/a.go:12:05: 7: x".toList ∧
    (∃ m, matcher.matchLine? "src/a.go:12:05: 7: x".toList = some m ∧
      m.file = "src/a.go".toList ∧ m.line = some 12 ∧ m.column = some 5) := by
  have hfile : IsPath "src/a.go".toList := by decide +kernel
  have hline : Text.Numeral "12".toList 12 := by decide +kernel
  have hcolumn : Text.Numeral "05".toList 5 := by decide +kernel
  have hstart : location "src/a.go".toList "12".toList "05".toList <+:
      "src/a.go:12:05: 7: x".toList := by decide +kernel
  obtain ⟨hkept, -, -⟩ := column_kept hfile hline hcolumn
  exact ⟨hfile, hline, hcolumn, hstart,
    hkept _ hstart (by decide +kernel) (by decide +kernel) (by decide +kernel)⟩

/-- A line that is a bare location has no column, and its column for a message. -/
theorem column_in_message : Text.trim "src/a.go:12:5:".toList = "src/a.go:12:5:".toList ∧
    location "src/a.go".toList "12".toList "5".toList = "src/a.go:12:5:".toList ∧
    IsPath "src/a.go".toList ∧ Text.Numeral "12".toList 12 ∧ Text.Numeral "5".toList 5 ∧
    matcher.matchLine? "src/a.go:12:5:".toList = some
      { file := "src/a.go".toList, line := some 12, column := none, endLine := none
        endColumn := none, severity := none, rule := none, helpUri := none
        message := "5:".toList } := by
  decide +kernel

end LintFindings.Gnu
