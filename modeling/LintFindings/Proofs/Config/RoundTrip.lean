/-
Reading a written configuration gives it back.

The text is taken apart as it was put together.  Each line is read as its statement,
whatever stands in its strings and keys (`reads_write`); the statements build the three
sections one after the other (`carryOut_statements`), where the patterns are an array of
tables, or an entry if there are none; and each field of the document is taken over
(`ofEntries?_document`).  The words for severities are a table by their order, so none of
them comes twice, and none is put in the place of another.

With this a configuration that was saved is also loaded again (`load_save`), since a text
is read back from its bytes.
-/
import LintFindings.Config.Files
import LintFindings.Proofs.Except
import LintFindings.Proofs.FileTree
import LintFindings.Proofs.Text.Utf8
import LintFindings.Proofs.TextMap
import LintFindings.Proofs.Toml.Statements
import LintFindings.Proofs.Toml.Table

namespace LintFindings.Config

open Toml

/-! ### Values -/

theorem readsValue_writeString (t : Text) : ReadsValue (writeString t) (.string t) where
  head := by
    obtain ⟨c, u, ht, rfl | rfl⟩ := writeString_cons t
    · exact ⟨_, _, ht, rfl⟩
    · exact ⟨_, _, ht, rfl⟩
  read n rest _ := readValue_writeString (n + 1) 0 t (by rintro c ⟨⟩; decide)

theorem readsValue_writeBoolean (b : Bool) : ReadsValue (writeBoolean b) (.boolean b) where
  head := by cases b <;> exact ⟨_, _, rfl, rfl⟩
  read n rest _ := by cases b <;> rfl

/-- An item of a list that has a line for each. -/
def itemLine (t : Text) : Text := "    ".toList ++ writeString t ++ ",\n".toList

theorem isGap_of_mem_indent : ∀ c ∈ "    ".toList, isGap c = true := by
  intro c hc
  have hspaces : c ∈ List.replicate 4 ' ' := hc
  rw [List.eq_of_mem_replicate hspaces]
  rfl

/-- An item is found behind the blanks in front of it, whatever follows. -/
theorem skipLines_writeString {gap : Text} (hgap : ∀ c ∈ gap, isGap c = true) (n : Nat)
    (t rest : Text) :
    skipLines (n + 1) (gap ++ (writeString t ++ rest)) = some (writeString t ++ rest) := by
  obtain ⟨c, u, ht, hc⟩ := writeString_cons t
  rw [ht]
  refine skipLines_gap hgap ?_ n _
  rcases hc with rfl | rfl <;> decide

theorem head?_writeString_ne {c : Char} (hdouble : c ≠ '"') (hsingle : c ≠ '\'') (t rest : Text) :
    (writeString t ++ rest).head? ≠ some c := by
  obtain ⟨d, u, ht, hd⟩ := writeString_cons t
  rw [ht]
  rintro ⟨⟩
  exact hd.elim hdouble hsingle

/-- A list that has a line for each item is read back. -/
theorem readItems_lines (ts : List Text) {n : Nat} (hn : ts.length < n) (level : Nat)
    (rest : Text) :
    readItems (n + 1) level ('\n' :: (ts.flatMap itemLine ++ ']' :: rest))
      = some (ts.map .string, rest) := by
  induction ts generalizing n with
  | nil =>
      have hend : skipLines (('\n' :: ']' :: rest).length + 1) ('\n' :: ']' :: rest)
          = some (']' :: rest) :=
        (skipLines_newline _ _).trans (skipLines_shown (by decide) (rest.length + 1) rest)
      exact readItems_end n level hend
  | cons t ts ih =>
      rw [List.length_cons] at hn
      obtain ⟨n, rfl⟩ : ∃ m, n = m + 1 := ⟨n - 1, by omega⟩
      let after := '\n' :: (ts.flatMap itemLine ++ ']' :: rest)
      let line := "    ".toList ++ (writeString t ++ ',' :: after)
      have hshape : (t :: ts).flatMap itemLine ++ ']' :: rest = line := by
        rw [List.flatMap_cons, itemLine, List.append_assoc, List.append_assoc, List.append_assoc]
        rfl
      have hitem : skipLines (('\n' :: line).length + 1) ('\n' :: line)
          = some (writeString t ++ ',' :: after) :=
        (skipLines_newline _ _).trans (skipLines_writeString isGap_of_mem_indent line.length t _)
      have hvalue : readValue (n + 1) level (writeString t ++ ',' :: after)
          = some (.string t, ',' :: after) :=
        readValue_writeString n level t (by rintro c ⟨⟩; decide)
      have hcomma : skipLines ((',' :: after).length + 1) (',' :: after) = some (',' :: after) :=
        skipLines_shown (by decide) _ after
      have hnext : readItems (n + 1) level after = some (ts.map .string, rest) := ih (by omega)
      rw [hshape, readItems_more hitem (head?_writeString_ne (by decide) (by decide) t _) hvalue
        hcomma, hnext]
      rfl

/-- A list of one item stands on one line. -/
theorem readItems_single (n level : Nat) (t rest : Text) :
    readItems (n + 2) level (writeString t ++ ']' :: rest) = some ([.string t], rest) := by
  have hvalue : readValue (n + 1) level (writeString t ++ ']' :: rest)
      = some (.string t, ']' :: rest) :=
    readValue_writeString n level t (by rintro c ⟨⟩; decide)
  exact readItems_last (skipLines_writeString (List.forall_mem_nil _) _ t _)
    (head?_writeString_ne (by decide) (by decide) t _) hvalue (skipLines_shown (by decide) _ rest)

theorem writeStrings_lines (t t' : Text) (ts : List Text) :
    writeStrings (t :: t' :: ts)
      = "[\n".toList ++ (t :: t' :: ts).flatMap itemLine ++ [']'] := rfl

theorem length_le_flatMap_itemLine (ts : List Text) : ts.length ≤ (ts.flatMap itemLine).length := by
  induction ts with
  | nil => exact Nat.zero_le _
  | cons t ts ih =>
      obtain ⟨c, u, hline⟩ : ∃ c u, itemLine t = c :: u := ⟨_, _, rfl⟩
      rw [List.flatMap_cons, List.length_append, List.length_cons, hline, List.length_cons]
      omega

theorem readValue_bracket {n level : Nat} (hlevel : level < maxNesting) (t : Text) :
    readValue (n + 1) level ('[' :: t)
      = (readItems n (level + 1) t).map fun (vs, t) => (.array vs, t) := by
  rw [readValue, if_pos hlevel]

theorem readsValue_writeStrings (ts : List Text) :
    ReadsValue (writeStrings ts) (.array (ts.map .string)) where
  head := by
    rcases ts with - | ⟨t, - | ⟨t', ts⟩⟩ <;> exact ⟨_, _, rfl, rfl⟩
  read n rest hn := by
    rcases ts with - | ⟨t, - | ⟨t', ts⟩⟩
    · rfl
    · have hpos : 1 ≤ n := by
        refine Nat.le_trans ?_ hn
        simp [writeStrings]
      obtain ⟨n, rfl⟩ := Nat.exists_eq_add_of_le' hpos
      have hshape : writeStrings [t] ++ '\n' :: rest
          = '[' :: (writeString t ++ ']' :: '\n' :: rest) := by
        simp [writeStrings]
      rw [hshape, readValue_bracket (by decide), readItems_single]
      rfl
    · have hlength : (t :: t' :: ts).length < n := by
        have hlines := length_le_flatMap_itemLine (t :: t' :: ts)
        rw [writeStrings_lines] at hn
        simp at hn hlines ⊢
        omega
      have hshape : writeStrings (t :: t' :: ts) ++ '\n' :: rest
          = '[' :: '\n' :: ((t :: t' :: ts).flatMap itemLine ++ ']' :: '\n' :: rest) := by
        rw [writeStrings_lines]
        simp
      rw [hshape, readValue_bracket (by decide), readItems_lines _ hlength]
      rfl

/-! ### Statements -/

/-- What is set in the section on reading, less the patterns. -/
def readingFields (c : Config) : List (Text × Toml) :=
  [("formats".toList, .array (c.formats.map .string)), ("fallback".toList, .boolean c.fallback)]

/-- What is set in the table of a pattern. -/
def fieldsOfPattern (p : PatternSpec) : List (Text × Toml) :=
  [("name".toList, .string p.name), ("regex".toList, .string p.regex)]

/-- What is set in the table of the words for severities. -/
def aliasFields (c : Config) : List (Text × Toml) :=
  c.aliases.map fun (token, s) => (token, .string s.name)

/-- What is set in the section on writing. -/
def writingFields (c : Config) : List (Text × Toml) :=
  ("pretty".toList, .boolean c.pretty) ::
    c.informationUri.toList.map fun uri => ("information_uri".toList, .string uri)

/-- The patterns: an empty array if there are none, else a table for each. -/
def patternStatements (patterns : List PatternSpec) : List Statement :=
  if patterns = [] then entryStatements [("patterns".toList, .array [])]
  else itemStatements ["parser".toList, "patterns".toList] (patterns.map fieldsOfPattern)

/-- The statements of a configuration. -/
def statements (c : Config) : List Statement :=
  .openTable ["parser".toList] :: (entryStatements (readingFields c) ++
    (patternStatements c.patterns ++
      .openTable ["severity".toList, "aliases".toList] :: (entryStatements (aliasFields c) ++
        .openTable ["output".toList] :: entryStatements (writingFields c))))

theorem reads_writeEntry {w : Text} {v : Toml} (h : ReadsValue w v) (key : Text) :
    Reads (writeEntry key w) (entryStatements [(key, v)]) := Reads.entry h key

theorem reads_writePattern (p : PatternSpec) :
    Reads (writePattern p)
      (.openItem ["parser".toList, "patterns".toList] :: entryStatements (fieldsOfPattern p)) := by
  have hheader : Reads "[[parser.patterns]]\n".toList
      [.openItem ["parser".toList, "patterns".toList]] :=
    Reads.statement (.inl rfl) fun rest => rfl
  have hname := reads_writeEntry (readsValue_writeString p.name) "name".toList
  have hregex := reads_writeEntry (readsValue_writeString p.regex) "regex".toList
  exact ((Reads.emptyLine.append hheader).append hname).append hregex

theorem reads_patterns (patterns : List PatternSpec) :
    Reads (if patterns = [] then writeEntry "patterns".toList "[]".toList
      else patterns.flatMap writePattern) (patternStatements patterns) := by
  unfold patternStatements
  by_cases hnone : patterns = []
  · rw [if_pos hnone, if_pos hnone]
    exact reads_writeEntry (readsValue_writeStrings []) "patterns".toList
  · rw [if_neg hnone, if_neg hnone, itemStatements, List.flatMap_map]
    exact Reads.flatMap reads_writePattern patterns

theorem reads_aliases (c : Config) :
    Reads (c.aliases.entries.flatMap fun (token, s) => writeEntry token (writeString s.name))
      (entryStatements (aliasFields c)) := by
  have hflat : entryStatements (aliasFields c)
      = c.aliases.entries.flatMap fun a => entryStatements [(a.1, .string a.2.name)] := by
    simp [entryStatements, aliasFields, TextMap.map, List.map_eq_flatMap, List.flatMap_assoc]
  rw [hflat]
  refine Reads.flatMap ?_ c.aliases.entries
  rintro ⟨token, s⟩
  exact reads_writeEntry (readsValue_writeString s.name) token

theorem reads_uri (uri : Option Text) :
    Reads (match uri with
      | some uri => writeEntry "information_uri".toList (writeString uri)
      | none => [])
      (entryStatements (uri.toList.map fun uri => ("information_uri".toList, .string uri))) := by
  cases uri with
  | none => exact Reads.nil
  | some uri => exact reads_writeEntry (readsValue_writeString uri) "information_uri".toList

/-- **A configuration is read as its statements.** -/
theorem reads_write (c : Config) : Reads c.write (statements c) := by
  have hparser : Reads "[parser]\n".toList [.openTable ["parser".toList]] :=
    Reads.statement (.inl rfl) fun rest => rfl
  have haliases : Reads "[severity.aliases]\n".toList
      [.openTable ["severity".toList, "aliases".toList]] :=
    Reads.statement (.inl rfl) fun rest => rfl
  have houtput : Reads "[output]\n".toList [.openTable ["output".toList]] :=
    Reads.statement (.inl rfl) fun rest => rfl
  have hformats := reads_writeEntry (readsValue_writeStrings c.formats) "formats".toList
  have hfallback := reads_writeEntry (readsValue_writeBoolean c.fallback) "fallback".toList
  have hpretty := reads_writeEntry (readsValue_writeBoolean c.pretty) "pretty".toList
  have hreads := (((((((hparser.append hformats).append hfallback).append
    (reads_patterns c.patterns)).append (Reads.emptyLine.append haliases)).append
    (reads_aliases c)).append (Reads.emptyLine.append houtput)).append hpretty).append
    (reads_uri c.informationUri)
  refine (congrArg (Reads c.write) ?_).mp hreads
  simp [statements, entryStatements, readingFields, writingFields]

/-! ### Tables -/

/-- The table of a pattern. -/
def patternTable (p : PatternSpec) : Toml := .table (fieldsOfPattern p)

/-- A configuration as the entries of its document. -/
def document (c : Config) : List (Text × Toml) :=
  [("parser".toList, .table (readingFields c ++
      [("patterns".toList, .array (c.patterns.map patternTable))])),
    ("severity".toList, .table [("aliases".toList, .table (aliasFields c))]),
    ("output".toList, .table (writingFields c))]

/-- What the patterns are while the document is built. -/
def patternsItem (patterns : List PatternSpec) : Item :=
  if patterns = [] then .value (.array [])
  else .tables ((patterns.map fieldsOfPattern).map entryItems).reverse

theorem toToml_patternsItem (patterns : List PatternSpec) :
    (patternsItem patterns).toToml = .array (patterns.map patternTable) := by
  unfold patternsItem
  by_cases hnone : patterns = []
  · rw [if_pos hnone, hnone]
    rfl
  · rw [if_neg hnone, Item.toToml, itemsToToml_eq]
    simp [patternTable, entriesToToml_entryItems, Function.comp_def]

/-- The section on reading, as the statements build it. -/
def parserSection (c : Config) : Text × Item :=
  ("parser".toList, .table .header (entryItems (readingFields c) ++
    [("patterns".toList, patternsItem c.patterns)]))

/-- The section on severities, which has no header of its own. -/
def severitySection (aliases : Entries) : Text × Item :=
  ("severity".toList, .table .implied [("aliases".toList, .table .header aliases)])

/-- The tables that the statements of a configuration build. -/
def tables (c : Config) : Entries :=
  [parserSection c, severitySection (entryItems (aliasFields c)),
    ("output".toList, .table .header (entryItems (writingFields c)))]

theorem lacks_patterns (c : Config) : Lacks (entryItems (readingFields c)) "patterns".toList := by
  change Lacks [("formats".toList, _), ("fallback".toList, _)] "patterns".toList
  rw [Lacks, List.forall_mem_cons, List.forall_mem_singleton]
  exact (by decide : "formats".toList ≠ "patterns".toList ∧ "fallback".toList ≠ "patterns".toList)

theorem lacks_severity (c : Config) : Lacks [parserSection c] "severity".toList := by
  rw [Lacks, List.forall_mem_singleton]
  exact (by decide : "parser".toList ≠ "severity".toList)

theorem lacks_output (c : Config) (aliases : Entries) :
    Lacks [parserSection c, severitySection aliases] "output".toList := by
  rw [Lacks, List.forall_mem_cons, List.forall_mem_singleton]
  exact (by decide : "parser".toList ≠ "output".toList ∧ "severity".toList ≠ "output".toList)

theorem nodup_readingFields (c : Config) : ((readingFields c).map Prod.fst).Nodup := by
  change ["formats".toList, "fallback".toList].Nodup
  decide

theorem nodup_fieldsOfPattern (p : PatternSpec) : ((fieldsOfPattern p).map Prod.fst).Nodup := by
  change ["name".toList, "regex".toList].Nodup
  decide

theorem keys_aliasFields (c : Config) :
    (aliasFields c).map Prod.fst = TextMap.keys c.aliases.entries := by
  simp [aliasFields, TextMap.map, TextMap.keys]

theorem nodup_writingFields (c : Config) : ((writingFields c).map Prod.fst).Nodup := by
  unfold writingFields
  cases c.informationUri with
  | none => simp
  | some uri =>
      change ["pretty".toList, "information_uri".toList].Nodup
      decide

/-- The path to a section that is the only one. -/
theorem leads_section (key : Text) :
    Leads (headerPath [key]) .header .header fun inner => [(key, .table .header inner)] :=
  leads_table [] (.nil key) .header .header

theorem carryOut_patterns (patterns : List PatternSpec) {inner : Entries}
    (hinner : Lacks inner "patterns".toList) (name : List Text) (rest : List Statement) :
    carryOut ["parser".toList] (patternStatements patterns ++ .openTable name :: rest)
        [("parser".toList, .table .header inner)]
      = openTable name [("parser".toList,
          .table .header (inner ++ [("patterns".toList, patternsItem patterns)]))]
        >>= carryOut name rest := by
  unfold patternStatements patternsItem
  by_cases hnone : patterns = []
  · rw [if_pos hnone, if_pos hnone]
    exact congrArg (· >>= carryOut ["parser".toList] (.openTable name :: rest))
      (addKey_of_leads (leads_section "parser".toList) hinner (.array []))
  · have hgroups : ∀ fields ∈ patterns.map fieldsOfPattern, (fields.map Prod.fst).Nodup := by
      intro fields hfields
      obtain ⟨p, -, rfl⟩ := List.mem_map.mp hfields
      exact nodup_fieldsOfPattern p
    rw [if_neg hnone, if_neg hnone]
    exact carryOut_array (leads_section "parser".toList) hinner hgroups (by simpa using hnone)
      (.openTable name :: rest)

/-- The statements of the first section, up to the header of the next one. -/
theorem carryOut_reading (c : Config) (name : List Text) (rest : List Statement) :
    carryOut ["parser".toList] (entryStatements (readingFields c) ++
        (patternStatements c.patterns ++ .openTable name :: rest))
        [("parser".toList, .table .header [])]
      = openTable name [parserSection c] >>= carryOut name rest :=
  (carryOut_fields (leads_section "parser".toList) (nodup_readingFields c) _).trans
    (carryOut_patterns c.patterns (lacks_patterns c) name rest)

theorem carryOut_aliases (c : Config) (rest : List Statement) :
    carryOut ["severity".toList, "aliases".toList] (entryStatements (aliasFields c) ++ rest)
        [parserSection c, severitySection []]
      = carryOut ["severity".toList, "aliases".toList] rest
        [parserSection c, severitySection (entryItems (aliasFields c))] := by
  have hleads : Leads (headerPath ["severity".toList, "aliases".toList]) .header .header
      fun inner => [parserSection c, severitySection inner] :=
    (leads_table [parserSection c] (lacks_severity c) .header .implied).trans
      (leads_table [] (.nil _) .implied .header)
  refine carryOut_fields hleads ?_ rest
  rw [keys_aliasFields]
  exact c.aliases.ascending.nodup

theorem carryOut_output (c : Config) (aliases : Entries) :
    carryOut ["output".toList] (entryStatements (writingFields c))
        [parserSection c, severitySection aliases, ("output".toList, .table .header [])]
      = some [parserSection c, severitySection aliases,
        ("output".toList, .table .header (entryItems (writingFields c)))] := by
  have hleads : Leads (headerPath ["output".toList]) .header .header fun inner =>
      [parserSection c, severitySection aliases, ("output".toList, .table .header inner)] :=
    leads_table [parserSection c, severitySection aliases] (lacks_output c aliases) .header .header
  have hfields := carryOut_fields hleads (nodup_writingFields c) []
  rw [List.append_nil] at hfields
  exact hfields

/-- The statements of a configuration, section by section. -/
theorem carryOut_statements (c : Config) :
    carryOut [] (statements c) [] = some (tables c) := by
  have hroot : Leads (headerPath []) .header .header id := .nil .header
  have houtput : openTable ["output".toList]
      [parserSection c, severitySection (entryItems (aliasFields c))]
        = some [parserSection c, severitySection (entryItems (aliasFields c)),
          ("output".toList, .table .header [])] :=
    openTable_of_leads hroot (lacks_output c (entryItems (aliasFields c)))
  have haliases : openTable ["severity".toList, "aliases".toList] [parserSection c]
      = some [parserSection c, severitySection []] :=
    openTable_of_lacks (lacks_severity c) "aliases".toList
  refine (carryOut_reading c _ _).trans ?_
  rw [haliases, Option.bind_eq_bind, Option.bind_some, carryOut_aliases, carryOut, houtput]
  exact carryOut_output c (entryItems (aliasFields c))

/-- **The statements of a configuration make its document.** -/
theorem ofStatements?_statements (c : Config) : ofStatements? (statements c) = some (document c) := by
  have hreading : entriesToToml (entryItems (readingFields c) ++
      [("patterns".toList, patternsItem c.patterns)])
        = readingFields c ++ [("patterns".toList, .array (c.patterns.map patternTable))] := by
    rw [entriesToToml_append, entriesToToml_entryItems, entriesToToml, toToml_patternsItem]
    rfl
  have haliases := entriesToToml_entryItems (aliasFields c)
  have hwriting := entriesToToml_entryItems (writingFields c)
  rw [ofStatements?, carryOut_statements, document, ← hreading, ← haliases, ← hwriting]
  rfl

/-- **A configuration is read as its document.** -/
theorem toml_read?_write (c : Config) : Toml.read? c.write = some (document c) := by
  change readStatements (c.write.length + 1) c.write >>= ofStatements? = _
  rw [(reads_write c).document]
  exact ofStatements?_statements c

/-! ### Fields -/

theorem pattern?_patternTable (p : PatternSpec) : pattern? (patternTable p) = .ok p := rfl

theorem list?_map {α : Type} {item? : Toml → Except SchemaError α} (toToml : α → Toml)
    (h : ∀ a, item? (toToml a) = .ok a) (as : List α) :
    (Toml.array (as.map toToml)).list? item? = .ok as := Except.mapM_map_eq_ok h as

theorem setAll_cons {α : Type} (setField : α → Text → Toml → Except SchemaError α) (start : α)
    (name : Text) (v : Toml) (entries : List (Text × Toml)) :
    setAll setField start ((name, v) :: entries)
      = setField start name v >>= fun a => setAll setField a entries := rfl

theorem setFormats (start : Config) (formats : List Text) :
    setParserField start "formats".toList (.array (formats.map .string))
      = .ok { start with formats } := by
  rw [setParserField, if_pos rfl, list?_map Toml.string fun _ => rfl]
  rfl

theorem setPatterns (start : Config) (patterns : List PatternSpec) :
    setParserField start "patterns".toList (.array (patterns.map patternTable))
      = .ok { start with patterns } := by
  rw [setParserField, if_neg (by decide), if_neg (by decide), if_pos rfl,
    list?_map patternTable pattern?_patternTable]
  rfl

theorem setAliases (start c : Config) :
    setSeverityField start "aliases".toList (.table (aliasFields c))
      = .ok { start with aliases := c.aliases } := by
  have hpairs : (aliasFields c).mapM (fun e => (e.2.severity?).map (e.1, ·)) =
      .ok c.aliases.entries := by
    refine Except.mapM_map_eq_ok ?_ c.aliases.entries
    rintro ⟨token, s⟩
    cases s <;> rfl
  have haliases : aliases? (.table (aliasFields c))
      = (aliasFields c).mapM (fun e => (e.2.severity?).map (e.1, ·))
        >>= fun pairs => .ok (TextMap.ofPairs pairs) := rfl
  rw [setSeverityField, if_pos rfl, haliases, hpairs]
  change Except.ok { start with aliases := TextMap.ofPairs c.aliases.entries } = _
  rw [TextMap.ofPairs_entries]

theorem setAll_writingFields {start : Config} (h : start.informationUri = none) (c : Config) :
    setAll setOutputField start (writingFields c)
      = .ok { start with pretty := c.pretty, informationUri := c.informationUri } := by
  unfold writingFields
  cases c.informationUri with
  | none =>
      cases start
      cases h
      rfl
  | some uri => rfl

/-- **The document of a configuration holds all that is set.** -/
theorem ofEntries?_document (c : Config) : ofEntries? (document c) = .ok c := by
  let read : Config :=
    { standard with formats := c.formats, fallback := c.fallback, patterns := c.patterns }
  have hparser : setSection standard "parser".toList (.table (readingFields c ++
      [("patterns".toList, .array (c.patterns.map patternTable))])) = .ok read := by
    change setAll setParserField standard (readingFields c ++ _) = _
    rw [readingFields, List.cons_append, setAll_cons, setFormats]
    change setParserField _ "patterns".toList _ >>= _ = _
    rw [setPatterns]
    rfl
  have hseverity : setSection read "severity".toList
      (.table [("aliases".toList, .table (aliasFields c))])
        = .ok { read with aliases := c.aliases } := by
    change setSeverityField read "aliases".toList (.table (aliasFields c)) >>= _ = _
    rw [setAliases read c]
    rfl
  have houtput : setSection { read with aliases := c.aliases } "output".toList
      (.table (writingFields c)) = .ok c := by
    change setAll setOutputField _ (writingFields c) = _
    rw [setAll_writingFields rfl]
  rw [ofEntries?, document, setAll_cons, hparser]
  change (setAll setSection read _) = _
  rw [setAll_cons, hseverity]
  change (setAll setSection _ _) = _
  rw [setAll_cons, houtput]
  rfl

/-! ### Texts and files -/

theorem read?_write (c : Config) : read? c.write = .ok c := by
  rw [read?, toml_read?_write]
  dsimp only
  rw [ofEntries?_document]
  rfl

/-- **A configuration is read back from the text that is written of it**, which is a document
with all its settings. -/
theorem ofText_write (c : Config) :
    Toml.read? c.write = some (document c) ∧ ofText c.write = .ok c := by
  refine ⟨toml_read?_write c, ?_⟩
  rw [ofText, read?_write]
  rfl

/-- A configuration whose texts take all the styles of strings, with some keys in quotes. -/
def quoted : Config :=
  { formats := ["gnu".toList, "it's \\w".toList]
    fallback := false
    patterns := [⟨"\\d+".toList, "^(?P<file>'''[^\"]+\\.c''''):\n\"\"\"\"\\d".toList⟩]
    aliases := .ofPairs [([], .error), ("\n\x00".toList, .note), ("\"'".toList, .none),
      ("a b".toList, .warning), ("err".toList, .error)]
    pretty := true
    informationUri := some "''\n''".toList }

theorem ofText_write_quoted :
    quoted.aliases.entries.length = 5 ∧ Toml.read? quoted.write = some (document quoted) ∧
      ofText quoted.write = .ok quoted :=
  ⟨rfl, ofText_write quoted⟩

section

variable {σ : Type} {files : FileOps (StateM σ)} {Same : σ → Text → Text → Prop} {s s' : σ}

/-- What reading a configuration from a file answers. -/
theorem load_run (h : files.Lawful Same) (path : Text) (s : σ) :
    (load files path).run s =
      (match files.content s path with
        | .error failure => .error (.fileRead path failure)
        | .ok bytes => ofBytes path bytes, s) := by
  simp only [load, StateT.run_bind, h.read_run]
  cases files.content s path <;> rfl

/-- **A configuration that was saved is loaded again.** -/
theorem load_save (h : files.Lawful Same) {c : Config} {path : Text}
    (hsave : (save files path c).run s = (.ok (), s')) :
    (load files path).run s' = (.ok c, s') := by
  have hresult : ((files.write path (Utf8.encode c.write)).run s).1 = .ok () :=
    Except.mapError_eq_ok.mp (congrArg Prod.fst hsave)
  have hstate := congrArg Prod.snd hsave
  have hwrite : (files.write path (Utf8.encode c.write)).run s = (.ok (), s') :=
    Prod.ext hresult hstate
  have hcontent := h.write_same path _ s s' path hwrite (h.same_refl s path)
  rw [load_run h, hcontent]
  dsimp only
  rw [ofBytes, Utf8.decode?_encode]
  dsimp only
  rw [ofText, read?_write]
  rfl

end

end LintFindings.Config
