/-
What the values of a configuration mean.

What a value has to be in order to stand for a text, a severity, a pattern or the words for
severities is said by relations that read nothing: `ShowsText` to `ShowsAliases`.  A pattern is a
table with its two fields and no others, and the words for severities are the entries of any table
of severities.  Each reader of the schema answers what its value shows, and nothing else
(`pattern?_eq_ok_iff`, `aliases?_eq_ok_iff`).

Where a record may have its fields in any order, `Steps` are those that its reader takes from one
entry to the next.  As no key stands twice, a field is what its only entry makes of it, and it is
left alone where it has none (`Steps.becomes`).
-/
import LintFindings.Config.Schema
import LintFindings.Proofs.Except
import LintFindings.Proofs.TextMap
import LintFindings.Proofs.Toml.Distinct

namespace LintFindings

/-! ### Steps from one entry to the next -/

namespace Config

variable {α β : Type} {R : α → Text → Toml → α → Prop} {B : Toml → β → β → Prop}
  {setField : α → Text → Toml → Except SchemaError α} {a b c : α} {key : Text}
  {entries : List (Text × Toml)}

/-- What becomes of data by some entries, each of them a step. -/
inductive Steps (R : α → Text → Toml → α → Prop) : α → List (Text × Toml) → α → Prop
  | nil {a : α} : Steps R a [] a
  | cons {a b c : α} {e : Text × Toml} {entries : List (Text × Toml)} (hfirst : R a e.1 e.2 b)
      (hrest : Steps R b entries c) : Steps R a (e :: entries) c

theorem setAll_eq_ok_iff
    (h : ∀ e ∈ entries, ∀ a b, setField a e.1 e.2 = .ok b ↔ R a e.1 e.2 b) :
    setAll setField a entries = .ok c ↔ Steps R a entries c := by
  induction entries generalizing a with
  | nil =>
      constructor
      · rintro ⟨⟩
        exact .nil
      · rintro ⟨⟩
        rfl
  | cons e entries ih =>
      obtain ⟨he, hentries⟩ := List.forall_mem_cons.mp h
      have hstep : setAll setField a (e :: entries) = .ok c ↔
          ∃ b, setField a e.1 e.2 = .ok b ∧ setAll setField b entries = .ok c :=
        Except.bind_eq_ok
      rw [hstep]
      constructor
      · rintro ⟨b, hfirst, hrest⟩
        exact .cons ((he a b).mp hfirst) ((ih hentries).mp hrest)
      · rintro ⟨⟩
        next b hfirst hrest => exact ⟨b, (he a b).mpr hfirst, (ih hentries).mpr hrest⟩

/-- Entries are taken if each of them can be, whatever there is before. -/
theorem exists_steps_iff {Accepts : Text × Toml → Prop}
    (h : ∀ e ∈ entries, ∀ a, (∃ b, R a e.1 e.2 b) ↔ Accepts e) :
    (∃ c, Steps R a entries c) ↔ ∀ e ∈ entries, Accepts e := by
  induction entries generalizing a with
  | nil => exact iff_of_true ⟨a, .nil⟩ (List.forall_mem_nil _)
  | cons e entries ih =>
      obtain ⟨he, hentries⟩ := List.forall_mem_cons.mp h
      constructor
      · rintro ⟨c, ⟨⟩⟩
        next b hfirst hrest =>
          exact List.forall_mem_cons.mpr ⟨(he a).mp ⟨b, hfirst⟩, (ih hentries).mp ⟨c, hrest⟩⟩
      · intro haccepts
        obtain ⟨hfirst, hrest⟩ := List.forall_mem_cons.mp haccepts
        obtain ⟨b, hb⟩ := (he a).mpr hfirst
        obtain ⟨c, hc⟩ := (ih hentries).mpr hrest
        exact ⟨c, .cons hb hc⟩

/-- What no step changes stays. -/
theorem Steps.keeps (get : α → β) (hkeep : ∀ e ∈ entries, ∀ a b, R a e.1 e.2 b → get b = get a)
    (h : Steps R a entries c) : get c = get a := by
  induction h with
  | nil => rfl
  | cons hfirst _ ih =>
      obtain ⟨he, hentries⟩ := List.forall_mem_cons.mp hkeep
      exact (ih hentries).trans (he _ _ hfirst)

/-- What becomes of a part by the value that is written for it, if there is one. -/
def Becomes (B : Toml → β → β → Prop) : Option Toml → β → β → Prop
  | some v, old, new => B v old new
  | none, old, new => new = old

/-- **A part is what the entry for its key makes of it**, and stays where there is none. -/
theorem Steps.becomes (get : α → β) (hkeys : (entries.map Prod.fst).Nodup)
    (hset : ∀ v, (key, v) ∈ entries → ∀ a b, R a key v b → B v (get a) (get b))
    (hkeep : ∀ a name v b, name ≠ key → R a name v b → get b = get a)
    (h : Steps R a entries c) : Becomes B (entries.lookup key) (get a) (get c) := by
  induction h with
  | nil => rfl
  | @cons a b c e entries hfirst hrest ih =>
      obtain ⟨hnot, hkeys⟩ := List.nodup_cons.mp hkeys
      rw [TextMap.lookup_cons]
      by_cases hkey : key = e.1
      · subst hkey
        have hstays : get c = get b := by
          refine hrest.keeps get fun e' he' a b hstep => hkeep a e'.1 e'.2 b ?_ hstep
          intro heq
          exact hnot (List.mem_map.mpr ⟨e', he', heq⟩)
        rw [if_pos rfl, hstays]
        exact hset e.2 List.mem_cons_self a b hfirst
      · have hstays : get b = get a := hkeep a e.1 e.2 b (Ne.symm hkey) hfirst
        rw [if_neg hkey, ← hstays]
        exact ih hkeys fun v hv => hset v (List.mem_cons_of_mem _ hv)

end Config

/-! ### What a value shows -/

namespace Toml

variable {v : Toml} {t : Text} {b : Bool} {s : Severity}

/-- A string shows its text. -/
def ShowsText (v : Toml) (t : Text) : Prop := v = .string t

/-- A truth value shows itself. -/
def ShowsBoolean (v : Toml) (b : Bool) : Prop := v = .boolean b

/-- An array shows a list item by item. -/
def ShowsList {α : Type} (R : Toml → α → Prop) (v : Toml) (as : List α) : Prop :=
  ∃ vs, v = .array vs ∧ List.Forall₂ R vs as

/-- A string shows the severity of its name, and so does a table whose only key is the name and
holds nothing. -/
inductive ShowsSeverity : Toml → Severity → Prop
  | name {s : Severity} : ShowsSeverity (.string s.name) s
  | emptyTable {s : Severity} : ShowsSeverity (.table [(s.name, .table [])]) s
  | emptyArray {s : Severity} : ShowsSeverity (.table [(s.name, .array [])]) s

/-- A table with a name and an expression, and nothing else, shows a pattern. -/
def ShowsPattern (v : Toml) (p : PatternSpec) : Prop :=
  ∃ fields, v.entries? = some fields ∧
    ∀ e, e ∈ fields ↔ e = ("name".toList, .string p.name) ∨ e = ("regex".toList, .string p.regex)

/-- A table of severities shows the words that are its keys. -/
def ShowsAliases (v : Toml) (aliases : TextMap Severity) : Prop :=
  ∃ fields, v.entries? = some fields ∧ (∀ e ∈ fields, ∃ s, ShowsSeverity e.2 s) ∧
    ∀ token s, (token, s) ∈ aliases.entries ↔ ∃ w, (token, w) ∈ fields ∧ ShowsSeverity w s

theorem text?_eq_ok_iff : v.text? = .ok t ↔ ShowsText v t := by
  cases v <;> simp [text?, mismatch, ShowsText]

theorem boolean?_eq_ok_iff : v.boolean? = .ok b ↔ ShowsBoolean v b := by
  cases v <;> simp [boolean?, mismatch, ShowsBoolean]

theorem list?_eq_ok_iff {α : Type} {item? : Toml → Except SchemaError α} {R : Toml → α → Prop}
    {as : List α} (h : ∀ items, v = .array items → ∀ w ∈ items, ∀ a, item? w = .ok a ↔ R w a) :
    v.list? item? = .ok as ↔ ShowsList R v as := by
  cases v with
  | array items =>
      have hitems := h items rfl
      rw [list?, Except.mapM_eq_ok]
      constructor
      · intro hread
        refine ⟨items, rfl, ?_⟩
        exact ((List.forall₂_and_left _ _).mpr ⟨hitems, hread⟩).imp fun w a hw => (hw.1 a).mp hw.2
      · rintro ⟨_, ⟨⟩, hshows⟩
        exact ((List.forall₂_and_left _ _).mpr ⟨hitems, hshows⟩).imp fun w a hw => (hw.1 a).mpr hw.2
  | _ => simp [list?, mismatch, ShowsList]

theorem severityOfName?_eq_ok_iff : severityOfName? t = .ok s ↔ t = s.name := by
  constructor
  · intro h
    rw [severityOfName?] at h
    split at h
    · next s' hname =>
      cases h
      have hfound := List.find?_some hname
      exact (of_decide_eq_true hfound).symm
    · cases h
  · rintro rfl
    cases s <;> rfl

theorem severity?_eq_ok_iff : v.severity? = .ok s ↔ ShowsSeverity v s := by
  constructor
  · intro h
    unfold severity? at h
    split at h
    · rw [severityOfName?_eq_ok_iff] at h
      rw [h]
      exact .name
    · obtain ⟨s', hname, h⟩ := Except.bind_eq_ok.mp h
      rw [severityOfName?_eq_ok_iff] at hname
      rw [hname]
      split at h
      · cases h
        exact .emptyTable
      · cases h
        exact .emptyArray
      · cases h
    · cases h
  · intro h
    cases h <;> cases s <;> rfl

/-- An array stands for the fields of a record in their order; everything else has them by name. -/
theorem fields?_eq_ok_iff {record : String} {names : List Text} {fields : List (Text × Toml)}
    (hrow : ∀ row, v ≠ .array row) : v.fields? record names = .ok fields ↔ v.entries? = some fields := by
  cases v with
  | array row => exact absurd rfl (hrow row)
  | _ => simp [fields?, entries?, mismatch]

theorem Distinct.entries? {fields : List (Text × Toml)} (h : v.Distinct)
    (hfields : v.entries? = some fields) :
    (fields.map Prod.fst).Nodup ∧ ∀ e ∈ fields, e.2.Distinct := by
  cases h with
  | table hkeys hentries =>
      cases hfields
      exact ⟨hkeys, hentries⟩
  | datetime =>
      cases hfields
      exact ⟨List.nodup_singleton _, List.forall_mem_singleton.mpr .string⟩
  | _ => cases hfields

end Toml

namespace Config

open Toml

variable {v : Toml} {p : PatternSpec}

/-! ### Patterns -/

/-- What a field of a pattern does to what is known of it. -/
inductive PatternStep (known : Option Text × Option Text) (key : Text) (v : Toml) :
    Option Text × Option Text → Prop
  | name {t : Text} (hkey : key = "name".toList) (hv : ShowsText v t) :
      PatternStep known key v (some t, known.2)
  | regex {t : Text} (hkey : key = "regex".toList) (hv : ShowsText v t) :
      PatternStep known key v (known.1, some t)

variable {known known' : Option Text × Option Text} {key : Text} {fields : List (Text × Toml)}

theorem setPatternField_eq_ok_iff :
    setPatternField known key v = .ok known' ↔ PatternStep known key v known' := by
  constructor
  · intro h
    rw [setPatternField] at h
    split at h
    · next hkey =>
      obtain ⟨t, ht, rfl⟩ := Except.map_eq_ok.mp h
      exact .name hkey (text?_eq_ok_iff.mp ht)
    · split at h
      · next hkey =>
        obtain ⟨t, ht, rfl⟩ := Except.map_eq_ok.mp h
        exact .regex hkey (text?_eq_ok_iff.mp ht)
      · cases h
  · intro h
    cases h with
    | name hkey hv =>
        rw [hkey, hv]
        rfl
    | regex hkey hv =>
        rw [hkey, hv]
        rfl

theorem exists_patternStep_iff : (∃ known', PatternStep known key v known') ↔
    (key = "name".toList ∨ key = "regex".toList) ∧ ∃ t, ShowsText v t := by
  constructor
  · rintro ⟨_, ⟨hkey, hv⟩ | ⟨hkey, hv⟩⟩
    · exact ⟨.inl hkey, _, hv⟩
    · exact ⟨.inr hkey, _, hv⟩
  · rintro ⟨hkey | hkey, t, hv⟩
    · exact ⟨_, .name hkey hv⟩
    · exact ⟨_, .regex hkey hv⟩

/-- A text that is known is the string that was written for it. -/
def Known (w : Toml) (_ t : Option Text) : Prop := ∃ u, ShowsText w u ∧ t = some u

theorem becomes_known_iff {o : Option Toml} {t : Text} :
    Becomes Known o none (some t) ↔ o = some (.string t) := by
  cases o with
  | none => exact ⟨nofun, nofun⟩
  | some w =>
      constructor
      · rintro ⟨_, hw, ⟨⟩⟩
        rw [hw]
      · rintro ⟨⟩
        exact ⟨t, rfl, rfl⟩

theorem becomes_name (hkeys : (fields.map Prod.fst).Nodup)
    (h : Steps PatternStep (none, none) fields known) :
    Becomes Known (fields.lookup "name".toList) none known.1 := by
  refine h.becomes Prod.fst hkeys ?_ ?_
  · rintro w - a b (⟨-, hw⟩ | ⟨hkey, -⟩)
    · exact ⟨_, hw, rfl⟩
    · exact absurd hkey (by decide)
  · rintro a key w b hne (⟨hkey, -⟩ | ⟨-, -⟩)
    · exact absurd hkey hne
    · rfl

theorem becomes_regex (hkeys : (fields.map Prod.fst).Nodup)
    (h : Steps PatternStep (none, none) fields known) :
    Becomes Known (fields.lookup "regex".toList) none known.2 := by
  refine h.becomes Prod.snd hkeys ?_ ?_
  · rintro w - a b (⟨hkey, -⟩ | ⟨-, hw⟩)
    · exact absurd hkey (by decide)
    · exact ⟨_, hw, rfl⟩
  · rintro a key w b hne (⟨-, -⟩ | ⟨hkey, -⟩)
    · rfl
    · exact absurd hkey hne

theorem pattern?_eq_ok_iff_steps (hrow : ∀ row, v ≠ .array row) : pattern? v = .ok p ↔
    ∃ fields, v.entries? = some fields ∧
      Steps PatternStep (none, none) fields (some p.name, some p.regex) := by
  rw [pattern?, Except.bind_eq_ok]
  refine exists_congr fun fields => and_congr (fields?_eq_ok_iff hrow) ?_
  rw [Except.bind_eq_ok, ← setAll_eq_ok_iff fun _ _ _ _ => setPatternField_eq_ok_iff]
  constructor
  · rintro ⟨known, hknown, h⟩
    dsimp only at h
    split at h
    · cases h
      exact hknown
    · cases h
    · cases h
  · intro hknown
    exact ⟨_, hknown, rfl⟩

/-- **A pattern is read from the tables that show it**: those with its two fields and no others. -/
theorem pattern?_eq_ok_iff (hv : v.Distinct) (hrow : ∀ row, v ≠ .array row) :
    pattern? v = .ok p ↔ ShowsPattern v p := by
  rw [pattern?_eq_ok_iff_steps hrow]
  refine exists_congr fun fields => and_congr_right fun hfields => ?_
  have hkeys := (hv.entries? hfields).1
  have haccepts : (∃ known, Steps PatternStep (none, none) fields known) ↔
      ∀ e ∈ fields, (e.1 = "name".toList ∨ e.1 = "regex".toList) ∧ ∃ t, ShowsText e.2 t :=
    exists_steps_iff fun e _ known => exists_patternStep_iff
  have hlookup {key : Text} {w : Toml} : fields.lookup key = some w ↔ (key, w) ∈ fields :=
    TextMap.lookup_eq_some_iff hkeys
  constructor
  · intro h
    have hname := becomes_known_iff.mp (becomes_name hkeys h)
    have hregex := becomes_known_iff.mp (becomes_regex hkeys h)
    rintro ⟨key, w⟩
    constructor
    · intro hmem
      have hw := hlookup.mpr hmem
      obtain ⟨rfl | rfl, -⟩ := haccepts.mp ⟨_, h⟩ _ hmem
      · exact .inl (by rw [Option.some.inj (hw.symm.trans hname)])
      · exact .inr (by rw [Option.some.inj (hw.symm.trans hregex)])
    · rintro (heq | heq)
      · exact heq ▸ hlookup.mp hname
      · exact heq ▸ hlookup.mp hregex
  · intro hshows
    have hall : ∀ e ∈ fields,
        (e.1 = "name".toList ∨ e.1 = "regex".toList) ∧ ∃ t, ShowsText e.2 t := by
      intro e he
      obtain rfl | rfl := (hshows e).mp he
      · exact ⟨.inl rfl, _, rfl⟩
      · exact ⟨.inr rfl, _, rfl⟩
    obtain ⟨⟨name, regex⟩, h⟩ := haccepts.mpr hall
    have hname := becomes_name hkeys h
    have hregex := becomes_regex hkeys h
    rw [hlookup.mpr ((hshows _).mpr (.inl rfl))] at hname
    rw [hlookup.mpr ((hshows _).mpr (.inr rfl))] at hregex
    obtain ⟨_, ⟨⟩, rfl⟩ := hname
    obtain ⟨_, ⟨⟩, rfl⟩ := hregex
    exact h

/-! ### Words for severities -/

/-- An entry shows a word and its severity. -/
def ShowsAlias (e : Text × Toml) (pair : Text × Severity) : Prop :=
  e.1 = pair.1 ∧ ShowsSeverity e.2 pair.2

variable {aliases : List (Text × Severity)}

theorem mapM_alias_eq_ok_iff :
    (fields.mapM fun (token, s) => (s.severity?).map (token, ·)) = .ok aliases ↔
      List.Forall₂ ShowsAlias fields aliases := by
  have halias (e : Text × Toml) (pair : Text × Severity) :
      (e.2.severity?).map (e.1, ·) = .ok pair ↔ ShowsAlias e pair := by
    simp only [Except.map_eq_ok, severity?_eq_ok_iff, ShowsAlias]
    constructor
    · rintro ⟨s, hs, rfl⟩
      exact ⟨rfl, hs⟩
    · rintro ⟨htoken, hs⟩
      exact ⟨pair.2, hs, by rw [htoken]⟩
  rw [Except.mapM_eq_ok]
  exact ⟨fun h => h.imp fun e pair => (halias e pair).mp,
    fun h => h.imp fun e pair => (halias e pair).mpr⟩

theorem exists_mapM_alias_iff :
    (∃ aliases, (fields.mapM fun (token, s) => (s.severity?).map (token, ·)) = .ok aliases) ↔
      ∀ e ∈ fields, ∃ s, ShowsSeverity e.2 s := by
  simp only [Except.exists_mapM_iff, Except.map_eq_ok, severity?_eq_ok_iff]
  refine forall₂_congr fun e _ => ?_
  constructor
  · rintro ⟨_, s, hs, -⟩
    exact ⟨s, hs⟩
  · rintro ⟨s, hs⟩
    exact ⟨_, s, hs, rfl⟩

theorem keys_of_showsAlias (h : List.Forall₂ ShowsAlias fields aliases) :
    aliases.map Prod.fst = fields.map Prod.fst := by
  induction h with
  | nil => rfl
  | cons hfirst _ ih => rw [List.map_cons, List.map_cons, hfirst.1, ih]

theorem mem_iff_of_showsAlias (h : List.Forall₂ ShowsAlias fields aliases) (token : Text)
    (s : Severity) : (token, s) ∈ aliases ↔ ∃ w, (token, w) ∈ fields ∧ ShowsSeverity w s := by
  induction h with
  | nil => simp
  | @cons e pair fields aliases hfirst _ ih =>
      obtain ⟨key, w⟩ := e
      obtain ⟨hkey, hw⟩ := hfirst
      have hpair : (token, s) = pair ↔ ∃ x, (token, x) = (key, w) ∧ ShowsSeverity x s := by
        constructor
        · rintro rfl
          exact ⟨w, Prod.ext hkey.symm rfl, hw⟩
        · rintro ⟨_, ⟨⟩, hs⟩
          have hread := severity?_eq_ok_iff.mpr hs
          rw [severity?_eq_ok_iff.mpr hw] at hread
          cases hread
          exact Prod.ext hkey rfl
      simp only [List.mem_cons, hpair, ih, or_and_right, exists_or]

/-- **The words for severities are read from the tables that show them.** -/
theorem aliases?_eq_ok_iff {aliases : TextMap Severity} (hv : v.Distinct) :
    aliases? v = .ok aliases ↔ ShowsAliases v aliases := by
  constructor
  · intro h
    rw [aliases?] at h
    split at h
    · next fields hfields =>
      obtain ⟨pairs, hread, ⟨⟩⟩ := Except.bind_eq_ok.mp h
      have hpairs := mapM_alias_eq_ok_iff.mp hread
      have hkeys : (TextMap.keys pairs).Nodup := by
        rw [TextMap.keys, keys_of_showsAlias hpairs]
        exact (hv.entries? hfields).1
      refine ⟨fields, hfields, exists_mapM_alias_iff.mp ⟨pairs, hread⟩, ?_⟩
      intro token s
      rw [TextMap.mem_ofPairs_iff hkeys]
      exact mem_iff_of_showsAlias hpairs token s
    · cases h
  · rintro ⟨fields, hfields, hall, hmem⟩
    obtain ⟨pairs, hread⟩ := exists_mapM_alias_iff.mpr hall
    have hpairs := mapM_alias_eq_ok_iff.mp hread
    have hkeys : (TextMap.keys pairs).Nodup := by
      rw [TextMap.keys, keys_of_showsAlias hpairs]
      exact (hv.entries? hfields).1
    have htable : TextMap.ofPairs pairs = aliases := by
      refine TextMap.ext_mem ?_
      rintro ⟨token, s⟩
      rw [TextMap.mem_ofPairs_iff hkeys, hmem, mem_iff_of_showsAlias hpairs]
    rw [aliases?, hfields]
    exact Except.bind_eq_ok.mpr ⟨pairs, hread, congrArg _ htable⟩

end Config

end LintFindings
