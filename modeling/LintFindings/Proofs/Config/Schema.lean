/-
Which documents are configurations, and of what.

A `Setting` is one of the things that can be set, with the section and the key that it is written
under, the values that show it, and its part of a configuration.  A document `Conforms` if each of
its keys is the place of a setting and has a value that shows it, and a configuration `Follows` it
if each setting is as the document says or, where it says nothing, as in the standard one.

The fields of a section are read by steps, of which each puts one setting (`setParserField_iff` and
its like), and so are the sections (`setSection_iff`).  As the keys of a document are distinct, what
becomes of a setting is seen at its place alone (`says_of_ofEntries?`).  So a document may leave out
what it says about settings that are standard anyway (`ofEntries?_of_leavesOut`).
-/
import LintFindings.Converter
import LintFindings.Proofs.Config.Values
import LintFindings.Proofs.Toml.Statements
import Mathlib

namespace LintFindings.Config

open Toml

/-! ### Settings -/

/-- The things that can be set. -/
inductive Setting where
  | formats
  | fallback
  | patterns
  | aliases
  | pretty
  | informationUri
  deriving DecidableEq

namespace Setting

/-- The section and the key of a setting. -/
def place : Setting → Text × Text
  | formats => ("parser".toList, "formats".toList)
  | fallback => ("parser".toList, "fallback".toList)
  | patterns => ("parser".toList, "patterns".toList)
  | aliases => ("severity".toList, "aliases".toList)
  | pretty => ("output".toList, "pretty".toList)
  | informationUri => ("output".toList, "information_uri".toList)

/-- What a setting is set to. -/
def Value : Setting → Type
  | formats => List Text
  | fallback => Bool
  | patterns => List PatternSpec
  | aliases => TextMap Severity
  | pretty => Bool
  | informationUri => Option Text

/-- What a setting is in a configuration. -/
def get : (k : Setting) → Config → k.Value
  | formats, c => c.formats
  | fallback, c => c.fallback
  | patterns, c => c.patterns
  | aliases, c => c.aliases
  | pretty, c => c.pretty
  | informationUri, c => c.informationUri

/-- A configuration with another value of a setting. -/
def put : (k : Setting) → k.Value → Config → Config
  | formats, x, c => { c with formats := x }
  | fallback, x, c => { c with fallback := x }
  | patterns, x, c => { c with patterns := x }
  | aliases, x, c => { c with aliases := x }
  | pretty, x, c => { c with pretty := x }
  | informationUri, x, c => { c with informationUri := x }

/-- The value of a setting, as it is read. -/
def read? : (k : Setting) → Toml → Except SchemaError k.Value
  | formats => list? text?
  | fallback => boolean?
  | patterns => list? pattern?
  | aliases => aliases?
  | pretty => boolean?
  | informationUri => fun v => (v.text?).map some

/-- The values that show what a setting is set to. -/
def Shows : (k : Setting) → Toml → k.Value → Prop
  | formats => ShowsList ShowsText
  | fallback => ShowsBoolean
  | patterns => ShowsList ShowsPattern
  | aliases => ShowsAliases
  | pretty => ShowsBoolean
  | informationUri => fun v uri => ∃ t, ShowsText v t ∧ uri = some t

variable {k k' : Setting} {v : Toml}

theorem place_injective (h : k.place = k'.place) : k = k' := by
  revert h
  cases k <;> cases k' <;> decide

theorem get_put (k : Setting) (x : k.Value) (c : Config) : k.get (k.put x c) = x := by
  cases k <;> rfl

theorem get_put_of_ne (h : k' ≠ k) (x : k'.Value) (c : Config) : k.get (k'.put x c) = k.get c := by
  cases k <;> cases k' <;> try rfl
  all_goals exact absurd rfl h

/-- A configuration is known by its settings. -/
theorem ext {c c' : Config} (h : ∀ k : Setting, k.get c = k.get c') : c = c' := by
  obtain ⟨⟩ := c
  obtain ⟨⟩ := c'
  have hformats := h .formats
  have hfallback := h .fallback
  have hpatterns := h .patterns
  have haliases := h .aliases
  have hpretty := h .pretty
  have huri := h .informationUri
  simp only [get] at *
  subst hformats hfallback hpatterns haliases hpretty huri
  rfl

end Setting

/-! ### Sections -/

variable {c c' : Config} {heading key : Text} {v : Toml} {fields entries : List (Text × Toml)}

/-- A field of a section puts the setting that has its place there. -/
def FieldStep (heading : Text) (c : Config) (key : Text) (v : Toml) (c' : Config) : Prop :=
  ∃ k : Setting, k.place = (heading, key) ∧ ∃ x, k.read? v = .ok x ∧ c' = k.put x c

theorem FieldStep.of_map (k : Setting) (hplace : k.place = (heading, key))
    (h : (k.read? v).map (k.put · c) = .ok c') : FieldStep heading c key v c' := by
  obtain ⟨x, hx, rfl⟩ := Except.map_eq_ok.mp h
  exact ⟨k, hplace, x, hx, rfl⟩

theorem setParserField_iff :
    setParserField c key v = .ok c' ↔ FieldStep "parser".toList c key v c' := by
  constructor
  · intro h
    rw [setParserField] at h
    split at h
    · next hkey => exact .of_map .formats (by rw [hkey]; rfl) h
    · split at h
      · next hkey => exact .of_map .fallback (by rw [hkey]; rfl) h
      · split at h
        · next hkey => exact .of_map .patterns (by rw [hkey]; rfl) h
        · cases h
  · rintro ⟨k, hplace, x, hx, rfl⟩
    obtain ⟨hheading, rfl⟩ := Prod.ext_iff.mp hplace
    cases k with
    | formats | fallback | patterns => exact congrArg (Except.map _) hx
    | aliases | pretty | informationUri => exact absurd hheading (by decide)

theorem setSeverityField_iff :
    setSeverityField c key v = .ok c' ↔ FieldStep "severity".toList c key v c' := by
  constructor
  · intro h
    rw [setSeverityField] at h
    split at h
    · next hkey => exact .of_map .aliases (by rw [hkey]; rfl) h
    · cases h
  · rintro ⟨k, hplace, x, hx, rfl⟩
    obtain ⟨hheading, rfl⟩ := Prod.ext_iff.mp hplace
    cases k with
    | aliases => exact congrArg (Except.map _) hx
    | formats | fallback | patterns | pretty | informationUri => exact absurd hheading (by decide)

theorem setOutputField_iff :
    setOutputField c key v = .ok c' ↔ FieldStep "output".toList c key v c' := by
  constructor
  · intro h
    rw [setOutputField] at h
    split at h
    · next hkey => exact .of_map .pretty (by rw [hkey]; rfl) h
    · split at h
      · next hkey =>
        obtain ⟨t, ht, rfl⟩ := Except.map_eq_ok.mp h
        exact ⟨.informationUri, by rw [hkey]; rfl, _, Except.map_eq_ok.mpr ⟨t, ht, rfl⟩, rfl⟩
      · cases h
  · rintro ⟨k, hplace, x, hx, rfl⟩
    obtain ⟨hheading, rfl⟩ := Prod.ext_iff.mp hplace
    cases k with
    | pretty => exact congrArg (Except.map _) hx
    | informationUri =>
        obtain ⟨t, ht, rfl⟩ := Except.map_eq_ok.mp hx
        exact congrArg (Except.map _) ht
    | formats | fallback | patterns | aliases => exact absurd hheading (by decide)

/-- A section takes its fields, one after the other. -/
def SectionStep (c : Config) (heading : Text) (v : Toml) (c' : Config) : Prop :=
  heading ∈ sections ∧ ∃ fields, v.entries? = some fields ∧ Steps (FieldStep heading) c fields c'

theorem fields_iff {record : String} {names : List Text}
    {setField : Config → Text → Toml → Except SchemaError Config}
    (hrow : ∀ row, v ≠ .array row)
    (h : ∀ c key v c', setField c key v = .ok c' ↔ FieldStep heading c key v c') :
    (v.fields? record names >>= setAll setField c) = .ok c' ↔
      ∃ fields, v.entries? = some fields ∧ Steps (FieldStep heading) c fields c' := by
  rw [Except.bind_eq_ok]
  refine exists_congr fun fields => and_congr (fields?_eq_ok_iff hrow) ?_
  exact setAll_eq_ok_iff fun e _ a b => h a e.1 e.2 b

theorem setSection_iff (hrow : heading ∈ sections → ∀ row, v ≠ .array row) :
    setSection c heading v = .ok c' ↔ SectionStep c heading v c' := by
  rw [SectionStep]
  by_cases hheading : heading ∈ sections
  · rw [and_iff_right hheading]
    have hvalue := hrow hheading
    obtain rfl | rfl | rfl :
        heading = "parser".toList ∨ heading = "severity".toList ∨ heading = "output".toList := by
      simpa [sections] using hheading
    · exact fields_iff hvalue fun _ _ _ _ => setParserField_iff
    · exact fields_iff hvalue fun _ _ _ _ => setSeverityField_iff
    · exact fields_iff hvalue fun _ _ _ _ => setOutputField_iff
  · have hparser : heading ≠ "parser".toList := fun h => hheading (by rw [h]; decide)
    have hseverity : heading ≠ "severity".toList := fun h => hheading (by rw [h]; decide)
    have houtput : heading ≠ "output".toList := fun h => hheading (by rw [h]; decide)
    rw [setSection, if_neg hparser, if_neg hseverity, if_neg houtput]
    exact iff_of_false nofun fun h => hheading h.1

/-! ### Steps and settings -/

variable {k : Setting}

/-- A setting is read from the value that is written for it. -/
def Setting.ReadFrom (k : Setting) (v : Toml) (_ x : k.Value) : Prop := k.read? v = .ok x

theorem exists_fieldStep_iff : (∃ c', FieldStep heading c key v c') ↔
    ∃ k : Setting, k.place = (heading, key) ∧ ∃ x, k.read? v = .ok x := by
  constructor
  · rintro ⟨_, k, hplace, x, hx, -⟩
    exact ⟨k, hplace, x, hx⟩
  · rintro ⟨k, hplace, x, hx⟩
    exact ⟨_, k, hplace, x, hx, rfl⟩

theorem FieldStep.readFrom (h : FieldStep k.place.1 c k.place.2 v c') :
    k.ReadFrom v (k.get c) (k.get c') := by
  obtain ⟨k', hplace, x, hx, rfl⟩ := h
  obtain rfl := Setting.place_injective hplace
  rw [Setting.get_put]
  exact hx

theorem FieldStep.get_of_ne (hplace : k.place ≠ (heading, key)) (h : FieldStep heading c key v c') :
    k.get c' = k.get c := by
  obtain ⟨k', hplace', x, -, rfl⟩ := h
  refine Setting.get_put_of_ne ?_ x c
  rintro rfl
  exact hplace hplace'

theorem exists_sectionStep_iff : (∃ c', SectionStep c heading v c') ↔
    heading ∈ sections ∧ ∃ fields, v.entries? = some fields ∧
      ∀ f ∈ fields, ∃ k : Setting, k.place = (heading, f.1) ∧ ∃ x, k.read? f.2 = .ok x := by
  have hsteps (fields : List (Text × Toml)) : (∃ c', Steps (FieldStep heading) c fields c') ↔
      ∀ f ∈ fields, ∃ k : Setting, k.place = (heading, f.1) ∧ ∃ x, k.read? f.2 = .ok x :=
    exists_steps_iff fun _ _ _ => exists_fieldStep_iff
  simp only [← hsteps]
  constructor
  · rintro ⟨c', hheading, fields, hfields, h⟩
    exact ⟨hheading, fields, hfields, c', h⟩
  · rintro ⟨hheading, fields, hfields, c', h⟩
    exact ⟨c', hheading, fields, hfields, h⟩

/-- What a section says about a setting that has its place there. -/
def Setting.inSection? (k : Setting) (v : Toml) : Option Toml :=
  v.entries?.bind fun fields => fields.lookup k.place.2

theorem SectionStep.becomes (hv : v.Distinct) (h : SectionStep c k.place.1 v c') :
    Becomes k.ReadFrom (k.inSection? v) (k.get c) (k.get c') := by
  obtain ⟨-, fields, hfields, hsteps⟩ := h
  rw [Setting.inSection?, hfields, Option.bind_some]
  refine hsteps.becomes k.get (hv.entries? hfields).1 ?_ ?_
  · intro w _ a b hstep
    exact hstep.readFrom
  · intro a key w b hne hstep
    refine hstep.get_of_ne fun hplace => hne ?_
    rw [hplace]

theorem SectionStep.get_of_ne (hne : heading ≠ k.place.1) (h : SectionStep c heading v c') :
    k.get c' = k.get c := by
  obtain ⟨-, fields, -, hsteps⟩ := h
  refine hsteps.keeps k.get fun f _ a b hstep => hstep.get_of_ne fun hplace => hne ?_
  rw [hplace]

/-! ### Documents -/

/-- What a document says about a setting. -/
def Setting.written? (k : Setting) (entries : List (Text × Toml)) : Option Toml :=
  (entries.lookup k.place.1).bind k.inSection?

/-- No section and no pattern is written as an array of its fields. -/
structure AsTables (entries : List (Text × Toml)) : Prop where
  sections : ∀ e ∈ entries, e.1 ∈ sections → ∀ row, e.2 ≠ .array row
  patterns : ∀ items, Setting.patterns.written? entries = some (.array items) →
    ∀ item ∈ items, ∀ row, item ≠ .array row

theorem ofEntries?_iff (h : AsTables entries) :
    ofEntries? entries = .ok c ↔ Steps SectionStep standard entries c :=
  setAll_eq_ok_iff fun e he _ _ => setSection_iff (h.sections e he)

/-- **A setting is what is read at its place**, and standard if nothing is written there. -/
theorem becomes_of_ofEntries? (h : AsTables entries) (hdistinct : (Toml.table entries).Distinct)
    (hc : ofEntries? entries = .ok c) (k : Setting) :
    Becomes k.ReadFrom (k.written? entries) (k.get standard) (k.get c) := by
  cases hdistinct with
  | table hkeys hentries =>
      have hsteps := (ofEntries?_iff h).mp hc
      have hbecomes : Becomes (fun v => Becomes k.ReadFrom (k.inSection? v))
          (entries.lookup k.place.1) (k.get standard) (k.get c) := by
        refine hsteps.becomes k.get hkeys ?_ ?_
        · intro v hv a b hstep
          exact hstep.becomes (hentries _ hv)
        · intro a heading v b hne hstep
          exact hstep.get_of_ne hne
      rw [Setting.written?]
      cases hlookup : entries.lookup k.place.1 with
      | none =>
          rw [hlookup] at hbecomes
          exact hbecomes
      | some v =>
          rw [hlookup] at hbecomes
          exact hbecomes

theorem Setting.read?_eq_ok_iff {x : k.Value} (hv : v.Distinct)
    (hrow : k = .patterns → ∀ items, v = .array items → ∀ item ∈ items, ∀ row, item ≠ .array row) :
    k.read? v = .ok x ↔ k.Shows v x := by
  cases k with
  | formats => exact list?_eq_ok_iff fun _ _ _ _ _ => text?_eq_ok_iff
  | fallback => exact boolean?_eq_ok_iff
  | patterns =>
      refine list?_eq_ok_iff fun items hitems item hitem p => ?_
      rw [hitems] at hv
      cases hv with
      | array hdistinct =>
          exact pattern?_eq_ok_iff (hdistinct item hitem) (hrow rfl items hitems item hitem)
  | aliases => exact aliases?_eq_ok_iff hv
  | pretty => exact boolean?_eq_ok_iff
  | informationUri =>
      refine Except.map_eq_ok.trans (exists_congr fun t => and_congr text?_eq_ok_iff ?_)
      exact eq_comm

/-- A document says nothing that is not about a setting, and of each setting something that shows
what it is set to. -/
structure Conforms (entries : List (Text × Toml)) : Prop where
  conforms : ∀ e ∈ entries, e.1 ∈ sections ∧ ∃ fields, e.2.entries? = some fields ∧
    ∀ f ∈ fields, ∃ k : Setting, k.place = (e.1, f.1) ∧ ∃ x, k.Shows f.2 x

/-- A configuration has what a document says and, where it says nothing, what is standard. -/
def Follows (entries : List (Text × Toml)) (c : Config) : Prop :=
  ∀ k : Setting, Becomes (fun v _ x => k.Shows v x) (k.written? entries) (k.get standard) (k.get c)

section

variable (h : AsTables entries) (hdistinct : (Toml.table entries).Distinct)

include hdistinct in
theorem written?_eq_some_iff : k.written? entries = some v ↔
    ∃ w fields, (k.place.1, w) ∈ entries ∧ w.entries? = some fields ∧ (k.place.2, v) ∈ fields := by
  cases hdistinct with
  | table hkeys hentries =>
      rw [Setting.written?, Option.bind_eq_some_iff]
      constructor
      · rintro ⟨w, hw, hv⟩
        obtain ⟨fields, hfields, hv⟩ := Option.bind_eq_some_iff.mp hv
        have hmem := (TextMap.lookup_eq_some_iff hkeys).mp hw
        have hnodup := ((hentries _ hmem).entries? hfields).1
        exact ⟨w, fields, hmem, hfields, (TextMap.lookup_eq_some_iff hnodup).mp hv⟩
      · rintro ⟨w, fields, hmem, hfields, hv⟩
        have hnodup := ((hentries _ hmem).entries? hfields).1
        exact ⟨w, (TextMap.lookup_eq_some_iff hkeys).mpr hmem, Option.bind_eq_some_iff.mpr
          ⟨fields, hfields, (TextMap.lookup_eq_some_iff hnodup).mpr hv⟩⟩

include h hdistinct in
theorem read?_written_iff (hv : k.written? entries = some v) (x : k.Value) :
    k.read? v = .ok x ↔ k.Shows v x := by
  obtain ⟨w, fields, hmem, hfields, hmem'⟩ := (written?_eq_some_iff hdistinct).mp hv
  cases hdistinct with
  | table hkeys hentries =>
      refine Setting.read?_eq_ok_iff (((hentries _ hmem).entries? hfields).2 _ hmem') ?_
      rintro rfl items rfl
      exact h.patterns items hv

include h hdistinct in
/-- **The documents that are configurations.** -/
theorem exists_ofEntries?_iff : (∃ c, ofEntries? entries = .ok c) ↔ Conforms entries := by
  have hfield {e f : Text × Toml} {fields : List (Text × Toml)} (he : e ∈ entries)
      (hfields : e.2.entries? = some fields) (hf : f ∈ fields) :
      (∃ k : Setting, k.place = (e.1, f.1) ∧ ∃ x, k.read? f.2 = .ok x) ↔
        ∃ k : Setting, k.place = (e.1, f.1) ∧ ∃ x, k.Shows f.2 x := by
    refine exists_congr fun k => and_congr_right fun hplace => exists_congr fun x => ?_
    refine read?_written_iff h hdistinct ((written?_eq_some_iff hdistinct).mpr ?_) x
    rw [hplace]
    exact ⟨e.2, fields, he, hfields, hf⟩
  simp only [ofEntries?_iff h, exists_steps_iff fun e _ c => exists_sectionStep_iff]
  constructor
  · intro hall
    refine ⟨fun e he => ?_⟩
    obtain ⟨hheading, fields, hfields, hread⟩ := hall e he
    exact ⟨hheading, fields, hfields, fun f hf => (hfield he hfields hf).mp (hread f hf)⟩
  · rintro ⟨hall⟩ e he
    obtain ⟨hheading, fields, hfields, hshows⟩ := hall e he
    exact ⟨hheading, fields, hfields, fun f hf => (hfield he hfields hf).mpr (hshows f hf)⟩

include h hdistinct in
/-- **A configuration is what its document says.** -/
theorem follows_of_ofEntries? (hc : ofEntries? entries = .ok c) : Follows entries c := by
  intro k
  have hbecomes := becomes_of_ofEntries? h hdistinct hc k
  cases hwritten : k.written? entries with
  | none =>
      rw [hwritten] at hbecomes
      exact hbecomes
  | some v =>
      rw [hwritten] at hbecomes
      exact (read?_written_iff h hdistinct hwritten _).mp hbecomes

include h hdistinct in
/-- **What is read of a document**: it has to conform, and then nothing but the configuration that
follows it is read. -/
theorem ofEntries?_eq_ok_iff : ofEntries? entries = .ok c ↔ Conforms entries ∧ Follows entries c := by
  constructor
  · intro hc
    exact ⟨(exists_ofEntries?_iff h hdistinct).mp ⟨c, hc⟩, follows_of_ofEntries? h hdistinct hc⟩
  · rintro ⟨hconforms, hfollows⟩
    obtain ⟨c', hc'⟩ := (exists_ofEntries?_iff h hdistinct).mpr hconforms
    obtain rfl : c = c' := by
      refine Setting.ext fun k => ?_
      have hbecomes := becomes_of_ofEntries? h hdistinct hc' k
      have hsays := hfollows k
      cases hwritten : k.written? entries with
      | none =>
          rw [hwritten] at hbecomes hsays
          exact hsays.trans hbecomes.symm
      | some v =>
          rw [hwritten] at hbecomes hsays
          exact Except.ok.inj (((read?_written_iff h hdistinct hwritten _).mpr hsays).symm.trans hbecomes)
    exact hc'

end

/-! ### Leaving out what is standard -/

/-- A document says nothing that another does not say, and of what the other says it leaves out only
settings that are standard in a configuration. -/
structure LeavesOut (c : Config) (full less : List (Text × Toml)) : Prop where
  kept : ∀ e ∈ less, ∃ w fields fields', (e.1, w) ∈ full ∧ w.entries? = some fields ∧
    e.2.entries? = some fields' ∧ fields' ⊆ fields
  standard : ∀ k : Setting, k.written? less = k.written? full ∨
    k.written? less = none ∧ k.get c = k.get standard

variable {full less : List (Text × Toml)}

theorem LeavesOut.asTables (hless : LeavesOut c full less) (h : AsTables full) : AsTables less where
  sections := by
    intro e he _ row hrow
    obtain ⟨-, -, fields', -, -, hfields', -⟩ := hless.kept e he
    rw [hrow] at hfields'
    cases hfields'
  patterns := by
    intro items hitems
    obtain hsame | ⟨hnone, -⟩ := hless.standard .patterns
    · rw [hsame] at hitems
      exact h.patterns items hitems
    · rw [hnone] at hitems
      cases hitems

theorem LeavesOut.conforms (hless : LeavesOut c full less) (h : Conforms full) : Conforms less := by
  refine ⟨fun e he => ?_⟩
  obtain ⟨w, fields, fields', hw, hfields, hfields', hsubset⟩ := hless.kept e he
  obtain ⟨hheading, fields₀, hfields₀, hshows⟩ := h.conforms _ hw
  rw [hfields] at hfields₀
  cases hfields₀
  exact ⟨hheading, fields', hfields', fun f hf => hshows f (hsubset hf)⟩

theorem LeavesOut.follows (hless : LeavesOut c full less) (h : Follows full c) : Follows less c := by
  intro k
  obtain hsame | ⟨hnone, hstandard⟩ := hless.standard k
  · rw [hsame]
    exact h k
  · rw [hnone]
    exact hstandard

/-- **What is standard anyway need not be said.** -/
theorem ofEntries?_of_leavesOut (h : AsTables full) (hdistinct : (Toml.table full).Distinct)
    (hdistinct' : (Toml.table less).Distinct) (hc : ofEntries? full = .ok c)
    (hless : LeavesOut c full less) : ofEntries? less = .ok c := by
  obtain ⟨hconforms, hfollows⟩ := (ofEntries?_eq_ok_iff h hdistinct).mp hc
  exact (ofEntries?_eq_ok_iff (hless.asTables h) hdistinct').mpr
    ⟨hless.conforms hconforms, hless.follows hfollows⟩

/-- An entry is deleted: a section of which all settings are standard, or a key of a section whose
setting is. -/
inductive Deletion (c : Config) : List (Text × Toml) → List (Text × Toml) → Prop
  | ofSection {front back : List (Text × Toml)} {heading : Text} {v : Toml}
      (hstandard : ∀ k : Setting, k.place.1 = heading → k.get c = k.get standard) :
      Deletion c (front ++ (heading, v) :: back) (front ++ back)
  | ofKey {front back before after : List (Text × Toml)} {k : Setting} {v : Toml}
      (hstandard : k.get c = k.get standard) :
      Deletion c (front ++ (k.place.1, .table (before ++ (k.place.2, v) :: after)) :: back)
        (front ++ (k.place.1, .table (before ++ after)) :: back)

/-- What is looked up in a table from which another key is deleted. -/
theorem lookup_delete {key' : Text} (hne : key' ≠ key) (front back : List (Text × Toml)) :
    (front ++ back).lookup key' = (front ++ (key, v) :: back).lookup key' := by
  rw [List.lookup_append, List.lookup_append, TextMap.lookup_cons, if_neg hne]

theorem lookup_deleted {front back : List (Text × Toml)}
    (hkeys : ((front ++ (key, v) :: back).map Prod.fst).Nodup) :
    (front ++ back).lookup key = none := by
  rw [List.map_append, List.map_cons, List.nodup_middle, ← List.map_append] at hkeys
  rw [List.lookup_eq_none_iff]
  intro e he
  rw [bne_iff_ne]
  intro heq
  exact (List.nodup_cons.mp hkeys).1 (List.mem_map.mpr ⟨e, he, heq.symm⟩)

theorem Deletion.leavesOut (h : Deletion c full less) (hdistinct : (Toml.table full).Distinct)
    (hconforms : Conforms full) : LeavesOut c full less := by
  cases hdistinct with
  | table hkeys hentries =>
    have hkept {e : Text × Toml} (he : e ∈ full) : ∃ w fields fields', (e.1, w) ∈ full ∧
        w.entries? = some fields ∧ e.2.entries? = some fields' ∧ fields' ⊆ fields := by
      obtain ⟨-, fields, hfields, -⟩ := hconforms.conforms e he
      exact ⟨e.2, fields, fields, he, hfields, hfields, List.Subset.refl _⟩
    cases h with
    | @ofSection front back heading v hstandard =>
        refine ⟨fun e he => hkept ?_, fun k => ?_⟩
        · exact ((List.sublist_cons_self _ _).append_left front).subset he
        · by_cases hplace : k.place.1 = heading
          · refine .inr ⟨?_, hstandard k hplace⟩
            rw [Setting.written?, hplace, lookup_deleted hkeys, Option.bind_none]
          · exact .inl (by rw [Setting.written?, lookup_delete hplace, Setting.written?])
    | @ofKey front back before after k v hstandard =>
        have hmem : (k.place.1, Toml.table (before ++ (k.place.2, v) :: after)) ∈
            front ++ (k.place.1, .table (before ++ (k.place.2, v) :: after)) :: back :=
          List.mem_append_right _ List.mem_cons_self
        have hkeys' :
            ((front ++ (k.place.1, Toml.table (before ++ after)) :: back).map Prod.fst).Nodup := by
          rw [List.map_append, List.map_cons] at hkeys ⊢
          exact hkeys
        have hfields : ((before ++ (k.place.2, v) :: after).map Prod.fst).Nodup :=
          ((hentries _ hmem).entries? rfl).1
        refine ⟨fun e he => ?_, fun k' => ?_⟩
        · obtain he | he := List.mem_append.mp he
          · exact hkept (List.mem_append_left _ he)
          · obtain rfl | he := List.mem_cons.mp he
            · exact ⟨_, _, _, hmem, rfl, rfl,
                ((List.sublist_cons_self _ _).append_left before).subset⟩
            · exact hkept (List.mem_append_right _ (List.mem_cons_of_mem _ he))
        · rw [Setting.written?, Setting.written?]
          by_cases hplace : k'.place.1 = k.place.1
          · have hfull := (TextMap.lookup_eq_some_iff hkeys).mpr hmem
            have hless := (TextMap.lookup_eq_some_iff hkeys').mpr
              (List.mem_append_right _ List.mem_cons_self)
            rw [hplace, hfull, hless]
            by_cases hkey : k'.place.2 = k.place.2
            · obtain rfl := Setting.place_injective (Prod.ext hplace hkey)
              exact .inr ⟨lookup_deleted hfields, hstandard⟩
            · exact .inl (lookup_delete hkey before after)
          · exact .inl (by rw [← lookup_delete hplace, ← lookup_delete hplace])

/-- A document that has nothing but empty sections. -/
def Keyless (entries : List (Text × Toml)) : Prop :=
  ∀ e ∈ entries, e.1 ∈ sections ∧ e.2.entries? = some []

theorem Keyless.written?_eq_none (h : Keyless entries) (k : Setting) :
    k.written? entries = none := by
  rw [Setting.written?, Option.bind_eq_none_iff]
  intro v hv
  obtain ⟨front, back, rfl, -⟩ := List.lookup_eq_some_iff.mp hv
  obtain ⟨-, hfields⟩ := h _ (List.mem_append_right _ List.mem_cons_self)
  rw [Setting.inSection?, hfields]
  rfl

theorem Keyless.ofEntries? (h : Keyless entries) (hdistinct : (Toml.table entries).Distinct) :
    ofEntries? entries = .ok standard := by
  have htables : AsTables entries := by
    constructor
    · intro e he _ row hrow
      obtain ⟨-, hfields⟩ := h e he
      rw [hrow] at hfields
      cases hfields
    · intro items hitems
      rw [h.written?_eq_none] at hitems
      cases hitems
  refine (ofEntries?_eq_ok_iff htables hdistinct).mpr ⟨⟨fun e he => ?_⟩, fun k => ?_⟩
  · obtain ⟨hheading, hfields⟩ := h e he
    exact ⟨hheading, [], hfields, List.forall_mem_nil _⟩
  · rw [h.written?_eq_none]
    rfl

/-! ### Texts -/

theorem ofText_eq_ok_iff {t : Text} :
    ofText t = .ok c ↔ ∃ entries, Toml.read? t = some entries ∧ ofEntries? entries = .ok c := by
  rw [ofText, Except.mapError_eq_ok, Config.read?]
  cases hread : Toml.read? t with
  | none => simp
  | some entries => simp [Except.mapError_eq_ok]

/-- A configuration that sets nothing converts as the standard one does. -/
theorem ofConfig_standard (engine : RegexEngine) :
    Converter.ofConfig standard engine = .ok Converter.standard := rfl

/-- **Reading configurations is strict, and what is not said is standard.** -/
theorem ofText_exact {t : Text}
    (h : ∀ entries, Toml.read? t = some entries → AsTables entries) :
    ((∃ c, ofText t = .ok c) ↔ ∃ entries, Toml.read? t = some entries ∧ Conforms entries) ∧
    (∀ c, ofText t = .ok c ↔
      ∃ entries, Toml.read? t = some entries ∧ Conforms entries ∧ Follows entries c) ∧
    (∀ c t' full less, ofText t = .ok c → Toml.read? t = some full → Toml.read? t' = some less →
      (Deletion c full less → LeavesOut c full less) ∧
        (LeavesOut c full less → ofText t' = .ok c)) ∧
    (∀ bare, Toml.Silent bare ∨ (∃ entries, Toml.read? bare = some entries ∧ Keyless entries) →
      ∃ c converter, ofText bare = .ok c ∧
        (∀ engine, Converter.ofConfig c engine = .ok converter) ∧ ∀ label mnemonic report,
          converter.convert label mnemonic report = Converter.standard.convert label mnemonic report) := by
  refine ⟨?_, ?_, ?_, ?_⟩
  · simp only [ofText_eq_ok_iff]
    constructor
    · rintro ⟨c, entries, hread, hc⟩
      have hdistinct := distinct_of_read? hread
      exact ⟨entries, hread, (exists_ofEntries?_iff (h entries hread) hdistinct).mp ⟨c, hc⟩⟩
    · rintro ⟨entries, hread, hconforms⟩
      have hdistinct := distinct_of_read? hread
      obtain ⟨c, hc⟩ := (exists_ofEntries?_iff (h entries hread) hdistinct).mpr hconforms
      exact ⟨c, entries, hread, hc⟩
  · intro c
    rw [ofText_eq_ok_iff]
    refine exists_congr fun entries => and_congr_right fun hread => ?_
    exact ofEntries?_eq_ok_iff (h entries hread) (distinct_of_read? hread)
  · intro c t' full less hc hfull hless
    obtain ⟨entries, hread, hc⟩ := ofText_eq_ok_iff.mp hc
    rw [hfull] at hread
    cases hread
    have hdistinct := distinct_of_read? hfull
    constructor
    · intro hdeletion
      exact hdeletion.leavesOut hdistinct
        ((exists_ofEntries?_iff (h full hfull) hdistinct).mp ⟨c, hc⟩)
    · intro hleaves
      exact ofText_eq_ok_iff.mpr ⟨less, hless,
        ofEntries?_of_leavesOut (h full hfull) hdistinct (distinct_of_read? hless) hc hleaves⟩
  · intro bare hbare
    obtain ⟨entries, hread, hkeyless⟩ :
        ∃ entries, Toml.read? bare = some entries ∧ Keyless entries := by
      obtain hsilent | hread := hbare
      · exact ⟨[], read?_silent hsilent, List.forall_mem_nil _⟩
      · exact hread
    exact ⟨standard, Converter.standard, ofText_eq_ok_iff.mpr
      ⟨entries, hread, hkeyless.ofEntries? (distinct_of_read? hread)⟩, ofConfig_standard,
      fun _ _ _ => rfl⟩

/-- A document without fallback, and one that also says what is standard. -/
def sampleDocument : List (Text × Toml) := [("parser".toList, .table [("fallback".toList, .boolean false)])]

theorem read?_sampleDocument :
    Toml.read? "[parser]\nfallback = false\n".toList = some sampleDocument := by
  cbv

theorem read?_sampleDocument_layout :
    Toml.read? "[parser]\nfallback = false\n[output]\npretty = true\n".toList =
      some (sampleDocument ++ [("output".toList, .table [("pretty".toList, .boolean true)])]) := by
  cbv

/-- The standard layout need not be written. -/
theorem ofText_exact_layout :
    let t := "[parser]\nfallback = false\n[output]\npretty = true\n".toList
    let t' := "[parser]\nfallback = false\n".toList
    let c := { standard with fallback := false }
    (∀ entries, Toml.read? t = some entries → AsTables entries) ∧
      ofText t = .ok c ∧ ofText t' = .ok c := by
  intro t t' c
  let full := sampleDocument ++ [("output".toList, .table [("pretty".toList, .boolean true)])]
  have hfull : Toml.read? t = some full := read?_sampleDocument_layout
  have htables : ∀ entries, Toml.read? t = some entries → AsTables entries := by
    intro entries hread
    rw [hfull] at hread
    cases hread
    refine ⟨?_, nofun⟩
    intro e he _
    obtain rfl | rfl : e = _ ∨ e = _ := by simpa [full, sampleDocument] using he
    · exact nofun
    · exact nofun
  have hconforms : Conforms full := by
    refine ⟨fun e he => ?_⟩
    obtain rfl | rfl : e = _ ∨ e = _ := by simpa [full, sampleDocument] using he
    · exact ⟨by decide, _, rfl, List.forall_mem_singleton.mpr ⟨.fallback, rfl, false, rfl⟩⟩
    · exact ⟨by decide, _, rfl, List.forall_mem_singleton.mpr ⟨.pretty, rfl, true, rfl⟩⟩
  have hfollows : Follows full c := by
    intro k
    cases k <;> rfl
  obtain ⟨-, hok, hleaves, -⟩ := ofText_exact htables
  have hc : ofText t = .ok c := (hok c).mpr ⟨full, hfull, hconforms, hfollows⟩
  obtain ⟨hdeletion, htext⟩ := hleaves c t' full sampleDocument hc hfull read?_sampleDocument
  have hdeleted : Deletion c full (sampleDocument ++ []) := by
    refine .ofSection fun k hplace => ?_
    cases k with
    | pretty | informationUri => rfl
    | formats | fallback | patterns | aliases => exact absurd hplace (by decide)
  exact ⟨htables, hc, htext (hdeletion hdeleted)⟩

end LintFindings.Config
