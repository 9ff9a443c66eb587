/-
In a document no key stands twice.

A value is `Distinct` if no table in it has two entries with one key, and so is an item of which
values are made.  Every statement keeps the tables of a document so: what a path leads to is put
back in its place (`distinct_change`), and a new entry is added only for a key that has none.
Inline tables are built by the same statements, so what the readers answer is distinct at every
depth (`readsDistinct`), and so is the whole document (`distinct_of_read?`).
-/
import LintFindings.Proofs.Toml.Table
import LintFindings.Toml.Reader
import Mathlib.Data.List.Nodup

namespace LintFindings.Toml

variable {key : Text} {v : Toml} {i : Item} {entries entries' : Entries} {origin : Origin}
  {t rest : Text}

/-! ### Values and items -/

/-- No table in a value has two entries with one key. -/
inductive Distinct : Toml → Prop
  | string {t : Text} : Distinct (.string t)
  | integer {n : Int} : Distinct (.integer n)
  | float {shown : Text} : Distinct (.float shown)
  | boolean {b : Bool} : Distinct (.boolean b)
  | datetime {shown : Text} : Distinct (.datetime shown)
  | array {items : List Toml} (hitems : ∀ v ∈ items, Distinct v) : Distinct (.array items)
  | table {entries : List (Text × Toml)} (hkeys : (entries.map Prod.fst).Nodup)
      (hentries : ∀ e ∈ entries, Distinct e.2) : Distinct (.table entries)

/-- The same of an item. -/
inductive Item.Distinct : Item → Prop
  | value {v : Toml} (hv : v.Distinct) : Distinct (.value v)
  | table {origin : Origin} {entries : Entries} (hkeys : (entries.map Prod.fst).Nodup)
      (hentries : ∀ e ∈ entries, Distinct e.2) : Distinct (.table origin entries)
  | tables {items : List Entries} (hkeys : ∀ entries ∈ items, (entries.map Prod.fst).Nodup)
      (hentries : ∀ entries ∈ items, ∀ e ∈ entries, Distinct e.2) : Distinct (.tables items)

/-- The same of the entries of a table. -/
structure DistinctEntries (entries : Entries) : Prop where
  keys : (entries.map Prod.fst).Nodup
  items : ∀ e ∈ entries, e.2.Distinct

theorem DistinctEntries.nil : DistinctEntries [] := ⟨List.nodup_nil, List.forall_mem_nil _⟩

theorem DistinctEntries.of_lookup (h : DistinctEntries entries) (hi : entries.lookup key = some i) :
    i.Distinct := by
  obtain ⟨front, back, rfl, -⟩ := List.lookup_eq_some_iff.mp hi
  exact h.items _ (List.mem_append_right _ List.mem_cons_self)

/-- An entry is added for a key that has none. -/
theorem DistinctEntries.concat (h : DistinctEntries entries) (hkey : Lacks entries key)
    (hi : i.Distinct) : DistinctEntries (entries ++ [(key, i)]) := by
  constructor
  · rw [List.map_append, List.map_singleton, ← List.concat_eq_append]
    refine h.keys.concat ?_
    intro hmem
    obtain ⟨e, he, hfst⟩ := List.mem_map.mp hmem
    exact hkey e he hfst
  · exact List.forall_mem_append.mpr ⟨h.items, List.forall_mem_singleton.mpr hi⟩

theorem lacks_of_lookup (h : entries.lookup key = none) : Lacks entries key := by
  intro e he heq
  exact bne_iff_ne.mp (List.lookup_eq_none_iff.mp h e he) heq.symm

theorem mem_keys_putEntry {k : Text} (h : k ∈ (putEntry key i entries).map Prod.fst) :
    k = key ∨ k ∈ entries.map Prod.fst := by
  induction entries with
  | nil => exact .inl (List.mem_singleton.mp h)
  | cons e entries ih =>
      rw [putEntry] at h
      split at h
      · exact .inr h
      · obtain rfl | hrest := List.mem_cons.mp h
        · exact .inr List.mem_cons_self
        · exact (ih hrest).imp_right (List.mem_cons_of_mem _)

/-- An entry is put in the place of one that its key has. -/
theorem DistinctEntries.putEntry (h : DistinctEntries entries) (hi : i.Distinct) :
    DistinctEntries (putEntry key i entries) := by
  induction entries with
  | nil => exact ⟨List.nodup_singleton _, List.forall_mem_singleton.mpr hi⟩
  | cons e entries ih =>
      obtain ⟨hfirst, hkeys⟩ := List.nodup_cons.mp h.keys
      obtain ⟨he, hitems⟩ := List.forall_mem_cons.mp h.items
      have hrest := ih ⟨hkeys, hitems⟩
      rw [Toml.putEntry]
      split
      · exact ⟨h.keys, List.forall_mem_cons.mpr ⟨hi, hitems⟩⟩
      · next hne =>
        refine ⟨List.nodup_cons.mpr ⟨?_, hrest.keys⟩, List.forall_mem_cons.mpr ⟨he, hrest.items⟩⟩
        intro hmem
        exact (mem_keys_putEntry hmem).elim hne hfirst

/-! ### Statements -/

/-- What keeps tables distinct at the end of a path keeps the table distinct in which it begins. -/
theorem distinct_change {f : Origin → Entries → Option Entries}
    (hf : ∀ origin entries entries', DistinctEntries entries → f origin entries = some entries' →
      DistinctEntries entries')
    {path : List (Text × Bool)} (h : DistinctEntries entries)
    (hchange : change f path origin entries = some entries') : DistinctEntries entries' := by
  induction path generalizing origin entries entries' with
  | nil => exact hf origin entries entries' h hchange
  | cons step path ih =>
      obtain ⟨key, isDotted⟩ := step
      rw [change] at hchange
      split at hchange
      · obtain ⟨inner, hinner, hput⟩ := Option.bind_eq_some_iff.mp hchange
        cases hput
        have hdistinct := ih .nil hinner
        exact h.putEntry (.table hdistinct.keys hdistinct.items)
      · cases hchange
      · next hlookup =>
        split at hchange
        · cases hchange
        · obtain ⟨inner', hinner, hput⟩ := Option.bind_eq_some_iff.mp hchange
          cases hput
          cases h.of_lookup hlookup with
          | table hkeys hentries =>
              have hdistinct := ih ⟨hkeys, hentries⟩ hinner
              exact h.putEntry (.table hdistinct.keys hdistinct.items)
      · cases hchange
      · next hlookup =>
        obtain ⟨last', hlast, hput⟩ := Option.bind_eq_some_iff.mp hchange
        cases hput
        cases h.of_lookup hlookup with
        | tables hkeys hentries =>
            obtain ⟨hfirst, hkeys⟩ := List.forall_mem_cons.mp hkeys
            obtain ⟨hfirst', hentries⟩ := List.forall_mem_cons.mp hentries
            have hdistinct := ih ⟨hfirst, hfirst'⟩ hlast
            exact h.putEntry (.tables (List.forall_mem_cons.mpr ⟨hdistinct.keys, hkeys⟩)
              (List.forall_mem_cons.mpr ⟨hdistinct.items, hentries⟩))

theorem distinct_addKey {table parts : List Text} (hv : v.Distinct) (h : DistinctEntries entries)
    (hadd : addKey table parts v entries = some entries') : DistinctEntries entries' := by
  rw [addKey] at hadd
  split at hadd
  · cases hadd
  · refine distinct_change ?_ h hadd
    intro origin inner inner' hinner hf
    split at hf
    · cases hf
    · split at hf
      · cases hf
      · next hlookup =>
        cases hf
        rw [Option.not_isSome_iff_eq_none] at hlookup
        exact hinner.concat (lacks_of_lookup hlookup) (.value hv)

theorem distinct_openTable {name : List Text} (h : DistinctEntries entries)
    (hopen : openTable name entries = some entries') : DistinctEntries entries' := by
  rw [openTable] at hopen
  split at hopen
  · cases hopen
  · next last front _ =>
    refine distinct_change ?_ h hopen
    intro origin inner inner' hinner hf
    split at hf
    · next hlookup =>
      cases hf
      exact hinner.concat (lacks_of_lookup hlookup) (.table List.nodup_nil (List.forall_mem_nil _))
    · next hlookup =>
      cases hf
      cases hinner.of_lookup hlookup with
      | table hkeys hentries =>
          have hfilter : DistinctEntries (inner.filter fun e => e.1 ≠ last) :=
            ⟨hinner.keys.sublist (List.filter_sublist.map _),
              fun e he => hinner.items e (List.mem_of_mem_filter he)⟩
          refine hfilter.concat ?_ (.table hkeys hentries)
          intro e he
          simpa using List.of_mem_filter he
    · cases hf

theorem distinct_openItem {name : List Text} (h : DistinctEntries entries)
    (hopen : openItem name entries = some entries') : DistinctEntries entries' := by
  rw [openItem] at hopen
  split at hopen
  · cases hopen
  · refine distinct_change ?_ h hopen
    intro origin inner inner' hinner hf
    split at hf
    · next hlookup =>
      cases hf
      exact hinner.concat (lacks_of_lookup hlookup)
        (.tables (List.forall_mem_singleton.mpr List.nodup_nil)
          (List.forall_mem_singleton.mpr (List.forall_mem_nil _)))
    · next hlookup =>
      cases hf
      cases hinner.of_lookup hlookup with
      | tables hkeys hentries =>
          exact hinner.putEntry (.tables (List.forall_mem_cons.mpr ⟨List.nodup_nil, hkeys⟩)
            (List.forall_mem_cons.mpr ⟨List.forall_mem_nil _, hentries⟩))
    · cases hf

/-- The value of a statement, if it has one, is distinct. -/
def Statement.Distinct : Statement → Prop
  | .entry _ v => v.Distinct
  | _ => True

/-- **Statements keep the tables of a document distinct.** -/
theorem distinct_carryOut {opened : List Text} {ss : List Statement}
    (hss : ∀ s ∈ ss, s.Distinct) (h : DistinctEntries entries)
    (hcarry : carryOut opened ss entries = some entries') : DistinctEntries entries' := by
  induction ss generalizing opened entries with
  | nil =>
      cases hcarry
      exact h
  | cons s ss ih =>
      obtain ⟨hs, hrest⟩ := List.forall_mem_cons.mp hss
      cases s with
      | openTable name =>
          obtain ⟨next, hopen, hnext⟩ := Option.bind_eq_some_iff.mp hcarry
          exact ih hrest (distinct_openTable h hopen) hnext
      | openItem name =>
          obtain ⟨next, hopen, hnext⟩ := Option.bind_eq_some_iff.mp hcarry
          exact ih hrest (distinct_openItem h hopen) hnext
      | entry key v =>
          obtain ⟨next, hadd, hnext⟩ := Option.bind_eq_some_iff.mp hcarry
          exact ih hrest (distinct_addKey hs h hadd) hnext

/-! ### Items as values -/

theorem entriesToToml_eq_map (entries : Entries) :
    entriesToToml entries = entries.map fun e => (e.1, e.2.toToml) := by
  induction entries with
  | nil => rw [entriesToToml, List.map_nil]
  | cons e entries ih =>
      obtain ⟨key, i⟩ := e
      rw [entriesToToml, ih, List.map_cons]

theorem keys_entriesToToml (entries : Entries) :
    (entriesToToml entries).map Prod.fst = entries.map Prod.fst := by
  rw [entriesToToml_eq_map, List.map_map]
  rfl

theorem distinct_entriesToToml (h : ∀ e ∈ entries, e.2.toToml.Distinct) :
    ∀ e ∈ entriesToToml entries, e.2.Distinct := by
  rw [entriesToToml_eq_map]
  exact List.forall_mem_map.mpr h

theorem Item.Distinct.toToml (h : i.Distinct) : i.toToml.Distinct := by
  induction h with
  | value hv => exact hv
  | table hkeys _ ih =>
      rw [Item.toToml]
      exact .table (by rwa [keys_entriesToToml]) (distinct_entriesToToml ih)
  | tables hkeys _ ih =>
      rw [Item.toToml, itemsToToml_eq, List.append_nil]
      refine .array fun v hv => ?_
      obtain ⟨entries, hmem, rfl⟩ := List.mem_map.mp (List.mem_reverse.mp hv)
      exact .table (by rw [keys_entriesToToml]; exact hkeys entries hmem)
        (distinct_entriesToToml (ih entries hmem))

theorem distinct_ofStatements? {ss : List Statement} {fields : List (Text × Toml)}
    (hss : ∀ s ∈ ss, s.Distinct) (h : ofStatements? ss = some fields) :
    (Toml.table fields).Distinct := by
  obtain ⟨entries, hcarry, rfl⟩ := Option.map_eq_some_iff.mp h
  have hentries := distinct_carryOut hss .nil hcarry
  have htable : (Item.table .header entries).Distinct := .table hentries.keys hentries.items
  have hvalue := htable.toToml
  rwa [Item.toToml] at hvalue

theorem distinct_inlineTable? {fields : List (List Text × Toml)}
    (hfields : ∀ field ∈ fields, field.2.Distinct) (h : inlineTable? fields = some v) :
    v.Distinct := by
  obtain ⟨entries, hentries, rfl⟩ := Option.map_eq_some_iff.mp h
  exact distinct_ofStatements? (List.forall_mem_map.mpr hfields) hentries

/-! ### Readers -/

theorem distinct_of_word? {n : Int} (h : word? n = some v) : v.Distinct := by
  rw [word?] at h
  split at h
  · cases h
    exact .integer
  · cases h

theorem distinct_of_readBase {base : Nat} {isDigit : Char → Bool}
    (h : readBase base isDigit t = some (v, rest)) : v.Distinct := by
  unfold readBase at h
  simp only [Option.bind_eq_bind, Option.bind_eq_some_iff, Option.map_eq_some_iff] at h
  obtain ⟨_, -, _, hword, heq⟩ := h
  cases heq
  exact distinct_of_word? hword

theorem distinct_of_readInteger (h : readInteger t = some (v, rest)) : v.Distinct := by
  unfold readInteger at h
  split at h
  · exact distinct_of_readBase h
  · exact distinct_of_readBase h
  · exact distinct_of_readBase h
  · simp only [Option.bind_eq_bind, Option.bind_eq_some_iff, Option.map_eq_some_iff] at h
    obtain ⟨_, -, _, hword, heq⟩ := h
    cases heq
    exact distinct_of_word? hword

theorem distinct_of_readFloat (h : readFloat t = some (v, rest)) : v.Distinct := by
  unfold readFloat at h
  split at h
  · split at h
    · cases h
      exact .float
    · split at h
      · cases h
        exact .float
      · cases h
  · dsimp only at h
    split at h
    · cases h
      exact .float
    · cases h
      exact .float
    · cases h

theorem distinct_of_readDatetime (h : readDatetime t = some (v, rest)) : v.Distinct := by
  unfold readDatetime at h
  split at h
  · obtain ⟨_, -, heq⟩ := Option.map_eq_some_iff.mp h
    cases heq
    exact .datetime
  · obtain ⟨_, -, heq⟩ := Option.map_eq_some_iff.mp h
    cases heq
    exact .datetime

theorem distinct_of_readNumber (h : readNumber t = some (v, rest)) : v.Distinct := by
  obtain h | ⟨-, h⟩ := Option.or_eq_some_iff.mp h
  · exact distinct_of_readDatetime h
  · obtain h | ⟨-, h⟩ := Option.or_eq_some_iff.mp h
    · exact distinct_of_readFloat h
    · exact distinct_of_readInteger h

/-- What the readers of values answer with some fuel is distinct. -/
structure ReadsDistinct (fuel : Nat) : Prop where
  value : ∀ {level : Nat} {t rest : Text} {v : Toml}, readValue fuel level t = some (v, rest) →
    v.Distinct
  items : ∀ {level : Nat} {t rest : Text} {vs : List Toml},
    readItems fuel level t = some (vs, rest) → ∀ v ∈ vs, v.Distinct
  entries : ∀ {level : Nat} {first : Bool} {t rest : Text} {fields : List (List Text × Toml)},
    readEntries fuel level first t = some (fields, rest) → ∀ field ∈ fields, field.2.Distinct

theorem distinct_of_readValue {fuel level : Nat} (ih : ReadsDistinct fuel)
    (h : readValue (fuel + 1) level t = some (v, rest)) : v.Distinct := by
  unfold readValue at h
  split at h
  · obtain ⟨_, -, heq⟩ := Option.map_eq_some_iff.mp h
    cases heq
    exact .string
  · obtain ⟨_, -, heq⟩ := Option.map_eq_some_iff.mp h
    cases heq
    exact .string
  · cases h
    exact .boolean
  · cases h
    exact .boolean
  · split at h
    · obtain ⟨_, hitems, heq⟩ := Option.map_eq_some_iff.mp h
      cases heq
      exact .array (ih.items hitems)
    · cases h
  · split at h
    · obtain ⟨_, hentries, h⟩ := Option.bind_eq_some_iff.mp h
      obtain ⟨_, htable, heq⟩ := Option.map_eq_some_iff.mp h
      cases heq
      exact distinct_inlineTable? (ih.entries hentries) htable
    · cases h
  · exact distinct_of_readNumber h

theorem distinct_of_readItems {fuel level : Nat} {vs : List Toml} (ih : ReadsDistinct fuel)
    (h : readItems (fuel + 1) level t = some (vs, rest)) : ∀ v ∈ vs, v.Distinct := by
  rw [readItems] at h
  obtain ⟨_, -, h⟩ := Option.bind_eq_some_iff.mp h
  split at h
  · cases h
    exact List.forall_mem_nil _
  · obtain ⟨_, hvalue, h⟩ := Option.bind_eq_some_iff.mp h
    have hfirst := ih.value hvalue
    obtain ⟨_, -, h⟩ := Option.bind_eq_some_iff.mp h
    split at h
    · obtain ⟨_, hitems, heq⟩ := Option.map_eq_some_iff.mp h
      cases heq
      exact List.forall_mem_cons.mpr ⟨hfirst, ih.items hitems⟩
    · cases h
      exact List.forall_mem_singleton.mpr hfirst
    · cases h

theorem distinct_of_readEntries {fuel level : Nat} {first : Bool}
    {fields : List (List Text × Toml)} (ih : ReadsDistinct fuel)
    (h : readEntries (fuel + 1) level first t = some (fields, rest)) :
    ∀ field ∈ fields, field.2.Distinct := by
  rw [readEntries] at h
  split at h
  · split at h
    · cases h
      exact List.forall_mem_nil _
    · cases h
  · obtain ⟨_, -, h⟩ := Option.bind_eq_some_iff.mp h
    obtain ⟨_, -, h⟩ := Option.bind_eq_some_iff.mp h
    obtain ⟨⟨v, u⟩, hvalue, h⟩ := Option.bind_eq_some_iff.mp h
    have hfirst := ih.value hvalue
    dsimp only at h
    split at h
    · obtain ⟨_, hentries, heq⟩ := Option.map_eq_some_iff.mp h
      cases heq
      intro field hfield
      obtain rfl | hfield := List.mem_cons.mp hfield
      · exact hfirst
      · exact ih.entries hentries field hfield
    · cases h
      intro field hfield
      obtain rfl := List.mem_singleton.mp hfield
      exact hfirst
    · cases h

theorem readsDistinct : ∀ fuel, ReadsDistinct fuel := by
  intro fuel
  induction fuel with
  | zero => exact ⟨nofun, nofun, nofun⟩
  | succ fuel ih =>
      exact ⟨distinct_of_readValue ih, distinct_of_readItems ih, distinct_of_readEntries ih⟩

theorem distinct_of_readStatement {s : Statement} (h : readStatement t = some (s, rest)) :
    s.Distinct := by
  unfold readStatement at h
  split at h
  · obtain ⟨_, -, h⟩ := Option.bind_eq_some_iff.mp h
    obtain ⟨_, -, h⟩ := Option.bind_eq_some_iff.mp h
    obtain ⟨_, -, heq⟩ := Option.map_eq_some_iff.mp h
    cases heq
    trivial
  · obtain ⟨_, -, h⟩ := Option.bind_eq_some_iff.mp h
    obtain ⟨_, -, h⟩ := Option.bind_eq_some_iff.mp h
    obtain ⟨_, -, heq⟩ := Option.map_eq_some_iff.mp h
    cases heq
    trivial
  · obtain ⟨_, -, h⟩ := Option.bind_eq_some_iff.mp h
    obtain ⟨_, -, h⟩ := Option.bind_eq_some_iff.mp h
    obtain ⟨_, hvalue, h⟩ := Option.bind_eq_some_iff.mp h
    obtain ⟨_, -, heq⟩ := Option.map_eq_some_iff.mp h
    cases heq
    exact (readsDistinct _).value hvalue

theorem distinct_of_readStatements {fuel : Nat} {ss : List Statement}
    (h : readStatements fuel t = some ss) : ∀ s ∈ ss, s.Distinct := by
  induction fuel generalizing t ss with
  | zero => cases h
  | succ fuel ih =>
      rw [readStatements] at h
      split at h
      · cases h
        exact List.forall_mem_nil _
      · obtain ⟨_, -, h⟩ := Option.bind_eq_some_iff.mp h
        exact ih h
      · exact ih h
      · exact ih h
      · obtain ⟨_, hstatement, h⟩ := Option.bind_eq_some_iff.mp h
        obtain ⟨_, hrest, rfl⟩ := Option.map_eq_some_iff.mp h
        exact List.forall_mem_cons.mpr ⟨distinct_of_readStatement hstatement, ih hrest⟩

/-- **In a document no key stands twice in a table**, at any depth. -/
theorem distinct_of_read? {fields : List (Text × Toml)} (h : read? t = some fields) :
    (Toml.table fields).Distinct := by
  obtain ⟨_, hstatements, h⟩ := Option.bind_eq_some_iff.mp h
  exact distinct_ofStatements? (distinct_of_readStatements hstatements) h

end LintFindings.Toml
