/-
What the statements of a document do to its tables.

A header opens a table, and the entries that follow it go there.  `Leads` says which
table is at the end of a path: whatever is done to it is done in its place, and all
around it stays.  As long as each table on the path is the last one in its own, entries
are added at the end (`carryOut_entries`).
-/
import LintFindings.Toml.Table

namespace LintFindings.Toml

variable {key : Text} {name opened : List Text} {fields : List (Text × Toml)} {i : Item}
  {entries inner front : Entries} {origin target : Origin} {put : Entries → Entries}

/-! ### Entries at the end -/

/-- No entry has the key. -/
def Lacks (entries : Entries) (key : Text) : Prop := ∀ e ∈ entries, e.1 ≠ key

theorem Lacks.nil (key : Text) : Lacks [] key := nofun

theorem Lacks.lookup (h : Lacks entries key) : entries.lookup key = none := by
  rw [List.lookup_eq_none_iff]
  intro e he
  exact bne_iff_ne.mpr (Ne.symm (h e he))

theorem Lacks.lookup_append (h : Lacks front key) : (front ++ [(key, i)]).lookup key = some i := by
  rw [List.lookup_append, h.lookup]
  simp

theorem Lacks.putEntry (h : Lacks entries key) (i : Item) :
    putEntry key i entries = entries ++ [(key, i)] := by
  induction entries with
  | nil => rfl
  | cons e entries ih =>
      obtain ⟨hfirst, hrest⟩ := List.forall_mem_cons.mp h
      rw [Toml.putEntry, if_neg hfirst, ih hrest]
      rfl

theorem Lacks.putEntry_append (h : Lacks front key) (j : Item) :
    Toml.putEntry key j (front ++ [(key, i)]) = front ++ [(key, j)] := by
  induction front with
  | nil => simp [Toml.putEntry]
  | cons e front ih =>
      obtain ⟨hfirst, hrest⟩ := List.forall_mem_cons.mp h
      rw [List.cons_append, Toml.putEntry, if_neg hfirst, ih hrest]
      rfl

/-! ### Paths -/

/-- A path leads from a table to one inside it, of a given origin: `put` puts the inner one into
its place. -/
def Leads (path : List (Text × Bool)) (origin target : Origin) (put : Entries → Entries) : Prop :=
  ∀ f inner, change f path origin (put inner) = (f target inner).map put

theorem Leads.nil (origin : Origin) : Leads [] origin origin id := by
  intro f inner
  rw [change]
  exact Option.map_id'.symm

theorem change_append (f : Origin → Entries → Option Entries) (p q : List (Text × Bool))
    (origin : Origin) (entries : Entries) :
    change f (p ++ q) origin entries = change (change f q) p origin entries := by
  induction p generalizing origin entries with
  | nil => rfl
  | cons step p ih =>
      obtain ⟨key, isDotted⟩ := step
      rw [List.cons_append, change, change]
      simp only [ih]

theorem Leads.trans {middle : Origin} {p q : List (Text × Bool)} {inside : Entries → Entries}
    (hp : Leads p origin middle put) (hq : Leads q middle target inside) :
    Leads (p ++ q) origin target (put ∘ inside) := by
  intro f inner
  rw [change_append, Function.comp_apply, hp, hq, Option.map_map]

/-- The last entry of a table, if it is a table itself. -/
theorem leads_table (front : Entries) (hfront : Lacks front key) (outer origin : Origin) :
    Leads (headerPath [key]) outer origin fun inner => front ++ [(key, .table origin inner)] := by
  intro f inner
  change change f [(key, false)] outer _ = _
  rw [change, hfront.lookup_append]
  dsimp only
  rw [if_neg (by simp), change]
  cases f origin inner with
  | none => rfl
  | some inner' => exact congrArg some (hfront.putEntry_append _)

/-- The last table of the last entry, if that is an array of tables. -/
theorem leads_tables (front : Entries) (hfront : Lacks front key) (outer : Origin)
    (items : List Entries) :
    Leads (headerPath [key]) outer .header fun inner =>
      front ++ [(key, .tables (inner :: items))] := by
  intro f inner
  change change f [(key, false)] outer _ = _
  rw [change, hfront.lookup_append]
  dsimp only
  rw [change]
  cases f .header inner with
  | none => rfl
  | some inner' => exact congrArg some (hfront.putEntry_append _)

/-! ### Statements -/

/-- An entry is added at the end of the table that is open. -/
theorem addKey_of_leads (h : Leads (headerPath opened) .header .header put) (hkey : Lacks inner key)
    (v : Toml) : addKey opened [key] v (put inner) = some (put (inner ++ [(key, .value v)])) := by
  change addEntry (headerPath opened ++ []) false key v (put inner) = _
  rw [List.append_nil, addEntry, h, hkey.lookup]
  rfl

/-- A table is opened at the end of the one that it belongs to. -/
theorem openTable_of_leads (h : Leads (headerPath name) .header target put)
    (hkey : Lacks inner key) :
    openTable (name ++ [key]) (put inner) = some (put (inner ++ [(key, .table .header [])])) := by
  rw [openTable, List.reverse_append, List.reverse_singleton, List.singleton_append]
  dsimp only
  rw [List.reverse_reverse, h, hkey.lookup]
  rfl

/-- The table that it belongs to is made, if there is none. -/
theorem openTable_of_lacks (h : Lacks entries key) (last : Text) :
    openTable [key, last] entries
      = some (entries ++ [(key, .table .implied [(last, .table .header [])])]) := by
  change change _ [(key, false)] .header entries = _
  rw [change, h.lookup]
  exact congrArg some (h.putEntry _)

/-- The first table of an array of tables. -/
theorem openItem_of_leads (h : Leads (headerPath name) .header target put)
    (hkey : Lacks inner key) :
    openItem (name ++ [key]) (put inner) = some (put (inner ++ [(key, .tables [[]])])) := by
  rw [openItem, List.reverse_append, List.reverse_singleton, List.singleton_append]
  dsimp only
  rw [List.reverse_reverse, h, hkey.lookup]
  rfl

/-- A further table of an array of tables. -/
theorem openItem_again (h : Leads (headerPath name) .header target put)
    (hkey : Lacks front key) (items : List Entries) :
    openItem (name ++ [key]) (put (front ++ [(key, .tables items)]))
      = some (put (front ++ [(key, .tables ([] :: items))])) := by
  rw [openItem, List.reverse_append, List.reverse_singleton, List.singleton_append]
  dsimp only
  rw [List.reverse_reverse, h, hkey.lookup_append]
  dsimp only
  rw [hkey.putEntry_append]
  rfl

/-- The entries of some fields. -/
def entryStatements (fields : List (Text × Toml)) : List Statement :=
  fields.map fun (key, v) => .entry [key] v

/-- What a table holds after them. -/
def entryItems (fields : List (Text × Toml)) : Entries := fields.map fun (key, v) => (key, .value v)

/-- **Entries with different keys are added at the end of the table that is open.** -/
theorem carryOut_entries (h : Leads (headerPath opened) .header .header put)
    (hkeys : (inner.map Prod.fst ++ fields.map Prod.fst).Nodup) (rest : List Statement) :
    carryOut opened (entryStatements fields ++ rest) (put inner)
      = carryOut opened rest (put (inner ++ entryItems fields)) := by
  induction fields generalizing inner with
  | nil => rw [entryItems, List.map_nil, List.append_nil]; rfl
  | cons field fields ih =>
      obtain ⟨key, v⟩ := field
      have hlacks : Lacks inner key := by
        intro e he hkey
        rw [List.nodup_append] at hkeys
        exact hkeys.2.2 e.1 (List.mem_map_of_mem he) key List.mem_cons_self hkey
      have hnext :
          ((inner ++ [(key, Item.value v)]).map Prod.fst ++ fields.map Prod.fst).Nodup := by
        simpa using hkeys
      change addKey opened [key] v (put inner)
        >>= carryOut opened (entryStatements fields ++ rest) = _
      rw [addKey_of_leads h hlacks]
      refine (ih hnext).trans ?_
      rw [List.append_assoc]
      rfl

/-- A table that has just been opened is filled. -/
theorem carryOut_fields (h : Leads (headerPath opened) .header .header put)
    (hfields : (fields.map Prod.fst).Nodup) (rest : List Statement) :
    carryOut opened (entryStatements fields ++ rest) (put [])
      = carryOut opened rest (put (entryItems fields)) := by
  have hkeys : (([] : Entries).map Prod.fst ++ fields.map Prod.fst).Nodup := hfields
  exact carryOut_entries h hkeys rest

/-- The tables of an array, one for each group of fields. -/
def itemStatements (name : List Text) (groups : List (List (Text × Toml))) : List Statement :=
  groups.flatMap fun fields => .openItem name :: entryStatements fields

theorem itemStatements_cons (name : List Text) (fields : List (Text × Toml))
    (groups : List (List (Text × Toml))) (rest : List Statement) :
    itemStatements name (fields :: groups) ++ rest
      = .openItem name :: (entryStatements fields ++ (itemStatements name groups ++ rest)) := by
  simp [itemStatements]

/-- The table of an array that was opened last is filled. -/
theorem carryOut_lastItem (h : Leads (headerPath name) .header .header put) (hkey : Lacks front key)
    (hfields : (fields.map Prod.fst).Nodup) (items : List Entries) (rest : List Statement) :
    carryOut (name ++ [key]) (entryStatements fields ++ rest)
        (put (front ++ [(key, .tables ([] :: items))]))
      = carryOut (name ++ [key]) rest
        (put (front ++ [(key, .tables (entryItems fields :: items))])) := by
  have hleads := h.trans (leads_tables front hkey .header items)
  have hpath : headerPath name ++ headerPath [key] = headerPath (name ++ [key]) :=
    (List.map_append ..).symm
  rw [hpath] at hleads
  exact carryOut_fields hleads hfields rest

/-- Further tables come in front of those that an array has. -/
theorem carryOut_items (h : Leads (headerPath name) .header .header put) (hkey : Lacks front key)
    {groups : List (List (Text × Toml))} (hgroups : ∀ fields ∈ groups, (fields.map Prod.fst).Nodup)
    (items : List Entries) (rest : List Statement) :
    carryOut (name ++ [key]) (itemStatements (name ++ [key]) groups ++ rest)
        (put (front ++ [(key, .tables items)]))
      = carryOut (name ++ [key]) rest
        (put (front ++ [(key, .tables ((groups.map entryItems).reverse ++ items))])) := by
  induction groups generalizing items with
  | nil => rfl
  | cons fields groups ih =>
      obtain ⟨hfields, hgroups⟩ := List.forall_mem_cons.mp hgroups
      rw [itemStatements_cons, carryOut, openItem_again h hkey]
      refine (carryOut_lastItem h hkey hfields items _).trans ?_
      rw [ih hgroups]
      simp

/-- **An array of tables is added at the end of the table that it belongs to.** -/
theorem carryOut_array (h : Leads (headerPath name) .header .header put) (hkey : Lacks inner key)
    {groups : List (List (Text × Toml))} (hgroups : ∀ fields ∈ groups, (fields.map Prod.fst).Nodup)
    (hne : groups ≠ []) (rest : List Statement) :
    carryOut opened (itemStatements (name ++ [key]) groups ++ rest) (put inner)
      = carryOut (name ++ [key]) rest
        (put (inner ++ [(key, .tables (groups.map entryItems).reverse)])) := by
  obtain ⟨fields, groups, rfl⟩ := List.exists_cons_of_ne_nil hne
  obtain ⟨hfields, hgroups⟩ := List.forall_mem_cons.mp hgroups
  rw [itemStatements_cons, carryOut, openItem_of_leads h hkey]
  refine (carryOut_lastItem h hkey hfields [] _).trans ?_
  rw [carryOut_items h hkey hgroups]
  simp

/-! ### Values -/

theorem entriesToToml_append (front back : Entries) :
    entriesToToml (front ++ back) = entriesToToml front ++ entriesToToml back := by
  induction front with
  | nil => simp [entriesToToml]
  | cons e front ih =>
      obtain ⟨key, i⟩ := e
      rw [List.cons_append, entriesToToml, entriesToToml, ih, List.cons_append]

theorem entriesToToml_entryItems (fields : List (Text × Toml)) :
    entriesToToml (entryItems fields) = fields := by
  induction fields with
  | nil => rfl
  | cons field fields ih =>
      obtain ⟨key, v⟩ := field
      exact congrArg ((key, v) :: ·) ih

/-- The tables of an array in the order in which they were opened. -/
theorem itemsToToml_eq (items : List Entries) (done : List Toml) :
    itemsToToml items done
      = (items.map fun entries => .table (entriesToToml entries)).reverse ++ done := by
  induction items generalizing done with
  | nil => simp [itemsToToml]
  | cons entries items ih =>
      rw [itemsToToml, ih]
      simp

end LintFindings.Toml
