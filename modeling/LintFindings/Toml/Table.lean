/-
Tables that a document builds.

A document is a row of statements: headers that open tables, and entries for
the table that is open.  `Item.ofStatements?` carries them out.  A table may be
opened once; tables that stand for parts of longer names may still be opened,
and those that dotted keys make may only grow by dotted keys.
-/
import LintFindings.Toml.Value

namespace LintFindings.Toml

/-- A statement of a document.  Names and keys are given by their parts. -/
inductive Statement where
  | openTable (name : List Text)
  | openItem (name : List Text)
  | entry (key : List Text) (value : Toml)
  deriving Repr

/-- How a table came to be: by a header of its own, as part of a longer name, or by a dotted
key. -/
inductive Origin where
  | header
  | implied
  | dotted
  deriving DecidableEq, Repr

/-- What a key holds while a document is built: a value, a table, or an array of tables with the
last one first. -/
inductive Item where
  | value (v : Toml)
  | table (origin : Origin) (entries : List (Text × Item))
  | tables (items : List (List (Text × Item)))
  deriving Repr

/-- The entries of a table. -/
abbrev Entries := List (Text × Item)

/-- Gives a key an item, in its place if it has one, else at the end. -/
def putEntry (key : Text) (item : Item) : Entries → Entries
  | [] => [(key, item)]
  | (k, i) :: rest => if k = key then (k, item) :: rest else (k, i) :: putEntry key item rest

/-- Changes the table at the end of a path, which begins at a table of a given origin.  Each part
of the path says whether it belongs to a dotted key.  Missing tables are made; in an array of
tables, the path leads into the last one. -/
def change (f : Origin → Entries → Option Entries) :
    (path : List (Text × Bool)) → Origin → Entries → Option Entries
  | [], origin, entries => f origin entries
  | (key, isDotted) :: path, _, entries =>
    match entries.lookup key with
    | none => do
      let origin := if isDotted then .dotted else .implied
      let inner ← change f path origin []
      some (putEntry key (.table origin inner) entries)
    | some (.value _) => none
    | some (.table origin inner) =>
      if isDotted ∧ origin = .header then none
      else do
        let inner ← change f path origin inner
        some (putEntry key (.table origin inner) entries)
    | some (.tables []) => none
    | some (.tables (last :: items)) => do
      let last ← change f path .header last
      some (putEntry key (.tables (last :: items)) entries)

/-- The path of a header. -/
def headerPath (name : List Text) : List (Text × Bool) := name.map (·, false)

/-- Adds an entry to the table at the end of a path.  A dotted key has to lead to a table that
dotted keys made. -/
def addEntry (path : List (Text × Bool)) (isDotted : Bool) (key : Text) (value : Toml)
    (root : Entries) : Option Entries :=
  change (fun origin entries =>
      if (origin = .dotted) ≠ isDotted then none
      else if (entries.lookup key).isSome then none
      else some (entries ++ [(key, .value value)]))
    path .header root

/-- Adds an entry for a key by its parts. -/
def addKey (table : List Text) (key : List Text) (value : Toml) (root : Entries) :
    Option Entries :=
  match key.reverse with
  | [] => none
  | last :: front =>
    addEntry (headerPath table ++ front.reverse.map (·, true)) (front ≠ []) last value root

/-- Opens a table.  It moves to the end of the table that holds it. -/
def openTable (name : List Text) (root : Entries) : Option Entries :=
  match name.reverse with
  | [] => none
  | last :: front =>
    change (fun _ entries =>
        match entries.lookup last with
        | none => some (entries ++ [(last, .table .header [])])
        | some (.table .implied inner) =>
          some (entries.filter (fun e => e.1 ≠ last) ++ [(last, .table .header inner)])
        | some _ => none)
      (headerPath front.reverse) .header root

/-- Opens a further table of an array of tables. -/
def openItem (name : List Text) (root : Entries) : Option Entries :=
  match name.reverse with
  | [] => none
  | last :: front =>
    change (fun _ entries =>
        match entries.lookup last with
        | none => some (entries ++ [(last, .tables [[]])])
        | some (.tables items) => some (putEntry last (.tables ([] :: items)) entries)
        | some _ => none)
      (headerPath front.reverse) .header root

/-- Carries out statements, from the open table on. -/
def carryOut : (opened : List Text) → List Statement → Entries → Option Entries
  | _, [], root => some root
  | _, .openTable name :: rest, root => openTable name root >>= carryOut name rest
  | _, .openItem name :: rest, root => openItem name root >>= carryOut name rest
  | opened, .entry key value :: rest, root => addKey opened key value root >>= carryOut opened rest

mutual

/-- An item as a value. -/
def Item.toToml : Item → Toml
  | .value v => v
  | .table _ entries => .table (entriesToToml entries)
  | .tables items => .array (itemsToToml items [])

/-- Entries as values. -/
def entriesToToml : List (Text × Item) → List (Text × Toml)
  | [] => []
  | (key, item) :: rest => (key, item.toToml) :: entriesToToml rest

/-- The tables of an array, the last one first, in front of those that follow them. -/
def itemsToToml : List (List (Text × Item)) → List Toml → List Toml
  | [], done => done
  | entries :: rest, done => itemsToToml rest (.table (entriesToToml entries) :: done)

end

/-- The entries of a document. -/
def ofStatements? (statements : List Statement) : Option (List (Text × Toml)) :=
  (carryOut [] statements []).map entriesToToml

/-- The table that the entries of an inline table make. -/
def inlineTable? (entries : List (List Text × Toml)) : Option Toml :=
  (ofStatements? (entries.map fun (key, value) => .entry key value)).map .table

end LintFindings.Toml
