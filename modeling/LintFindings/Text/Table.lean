/-
Tables from texts to values.

A `TextMap` lists texts with their values in the order of the texts, each text
once.  The order is part of the type: `upsert` puts a text in its place
(`Ascending.upsertInto`), and every table is made by it.
-/
import LintFindings.Text.Blank

namespace LintFindings

theorem Text.before_iff_lt {s t : Text} : before s t = true ↔ s < t := by
  induction s generalizing t with
  | nil => cases t <;> simp [before]
  | cons a s ih =>
      cases t with
      | nil => simp [before]
      | cons b t =>
          have hab : a.toNat < b.toNat ↔ a < b := Iff.rfl
          simp [before, List.cons_lt_cons_iff, ih, hab]

namespace TextMap

variable {α : Type} {entries : List (Text × α)} {key k : Text} {f : Option α → α}

/-- The texts of some entries. -/
def keys (entries : List (Text × α)) : List Text := entries.map Prod.fst

/-- No text stands before an earlier one, or twice. -/
def Ascending (entries : List (Text × α)) : Prop := (keys entries).Pairwise (· < ·)

/-- Gives a text the value that `f` makes of the one it had. -/
def upsertInto (key : Text) (f : Option α → α) : List (Text × α) → List (Text × α)
  | [] => [(key, f none)]
  | (k, v) :: rest =>
    if key = k then (k, f (some v)) :: rest
    else if Text.before key k then (key, f none) :: (k, v) :: rest
    else (k, v) :: upsertInto key f rest

theorem mem_keys_upsertInto :
    k ∈ keys (upsertInto key f entries) ↔ k = key ∨ k ∈ keys entries := by
  induction entries with
  | nil => simp [upsertInto, keys]
  | cons p entries ih =>
      unfold upsertInto
      by_cases hkey : key = p.1
      · simp [keys, hkey]
      · rw [if_neg hkey]
        by_cases hbefore : Text.before key p.1 = true
        · simp [keys, hbefore]
        · rw [if_neg hbefore]
          simp only [keys, List.map_cons, List.mem_cons] at ih ⊢
          rw [ih, or_left_comm]

/-- Putting a text in its place keeps the order. -/
theorem Ascending.upsertInto (h : Ascending entries) : Ascending (upsertInto key f entries) := by
  induction entries with
  | nil => exact List.pairwise_singleton _ _
  | cons p entries ih =>
      obtain ⟨hfirst, hrest⟩ := List.pairwise_cons.mp h
      unfold TextMap.upsertInto
      by_cases hkey : key = p.1
      · rw [if_pos hkey]
        exact h
      · rw [if_neg hkey]
        by_cases hbefore : Text.before key p.1 = true
        · rw [if_pos hbefore]
          have hlt : key < p.1 := Text.before_iff_lt.mp hbefore
          refine List.pairwise_cons.mpr ⟨?_, h⟩
          intro k hk
          rcases List.mem_cons.mp hk with rfl | hk
          · exact hlt
          · exact List.lt_trans hlt (hfirst k hk)
        · rw [if_neg hbefore]
          refine List.pairwise_cons.mpr ⟨?_, ih hrest⟩
          intro k hk
          rcases mem_keys_upsertInto.mp hk with rfl | hk
          · rw [Text.before_iff_lt, List.not_lt, List.le_iff_lt_or_eq] at hbefore
            exact hbefore.resolve_right (Ne.symm hkey)
          · exact hfirst k hk

end TextMap

/-- Texts with values, in the order of the texts and with no text twice. -/
structure TextMap (α : Type) where
  entries : List (Text × α)
  ascending : TextMap.Ascending entries
  deriving DecidableEq, Repr

namespace TextMap

variable {α β : Type}

/-- No texts. -/
def empty : TextMap α := ⟨[], .nil⟩

/-- The value of a text. -/
def lookup (m : TextMap α) (key : Text) : Option α := m.entries.lookup key

/-- What `f` makes of the texts with their values, in the order of the texts. -/
def map (m : TextMap α) (f : Text × α → β) : List β := m.entries.map f

/-- Gives a text the value that `f` makes of the one it had. -/
def upsert (key : Text) (f : Option α → α) (m : TextMap α) : TextMap α :=
  ⟨upsertInto key f m.entries, m.ascending.upsertInto⟩

/-- Gives a text a value, in place of any it had. -/
def insert (key : Text) (value : α) (m : TextMap α) : TextMap α := upsert key (fun _ => value) m

/-- The pairs of a list, of several for one text the last. -/
def ofPairs (pairs : List (Text × α)) : TextMap α :=
  pairs.foldl (fun m (k, v) => insert k v m) empty

end TextMap

end LintFindings
