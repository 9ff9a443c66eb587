/-
Records read field by field.

`record?` finds again the fields that a record was made of, as long as their names
are known ones and in the known order: then no name stands twice and none is left
out.  What a reader asks of the fields goes through `field?`, so the other lemmas
say what a field that is required, optional or of a kind reads as, whatever stands
beside it.

A record that others have written may have its members in any order and more of
them than are known.  `Has`, `HasOptional` and `HasDefaulted` say what its members
show, and the reader of a field finds it if no known name stands twice.
-/
import LintFindings.Proofs.Json.RoundTrip

namespace LintFindings.Json

/-! ### Fields -/

theorem mapM_members (fields : List (Text × Json)) :
    (fields.map fun field => (some field.1, field.2)).mapM
      (fun (member : Option Text × Json) => member.1.map (·, member.2)) = some fields := by
  induction fields with
  | nil => rfl
  | cons p fields ih => simp [ih]

/-- **A record whose names are in the known order reads back as its fields.** -/
theorem record?_record {names : List Text} {fields : List (Text × Json)} {least : Nat}
    (hnames : names.Nodup) (hfields : (fields.map Prod.fst).Sublist names) :
    record? names least (.record fields) = some fields := by
  have hall : fields.filter (fun field => names.contains field.1) = fields := by
    rw [List.filter_eq_self]
    intro p hp
    simpa using hfields.subset (List.mem_map_of_mem hp)
  simp only [record, record?, mapM_members, Option.bind_eq_bind, Option.bind_some, hall]
  rw [if_pos (hnames.sublist hfields)]

@[simp] theorem field?_append (fields more : List (Text × Json)) (name : String) :
    field? (fields ++ more) name = (field? fields name).or (field? more name) :=
  List.lookup_append

/-- A field that is written only where it has a value reads back as the value or its absence. -/
theorem optional?_of_field? {α : Type} {fields : List (Text × Json)} {name : String}
    {toJson : α → Json} {value? : Json → Option α} {o : Option α}
    (hfield : field? fields name = o.map toJson) (hnull : ∀ a, toJson a ≠ .null)
    (hread : ∀ a, value? (toJson a) = some a) : optional? fields name value? = some o := by
  unfold optional?
  rw [hfield]
  cases o with
  | none => rfl
  | some a =>
      simp only [Option.map_some]
      split
      · rename_i h; exact absurd h (by simp)
      · rename_i h; exact absurd (Option.some.inj h) (hnull a)
      · rename_i h; rw [← Option.some.inj h, hread]; rfl

/-! ### Members in any order

A record is read by the names of its members, so what counts is which members there
are, not where they stand.  `Once` says that no known name stands twice; the other
names may be any, and may stand as often as they like.
-/

/-- No known name stands twice. -/
def Once (names : List String) (fields : List (Text × Json)) : Prop :=
  ∀ name ∈ names, (fields.map Prod.fst).count name.toList ≤ 1

instance (names : List String) (fields : List (Text × Json)) : Decidable (Once names fields) :=
  inferInstanceAs (Decidable (∀ name ∈ names, (fields.map Prod.fst).count name.toList ≤ 1))

/-- The members with a known name. -/
def known (names : List String) (fields : List (Text × Json)) : List (Text × Json) :=
  fields.filter fun field => (names.map String.toList).contains field.1

/-- No member has the name. -/
def Lacks (fields : List (Text × Json)) (name : String) : Prop :=
  name.toList ∉ fields.map Prod.fst

instance (fields : List (Text × Json)) (name : String) : Decidable (Lacks fields name) :=
  inferInstanceAs (Decidable (name.toList ∉ fields.map Prod.fst))

section

variable {α : Type} {names : List String} {fields : List (Text × Json)} {name : String}
  {v : Json}

theorem known_sublist (names : List String) (fields : List (Text × Json)) :
    (known names fields).Sublist fields :=
  List.filter_sublist

theorem nodup_known (h : Once names fields) : ((known names fields).map Prod.fst).Nodup := by
  rw [List.nodup_iff_count]
  intro t
  have hmap : (known names fields).map Prod.fst =
      (fields.map Prod.fst).filter (names.map String.toList).contains := by
    rw [List.filter_map]
    rfl
  rw [hmap]
  by_cases ht : (names.map String.toList).contains t = true
  · obtain ⟨name, hname, rfl⟩ := List.mem_map.mp (List.contains_iff_mem.mp ht)
    exact Nat.le_trans (List.Sublist.count_le _ List.filter_sublist) (h name hname)
  · rw [List.count_eq_zero.mpr fun hmem => ht (List.of_mem_filter hmem)]
    exact Nat.zero_le 1

/-- **A record reads as its known members**, wherever they stand. -/
theorem record?_of_once (h : Once names fields) (least : Nat) :
    record? (names.map String.toList) least (.record fields) = some (known names fields) := by
  simp only [record, record?, mapM_members, Option.bind_eq_bind, Option.bind_some]
  exact if_pos (nodup_known h)

theorem eq_known_of_record? {least : Nat} {fs : List (Text × Json)}
    (h : record? (names.map String.toList) least (.record fields) = some fs) :
    fs = known names fields := by
  simp only [record, record?, mapM_members, Option.bind_eq_bind, Option.bind_some] at h
  split at h
  · exact (Option.some.inj h).symm
  · cases h

theorem field?_known_of_mem (hcount : (fields.map Prod.fst).count name.toList ≤ 1)
    (hname : name ∈ names) (hv : (name.toList, v) ∈ fields) :
    field? (known names fields) name = some v := by
  have hmem : (name.toList, v) ∈ known names fields :=
    List.mem_filter.mpr ⟨hv, List.contains_iff_mem.mpr (List.mem_map_of_mem hname)⟩
  obtain ⟨front, back, hsplit⟩ := List.append_of_mem hmem
  have hle := List.Sublist.count_le name.toList ((known_sublist names fields).map Prod.fst)
  rw [hsplit, List.map_append, List.map_cons, List.count_append, List.count_cons_self] at hle
  rw [field?, List.lookup_eq_some_iff]
  refine ⟨front, back, hsplit, ?_⟩
  intro p hp
  rw [bne_iff_ne]
  intro heq
  have hpos : 0 < (front.map Prod.fst).count name.toList :=
    List.count_pos_iff.mpr (List.mem_map.mpr ⟨p, hp, heq.symm⟩)
  omega

theorem field?_known_of_lacks (hlacks : Lacks fields name) :
    field? (known names fields) name = none := by
  rw [field?, List.lookup_eq_none_iff]
  intro p hp
  rw [bne_iff_ne]
  intro heq
  exact hlacks (List.mem_map.mpr ⟨p, List.mem_of_mem_filter hp, heq.symm⟩)

end

/-! What a member shows is a relation between its value and the data, so that the same words
do for members of every kind. -/

section

variable {α : Type} {R : Json → α → Prop} {names : List String} {fields : List (Text × Json)}
  {name : String} {value? : Json → Option α} {a default : α}

/-- Some member has the name and shows the data. -/
def Has (R : Json → α → Prop) (fields : List (Text × Json)) (name : String) (a : α) : Prop :=
  ∃ v, (name.toList, v) ∈ fields ∧ R v a

/-- A member that is missing or null where there are no data. -/
def HasOptional (R : Json → α → Prop) (fields : List (Text × Json)) (name : String) :
    Option α → Prop
  | some a => Has R fields name a
  | none => Lacks fields name ∨ (name.toList, .null) ∈ fields

/-- A member that may be missing where the data are the default. -/
def HasDefaulted (R : Json → α → Prop) (fields : List (Text × Json)) (name : String)
    (default a : α) : Prop :=
  Has R fields name a ∨ a = default ∧ Lacks fields name

theorem required?_of_has (h : Once names fields) (hname : name ∈ names)
    (hread : ∀ v, R v a → value? v = some a) (ha : Has R fields name a) :
    required? (known names fields) name value? = some a := by
  obtain ⟨v, hv, hshows⟩ := ha
  rw [required?, field?_known_of_mem (h name hname) hname hv, Option.bind_some, hread v hshows]

theorem optional?_of_has (h : Once names fields) (hname : name ∈ names)
    (hread : ∀ v a, R v a → value? v = some a) (hnull : value? .null = none) {o : Option α}
    (ho : HasOptional R fields name o) :
    optional? (known names fields) name value? = some o := by
  cases o with
  | none =>
      obtain hlacks | hv := ho
      · rw [optional?, field?_known_of_lacks hlacks]
      · rw [optional?, field?_known_of_mem (h name hname) hname hv]
  | some a =>
      obtain ⟨v, hv, hshows⟩ := ho
      have hvalue := hread v a hshows
      rw [optional?, field?_known_of_mem (h name hname) hname hv]
      split
      · rename_i hnone
        cases hnone
      · rename_i heq
        rw [Option.some.inj heq, hnull] at hvalue
        cases hvalue
      · rename_i w hw heq
        rw [← Option.some.inj heq, hvalue, Option.map_some]

theorem defaulted?_of_has (h : Once names fields) (hname : name ∈ names)
    (hread : ∀ v, R v a → value? v = some a) (ha : HasDefaulted R fields name default a) :
    defaulted? (known names fields) name default value? = some a := by
  obtain ⟨v, hv, hshows⟩ | ⟨rfl, hlacks⟩ := ha
  · rw [defaulted?, field?_known_of_mem (h name hname) hname hv]
    exact hread v hshows
  · rw [defaulted?, field?_known_of_lacks hlacks]

/-- An array shows a list item by item. -/
def ShowsList (R : Json → α → Prop) (v : Json) (as : List α) : Prop :=
  ∃ vs, v = .array vs ∧ List.Forall₂ R vs as

theorem list?_of_shows {v : Json} {as : List α} (hread : ∀ v a, R v a → value? v = some a)
    (h : ShowsList R v as) : list? value? v = some as := by
  obtain ⟨vs, rfl, hvs⟩ := h
  show vs.mapM value? = some as
  induction hvs with
  | nil => rfl
  | cons hv _ ih => simp [hread _ _ hv, ih]

end

/-! ### Values of a field -/

@[simp] theorem text?_text (t : Text) : text? (.text t) = some t := rfl

theorem text_ne_null (t : Text) : Json.text t ≠ .null := by simp [Json.text]

theorem nat?_nat {n limit : Nat} (h : n ≤ limit) : (nat n).nat? limit = some n := by
  simp [nat?, nat, Number.ofNat, Number.toNat?, Option.filter, h]

theorem uint32?_nat (n : UInt32) : uint32? (.nat n.toNat) = some n := by
  rw [uint32?, nat?_nat (Nat.le_sub_one_of_lt n.toNat_lt)]
  simp

theorem uint64?_nat (n : UInt64) : uint64? (.nat n.toNat) = some n := by
  rw [uint64?, nat?_nat (Nat.le_sub_one_of_lt n.toNat_lt)]
  simp

theorem list?_map {α : Type} {toJson : α → Json} {item? : Json → Option α}
    (h : ∀ a, item? (toJson a) = some a) (as : List α) :
    list? item? (.array (as.map toJson)) = some as := by
  show (as.map toJson).mapM item? = some as
  induction as with
  | nil => rfl
  | cons a as ih => simp [h, ih]

/-! ### What can be spelled out -/

@[simp] theorem spellable_text (t : Text) : Spellable (.text t) := rfl

@[simp] theorem spellable_nat (n : Nat) : Spellable (.nat n) := by
  intro ds hds
  exact absurd hds (by simp [Number.ofNat])

theorem spellable_array {α : Type} {toJson : α → Json} (h : ∀ a, Spellable (toJson a))
    (as : List α) : Spellable (.array (as.map toJson)) := by
  show SpellableItems (as.map toJson)
  induction as with
  | nil => trivial
  | cons a as ih => exact ⟨h a, ih⟩

/-- Fields that can all be spelled out. -/
def SpellableFields (fields : List (Text × Json)) : Prop := ∀ p ∈ fields, Spellable p.2

@[simp] theorem spellableFields_append {fields more : List (Text × Json)} :
    SpellableFields (fields ++ more) ↔ SpellableFields fields ∧ SpellableFields more := by
  simp [SpellableFields, or_imp, forall_and]

theorem spellable_record {fields : List (Text × Json)} (h : SpellableFields fields) :
    Spellable (.record fields) := by
  show SpellableMembers (fields.map fun field => (some field.1, field.2))
  induction fields with
  | nil => trivial
  | cons p fields ih =>
      exact ⟨rfl, h p List.mem_cons_self, ih fun q hq => h q (List.mem_cons_of_mem p hq)⟩

end LintFindings.Json
