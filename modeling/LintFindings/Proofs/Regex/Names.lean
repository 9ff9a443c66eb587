/-
Group names stand once.

The reader of expressions keeps the names of the groups so far, and refuses one that it has.
Most of its parts leave these names as they are; that is said as a triple for each of them, so
that the parts that read groups need only count: what an item names is among the names that came
in since it was begun (`counted_read`).  In an expression that is read, no two groups have
one name (`Regex.nodup_groupNames`).
-/
import Mathlib
import LintFindings.Regex.Reader

open Std.Do

set_option mvcgen.warning false

namespace LintFindings.RegexReader

variable {α : Type} {ns : List Text} {name : Text}

/-- The groups that have names so far. -/
abbrev Named (ns : List Text) : Assertion (.arg State (.except PUnit .pure)) :=
  fun s => ⌜s.names = ns⌝

/-! ### What names no group -/

/-- A failure answers nothing, so nothing has to hold of its answer. -/
@[spec]
theorem spec_failure {Q : PostCond α (.arg State (.except PUnit .pure))} :
    ⦃fun _ => Q.2.1 ⟨⟩⦄ (failure : Reader α) ⦃Q⦄ := by
  intro s h
  exact h

@[spec]
theorem named_peek : ⦃Named ns⦄ peek ⦃⇓? _ => Named ns⦄ := by
  mvcgen [peek]

@[spec]
theorem named_skip : ⦃Named ns⦄ skip ⦃⇓? _ => Named ns⦄ := by
  mvcgen [skip]

@[spec]
theorem named_next : ⦃Named ns⦄ next ⦃⇓? _ => Named ns⦄ := by
  mvcgen [next]

@[spec]
theorem named_skipIf (t : Text) : ⦃Named ns⦄ skipIf t ⦃⇓? _ => Named ns⦄ := by
  mvcgen [skipIf]

@[spec]
theorem named_skipBlanks : ⦃Named ns⦄ skipBlanks ⦃⇓? _ => Named ns⦄ := by
  mvcgen [skipBlanks]
  grind

@[spec]
theorem named_skipOn : ⦃Named ns⦄ skipOn ⦃⇓? _ => Named ns⦄ := by
  mvcgen [skipOn]
  simp_all

@[spec]
theorem named_peekSome : ⦃Named ns⦄ peekSome ⦃⇓? _ => Named ns⦄ := by
  mvcgen [peekSome]
  simp_all

@[spec]
theorem named_remaining : ⦃Named ns⦄ remaining ⦃⇓? _ => Named ns⦄ := by
  mvcgen [remaining]

@[spec]
theorem named_takeWhile (p : Char → Bool) (fuel : Nat) :
    ⦃Named ns⦄ takeWhile p fuel ⦃⇓? _ => Named ns⦄ := by
  induction fuel generalizing ns with
  | zero => mvcgen [takeWhile]
  | succ fuel ih => mvcgen [takeWhile, ih] <;> simp_all

@[spec]
theorem named_takeChars (n : Nat) : ⦃Named ns⦄ takeChars n ⦃⇓? _ => Named ns⦄ := by
  induction n generalizing ns with
  | zero => mvcgen [takeChars]
  | succ n ih =>
      mvcgen [takeChars, ih]
      simp_all

@[spec]
theorem named_hexChar (ds : Text) : ⦃Named ns⦄ hexChar ds ⦃⇓? _ => Named ns⦄ := by
  mvcgen [hexChar, charOf]

@[spec]
theorem named_hexEscape (letter : Char) :
    ⦃Named ns⦄ hexEscape letter ⦃⇓? _ => Named ns⦄ := by
  mvcgen [hexEscape] <;> simp_all

@[spec]
theorem named_setEscape (negated : Bool) (s : CharSet) :
    ⦃Named ns⦄ setEscape negated s ⦃⇓? _ => Named ns⦄ := by
  mvcgen [setEscape]

@[spec]
theorem named_propertyEscape (negated : Bool) :
    ⦃Named ns⦄ propertyEscape negated ⦃⇓? _ => Named ns⦄ := by
  mvcgen [propertyEscape] <;> simp_all

@[spec]
theorem named_boundary : ⦃Named ns⦄ boundary ⦃⇓? _ => Named ns⦄ := by
  mvcgen [boundary] <;> simp_all

@[spec]
theorem named_escape : ⦃Named ns⦄ escape ⦃⇓? _ => Named ns⦄ := by
  mvcgen [escape] <;> simp_all

@[spec]
theorem named_classElement : ⦃Named ns⦄ classElement ⦃⇓? _ => Named ns⦄ := by
  mvcgen [classElement] <;> simp_all

@[spec]
theorem named_classRange : ⦃Named ns⦄ classRange ⦃⇓? _ => Named ns⦄ := by
  mvcgen [classRange] <;> simp_all

@[spec]
theorem named_asciiClass? : ⦃Named ns⦄ asciiClass? ⦃⇓? _ => Named ns⦄ := by
  mvcgen [asciiClass?]

@[spec]
theorem named_leadingHyphens (fuel : Nat) :
    ⦃Named ns⦄ leadingHyphens fuel ⦃⇓? _ => Named ns⦄ := by
  induction fuel generalizing ns with
  | zero => mvcgen [leadingHyphens]
  | succ fuel ih => mvcgen [leadingHyphens, ih] <;> simp_all

/-- A class and its elements refer to each other. -/
theorem named_class (fuel : Nat) :
    (∀ ns, ⦃Named ns⦄ bracketed fuel ⦃⇓? _ => Named ns⦄) ∧
      ∀ flags s ns, ⦃Named ns⦄ elements fuel flags s ⦃⇓? _ => Named ns⦄ := by
  induction fuel with
  | zero =>
      refine ⟨fun ns => ?_, fun flags s ns => ?_⟩
      · mvcgen [bracketed]
      · mvcgen [elements]
  | succ fuel ih =>
      obtain ⟨hbracketed, helements⟩ := ih
      refine ⟨fun ns => ?_, fun flags s ns => ?_⟩
      · mvcgen [bracketed, helements] <;> simp_all
      · mvcgen [elements, hbracketed, helements] <;> simp_all

@[spec]
theorem named_bracketed (fuel : Nat) : ⦃Named ns⦄ bracketed fuel ⦃⇓? _ => Named ns⦄ :=
  (named_class fuel).1 ns

@[spec]
theorem named_decimal : ⦃Named ns⦄ decimal ⦃⇓? _ => Named ns⦄ := by
  mvcgen [decimal] <;> grind

@[spec]
theorem named_bounds : ⦃Named ns⦄ bounds ⦃⇓? _ => Named ns⦄ := by
  mvcgen [bounds] <;> simp_all

@[spec]
theorem named_greed : ⦃Named ns⦄ greed ⦃⇓? _ => Named ns⦄ := by
  mvcgen [greed] <;> simp_all

@[spec]
theorem named_flagItems (fuel : Nat) (seen : List Char) (flags : Flags) :
    ⦃Named ns⦄ flagItems fuel seen flags ⦃⇓? _ => Named ns⦄ := by
  induction fuel generalizing seen flags ns with
  | zero => mvcgen [flagItems]
  | succ fuel ih => mvcgen [flagItems, ih] <;> simp_all

/-! ### Groups -/

/-- How often a group of the name stands in an item. -/
def Item.naming (name : Text) (item : Item) : Nat := item.regex.groupNames.count name

/-- How often a group of the name stands in items. -/
def naming (name : Text) (items : List Item) : Nat := (items.map (Item.naming name)).sum

@[simp, grind =]
theorem naming_nil : naming name [] = 0 := rfl

@[simp, grind =]
theorem naming_cons (item : Item) (items : List Item) :
    naming name (item :: items) = item.naming name + naming name items := rfl

theorem naming_foldl {f : Regex → Item → Regex}
    (hf : ∀ r item, (f r item).groupNames.count name = item.naming name + r.groupNames.count name)
    (items : List Item) (r : Regex) :
    (items.foldl f r).groupNames.count name = naming name items + r.groupNames.count name := by
  induction items generalizing r with
  | nil => simp
  | cons item items ih =>
      rw [List.foldl_cons, ih, hf, naming_cons]
      omega

@[simp, grind =]
theorem naming_sequence (items : List Item) :
    (Item.sequence items).naming name = naming name items := by
  match items with
  | [] => rfl
  | [item] => rfl
  | item :: item' :: items =>
      refine naming_foldl (fun r i => ?_) (item :: item' :: items) .empty
      exact List.count_append

@[simp, grind =]
theorem naming_alternatives (items : List Item) :
    (Item.alternatives items).naming name = naming name items := by
  match items with
  | [] => rfl
  | [item] => rfl
  | item :: item' :: items =>
      refine (naming_foldl (fun r i => ?_) (item' :: items) item.regex).trans ?_
      · exact List.count_append
      · exact Nat.add_comm _ _

@[grind =]
theorem groupNames_literal (flags : Flags) (c : Char) : (literal flags c).groupNames = [] := rfl

theorem count_repeated (min : Nat) (max : Option Nat) (greedy : Bool) (r : Regex) :
    (Regex.repeated min max greedy r).groupNames.count name ≤ r.groupNames.count name := by
  unfold Regex.repeated
  grind [Regex.groupNames]

@[spec]
theorem naming_repeatLast (items : List Item) (min : Nat) (max : Option Nat) :
    ⦃Named ns⦄ repeatLast items min max
    ⦃⇓? items' s => ⌜s.names = ns ∧ naming name items' ≤ naming name items⌝⦄ := by
  mvcgen [repeatLast]
  simp_all [Item.naming, count_repeated]

@[spec]
theorem groupName_new :
    ⦃Named ns⦄ groupName ⦃⇓? name s => ⌜s.names = name :: ns ∧ name ∉ ns⌝⦄ := by
  mvcgen [groupName]
  grind

/-- What an item that was read may name: of the items that were held before and of the names that
came in since. -/
def Counted (name : Text) (ns : List Text) (held : Nat) (item : Item) (s : State) : Prop :=
  item.naming name + ns.count name ≤ held + s.names.count name ∧
    s.names.count name ≤ max 1 (ns.count name)

/-- **What an item names is among the names that came in while it was read, and none of them came
in twice.** -/
theorem counted_read (fuel : Nat) :
    (∀ done items ns, ⦃Named ns⦄ alternation fuel done items
      ⦃⇓? item s => ⌜Counted name ns (naming name done + naming name items) item s⌝⦄) ∧
    (∀ ns, ⦃Named ns⦄ group fuel ⦃⇓? item s => ⌜Counted name ns 0 item s⌝⦄) ∧
    (∀ group inner outer ns, ⦃Named ns⦄ groupBody fuel group inner outer
      ⦃⇓? item s => ⌜Counted name ns (group.toList.count name) item s⌝⦄) := by
  induction fuel with
  | zero =>
      refine ⟨fun done items ns => ?_, fun ns => ?_, fun group inner outer ns => ?_⟩
      · mvcgen [alternation]
      · mvcgen [group]
      · mvcgen [groupBody]
  | succ fuel ih =>
      obtain ⟨halternation, hgroup, hbody⟩ := ih
      -- Once they are used as triples, the hypotheses for less fuel only slow the counting down.
      refine ⟨fun done items ns => ?_, fun ns => ?_, fun group inner outer ns => ?_⟩
      · mvcgen [alternation, halternation, hgroup]
        all_goals clear halternation hgroup hbody
        all_goals grind [Counted, Item.naming, Regex.groupNames]
      · mvcgen [group, hbody]
        all_goals clear halternation hgroup hbody
        all_goals grind [Counted, Item.naming, Regex.groupNames]
      · mvcgen [groupBody, halternation]
        all_goals clear halternation hgroup hbody
        all_goals grind [Counted, Item.naming, Regex.groupNames]

/-- What a triple says about an answer. -/
theorem of_triple {r : Reader α} (Q : α → State → Prop) {a : α} {s s' : State}
    (h : ⦃Named ns⦄ r ⦃⇓? a s => ⌜Q a s⌝⦄) (hs : s.names = ns) (hr : r s = some (a, s')) :
    Q a s' := by
  let Holds : Option (α × State) → Prop := fun o => match o with
    | some (a, s) => Q a s
    | none => True
  exact Option.of_wp_eq hr Holds fun _ => h s hs

end LintFindings.RegexReader

namespace LintFindings.Regex

/-- **No two groups of an expression have one name.** -/
theorem nodup_groupNames {t : Text} {r : Regex} (h : read? t = some r) : r.groupNames.Nodup := by
  obtain ⟨⟨item, s⟩, hread, h⟩ := Option.bind_eq_some_iff.mp h
  dsimp only at h
  split at h
  · cases h
    rw [List.nodup_iff_count_le_one]
    intro name
    have hcounted : RegexReader.Counted name [] 0 item s :=
      RegexReader.of_triple _ ((RegexReader.counted_read _).1 [] [] []) rfl hread
    have hcount : item.regex.groupNames.count name ≤ s.names.count name := by
      simpa [RegexReader.Item.naming] using hcounted.1
    exact hcount.trans (by simpa using hcounted.2)
  · cases h

end LintFindings.Regex
