/-
The rules of a document are those of its findings.

`Document.ofRun` makes three passes: over the findings, to collect the rules with
their pages, over the rules, to number them, and over the findings again, to state
the results with the numbers.  The first pass is a fold, and `Catalogued` says what
it knows when it has seen some of the findings: exactly their rules, in order, each
with the first page that one of them names for it.  `catalogued_enter` is one step and
`catalogued_catalogue` the whole pass.

The rules ascend, so the table of their places is the list of the numbered rules as
it stands (`entries_places`), and a rule's number is where it is found.
-/
import LintFindings.Sarif.Document
import LintFindings.Proofs.TextMap
import Mathlib.Data.List.Forall2

namespace LintFindings.Sarif

open TextMap

/-! ### Collecting the rules -/

/-- The page of the first finding that is attributed to a rule and names one. -/
def firstPage (toolName : Text) (fs : List Finding) (id : Text) : Option Text :=
  fs.findSome? fun f => if effectiveRule toolName f = id then f.helpUri else none

/-- What is known of the rules after some findings. -/
structure Catalogued (toolName : Text) (seen : List Finding) (m : TextMap (Option Text)) :
    Prop where
  known : ∀ id, id ∈ keys m.entries ↔ ∃ f ∈ seen, effectiveRule toolName f = id
  page : ∀ id, (m.lookup id).join = firstPage toolName seen id

variable {toolName : Text} {seen : List Finding} {m : TextMap (Option Text)}

theorem catalogued_nil (toolName : Text) : Catalogued toolName [] .empty :=
  ⟨by simp [empty, keys], by simp [empty, lookup, firstPage]⟩

/-- Entering one more finding. -/
theorem catalogued_enter (h : Catalogued toolName seen m) (f : Finding) :
    Catalogued toolName (seen ++ [f]) (enter toolName m f) := by
  constructor
  · intro id
    rw [enter, mem_keys_upsert, h.known]
    simp [or_and_right, exists_or, or_comm, eq_comm]
  · intro id
    have hpage : firstPage toolName (seen ++ [f]) id = (firstPage toolName seen id).or
        (if effectiveRule toolName f = id then f.helpUri else none) := by
      simp [firstPage, List.findSome?_append]
    rw [enter, lookup_upsert, hpage, ← h.page]
    by_cases hid : id = effectiveRule toolName f
    · rw [if_pos hid, if_pos hid.symm, hid]
      rfl
    · rw [if_neg hid, if_neg (Ne.symm hid), Option.or_none]

theorem catalogued_foldl (fs : List Finding) (h : Catalogued toolName seen m) :
    Catalogued toolName (seen ++ fs) (fs.foldl (enter toolName) m) := by
  induction fs generalizing seen m with
  | nil => simpa using h
  | cons f fs ih => simpa using ih (catalogued_enter h f)

/-- **The catalogue knows the rules of all findings, with their first pages.** -/
theorem catalogued_catalogue (run : Run) :
    Catalogued run.toolName run.findings (catalogue run) := by
  simpa [catalogue] using catalogued_foldl run.findings (catalogued_nil run.toolName)

theorem firstPage_eq_none_iff {fs : List Finding} {id : Text} :
    firstPage toolName fs id = none ↔
      ∀ f ∈ fs, effectiveRule toolName f = id → f.helpUri = none := by
  simp [firstPage]

/-! ### Numbering them -/

/-- Numbering the rules leaves them in their order. -/
theorem ascending_zipIdx (m : TextMap (Option Text)) : Ascending (keys m.entries).zipIdx := by
  rw [Ascending, keys, List.zipIdx_map_fst]
  exact m.ascending

theorem entries_places (m : TextMap (Option Text)) :
    (places m).entries = (keys m.entries).zipIdx := entries_ofPairs (ascending_zipIdx m)

/-- Every rule has a place, and it is found there. -/
theorem exists_place {id : Text} (hid : id ∈ keys m.entries) :
    ∃ i, (places m).lookup id = some i ∧ (keys m.entries)[i]? = some id := by
  obtain ⟨i, hi⟩ := List.mem_iff_getElem?.mp hid
  refine ⟨i, ?_, hi⟩
  rw [lookup_iff, entries_places, List.mk_mem_zipIdx_iff_getElem?]
  exact hi

/-! ### The document -/

theorem ids_rulesOf (m : TextMap (Option Text)) : (rulesOf m).map Rule.id = keys m.entries := by
  simp [rulesOf, TextMap.map, keys]

/-- A result is attributed to the rule of a finding, and its index is where that rule stands: as
a machine word, and as a number if the rules can be counted in one. -/
structure Result.Attributed (toolName : Text) (rules : List Rule) (f : Finding) (r : Result) :
    Prop where
  ruleId : r.ruleId = effectiveRule toolName f
  place : ∃ i rule, rules[i]? = some rule ∧ rule.id = r.ruleId ∧ r.ruleIndex = UInt64.ofNat i ∧
    (rules.length ≤ UInt64.size → r.ruleIndex.toNat = i)

/-- The result of a finding that was seen points at the rule of the finding. -/
theorem attributed_resultOf (h : Catalogued toolName seen m) {f : Finding} (hf : f ∈ seen) :
    (resultOf toolName (places m) f).Attributed toolName (rulesOf m) f := by
  obtain ⟨i, hplace, hi⟩ := exists_place ((h.known _).mpr ⟨f, hf, rfl⟩)
  rw [← ids_rulesOf, List.getElem?_map, Option.map_eq_some_iff] at hi
  obtain ⟨rule, hrule, hid⟩ := hi
  have hindex : (resultOf toolName (places m) f).ruleIndex = UInt64.ofNat i := by
    simp [resultOf, hplace]
  refine ⟨rfl, i, rule, hrule, hid, hindex, ?_⟩
  intro hlength
  have hlt : i < (rulesOf m).length := (List.getElem?_eq_some_iff.mp hrule).1
  rw [hindex, UInt64.toNat_ofNat_of_lt' (Nat.lt_of_lt_of_le hlt hlength)]

/-- A rule of the catalogue has the page that is known for it. -/
theorem helpUri_of_mem_rulesOf (h : Catalogued toolName seen m) {rule : Rule}
    (hrule : rule ∈ rulesOf m) : rule.helpUri = firstPage toolName seen rule.id := by
  obtain ⟨⟨id, page⟩, hmem, rfl⟩ := List.mem_map.mp hrule
  rw [← h.page, (lookup_iff m).mpr hmem]
  rfl

/-- **The rules of a document are exact.**  They ascend by their bytes, they are the rules that
the findings are attributed to, and each has the first page that such a finding names, if one
does.  There is one result for each finding, in their order, and its index is the place where
the rule of the finding stands. -/
theorem Document.rules_exact (run : Run) (informationUri : Option Text) :
    ∃ r, (Document.ofRun run informationUri).runs = [r] ∧
      r.driver.rules.Pairwise (fun a b => Utf8.encode a.id < Utf8.encode b.id) ∧
      (∀ id, (∃ rule ∈ r.driver.rules, rule.id = id) ↔
        ∃ f ∈ run.findings, effectiveRule run.toolName f = id) ∧
      List.Forall₂ (Result.Attributed run.toolName r.driver.rules) run.findings r.results ∧
      (∀ rule ∈ r.driver.rules,
        rule.helpUri = firstPage run.toolName run.findings rule.id ∧
        (rule.helpUri = none ↔ ∀ f ∈ run.findings,
          effectiveRule run.toolName f = rule.id → f.helpUri = none)) := by
  have hcat := catalogued_catalogue run
  refine ⟨_, rfl, ?_, ?_, ?_, ?_⟩
  · refine List.pairwise_map.mpr ?_
    exact (List.pairwise_map.mp (catalogue run).ascending).imp Utf8.encode_lt
  · intro id
    rw [← hcat.known, ← ids_rulesOf, List.mem_map]
  · rw [List.forall₂_map_right_iff, List.forall₂_same]
    intro f hf
    exact attributed_resultOf hcat hf
  · intro rule hrule
    have hpage := helpUri_of_mem_rulesOf hcat hrule
    exact ⟨hpage, by rw [hpage, firstPage_eq_none_iff]⟩

end LintFindings.Sarif
