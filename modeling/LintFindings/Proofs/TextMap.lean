/-
The order of texts, and the tables that are kept in it.

Texts are compared by their code points, and their UTF-8 forms come in the same order
(`encode_lt`): a character's first byte tells how many bytes it has, more bytes are for larger code
points, and the bytes of one number are the digits of its code point.

The texts of a `TextMap` ascend, so `lookup` finds what was put in last (`lookup_upsert`),
and of the pairs that a table is made of the last one for a text counts
(`lookup_ofPairs`).  Pairs that ascend already are the entries of their table
(`entries_ofPairs`), so a table is made of its own entries (`ofPairs_entries`).
-/
import LintFindings.Text.Table
import LintFindings.Text.Utf8
import Mathlib.Data.List.Basic
import Mathlib.Data.List.Induction
import Mathlib.Data.List.Sort
import Mathlib.Tactic.SplitIfs
import Mathlib.Tactic.Tauto

namespace LintFindings

namespace Text

/-! ### The order of texts -/

theorem ne_of_lt {s t : Text} (h : s < t) : s ≠ t := by
  rintro rfl
  exact List.lt_irrefl s h

end Text

namespace Utf8

/-! ### The order of bytes -/

theorem ofNat_lt_ofNat {m n : Nat} (hm : m < 256) (hn : n < 256) :
    UInt8.ofNat m < UInt8.ofNat n ↔ m < n := by
  rw [UInt8.lt_iff_toNat_lt, UInt8.toNat_ofNat_of_lt' hm, UInt8.toNat_ofNat_of_lt' hn]

theorem ofNat_eq_ofNat {m n : Nat} (hm : m < 256) (hn : n < 256) :
    UInt8.ofNat m = UInt8.ofNat n ↔ m = n := by
  rw [← UInt8.toNat_inj, UInt8.toNat_ofNat_of_lt' hm, UInt8.toNat_ofNat_of_lt' hn]

/-- Numbers are compared by their last digit of six bits only where the others agree. -/
theorem lt_iff_digits {m n : Nat} :
    m < n ↔ m / 64 < n / 64 ∨ m / 64 = n / 64 ∧ m % 64 < n % 64 := by omega

/-- The bytes of two characters decide, whatever follows them. -/
theorem encodeChar_lt {c d : Char} (h : c < d) (s t : List UInt8) :
    String.utf8EncodeChar c ++ s < String.utf8EncodeChar d ++ t := by
  have hlt : c.val.toNat < d.val.toNat := h
  have hmax : d.val.toNat < 0x110000 := by
    obtain h | h := d.valid <;> omega
  simp only [String.utf8EncodeChar]
  generalize c.val.toNat = m at hlt ⊢
  generalize d.val.toNat = n at hlt hmax ⊢
  have hm : m / 4096 = m / 64 / 64 ∧ m / 262144 = m / 64 / 64 / 64 := by omega
  have hn : n / 4096 = n / 64 / 64 ∧ n / 262144 = n / 64 / 64 / 64 := by omega
  -- the highest digit fills its three bits, so nothing of it is cut off
  have htop : ∀ k < 0x110000, k / 64 / 64 / 64 % 8 = k / 64 / 64 / 64 :=
    fun k hk => Nat.mod_eq_of_lt (by omega)
  have hdigits := lt_iff_digits.mp hlt
  rw [lt_iff_digits (m := m / 64), lt_iff_digits (m := m / 64 / 64)] at hdigits
  rw [hm.1, hm.2, hn.1, hn.2, htop m (by omega), htop n hmax]
  split_ifs <;>
    simp (disch := omega) only [List.cons_append, List.nil_append, List.cons_lt_cons_iff,
      ofNat_lt_ofNat, ofNat_eq_ofNat] <;>
    omega

/-- **Bytes come in the order of the texts that they are the forms of.** -/
theorem encode_lt {s t : Text} (h : s < t) : encode s < encode t := by
  induction s generalizing t with
  | nil =>
      cases t with
      | nil => simp at h
      | cons b t =>
          obtain ⟨byte, bytes, hbytes⟩ : ∃ byte bytes, encode (b :: t) = byte :: bytes :=
            List.ne_nil_iff_exists_cons.mp (by simp [encode])
          rw [hbytes]
          exact List.nil_lt_cons byte bytes
  | cons a s ih =>
      cases t with
      | nil => simp at h
      | cons b t =>
          rw [encode, encode, List.flatMap_cons, List.flatMap_cons]
          obtain hab | ⟨rfl, hst⟩ := List.cons_lt_cons_iff.mp h
          · exact encodeChar_lt hab _ _
          · exact List.append_left_lt (ih hst)

end Utf8

namespace TextMap

/-! ### Entries -/

variable {α : Type} {m m' : TextMap α} {entries pairs : List (Text × α)} {key k : Text} {v : α}
  {f : Option α → α}

theorem lookup_cons (k : Text) (p : Text × α) (entries : List (Text × α)) :
    List.lookup k (p :: entries) = if k = p.1 then some p.2 else entries.lookup k := by
  obtain ⟨key, v⟩ := p
  by_cases h : k = key
  · simp [h]
  · simp [List.lookup_cons, h, beq_false_of_ne h]

theorem lookup_eq_none_of_lt (h : ∀ k ∈ keys entries, key < k) : entries.lookup key = none := by
  rw [List.lookup_eq_none_iff]
  intro p hp
  simpa using Text.ne_of_lt (h p.1 (List.mem_map_of_mem hp))

/-- A text has the value that was made of its earlier one, and no other text has changed. -/
theorem lookup_upsertInto (h : Ascending entries) (k : Text) :
    (upsertInto key f entries).lookup k =
      if k = key then some (f (entries.lookup key)) else entries.lookup k := by
  induction entries with
  | nil => rw [upsertInto, lookup_cons, List.lookup_nil, List.lookup_nil]
  | cons p entries ih =>
      obtain ⟨hfirst, hrest⟩ := List.pairwise_cons.mp h
      rw [upsertInto, lookup_cons key]
      by_cases hkey : key = p.1
      · rw [if_pos hkey, if_pos hkey, lookup_cons, lookup_cons]
        by_cases hk : k = p.1
        · rw [if_pos hk, if_pos (hk.trans hkey.symm)]
        · rw [if_neg hk, if_neg hk, if_neg (fun hc => hk (hc.trans hkey))]
      · rw [if_neg hkey, if_neg hkey]
        by_cases hbefore : Text.before key p.1 = true
        · -- all of the table stands behind the text, so there was nothing known of it
          have hlt : key < p.1 := Text.before_iff_lt.mp hbefore
          have hnone : entries.lookup key = none :=
            lookup_eq_none_of_lt fun k hk => List.lt_trans hlt (hfirst k hk)
          rw [if_pos hbefore, hnone, lookup_cons]
        · rw [if_neg hbefore, lookup_cons, lookup_cons, ih hrest]
          by_cases hk : k = p.1
          · rw [if_pos hk, if_pos hk, if_neg (fun hc => hkey (hc.symm.trans hk))]
          · rw [if_neg hk, if_neg hk]

/-- Where no text stands twice, each pair is found. -/
theorem lookup_eq_some_iff (h : (keys entries).Nodup) :
    entries.lookup k = some v ↔ (k, v) ∈ entries := by
  induction entries with
  | nil => simp
  | cons p entries ih =>
      obtain ⟨hfirst, hrest⟩ := List.nodup_cons.mp h
      rw [lookup_cons, List.mem_cons]
      by_cases hk : k = p.1
      · subst hk
        have hnot : (p.1, v) ∉ entries := fun hmem => hfirst (List.mem_map.mpr ⟨_, hmem, rfl⟩)
        rw [if_pos rfl]
        simp [hnot, Prod.ext_iff, eq_comm]
      · rw [if_neg hk, ih hrest]
        have hne : (k, v) ≠ p := fun hc => hk (by rw [← hc])
        simp [hne]

theorem Ascending.nodup (h : Ascending entries) : (keys entries).Nodup := h.imp Text.ne_of_lt

/-! ### Tables -/

theorem mem_keys_upsert (m : TextMap α) :
    k ∈ keys (upsert key f m).entries ↔ k = key ∨ k ∈ keys m.entries := mem_keys_upsertInto

theorem lookup_upsert (m : TextMap α) (k : Text) :
    (upsert key f m).lookup k = if k = key then some (f (m.lookup key)) else m.lookup k :=
  lookup_upsertInto m.ascending k

/-- In a table each pair is found. -/
theorem lookup_iff (m : TextMap α) : m.lookup k = some v ↔ (k, v) ∈ m.entries :=
  lookup_eq_some_iff m.ascending.nodup

theorem ofPairs_concat (pairs : List (Text × α)) (p : Text × α) :
    ofPairs (pairs ++ [p]) = insert p.1 p.2 (ofPairs pairs) := List.foldl_concat ..

/-- **In a table of pairs a text has the value of its last pair.** -/
theorem lookup_ofPairs (pairs : List (Text × α)) (k : Text) :
    (ofPairs pairs).lookup k = pairs.reverse.lookup k := by
  induction pairs using List.reverseRecOn with
  | nil => rfl
  | append_singleton pairs p ih =>
      rw [ofPairs_concat, insert, lookup_upsert, List.reverse_concat, lookup_cons, ih]

/-- Where no text stands twice, a table has the pairs that it is made of. -/
theorem mem_ofPairs_iff (h : (keys pairs).Nodup) :
    (k, v) ∈ (ofPairs pairs).entries ↔ (k, v) ∈ pairs := by
  have hreverse : (keys pairs.reverse).Nodup := by
    rw [keys, List.map_reverse, List.nodup_reverse]
    exact h
  rw [← lookup_iff, lookup_ofPairs, lookup_eq_some_iff hreverse, List.mem_reverse]

/-- A table is known by its pairs. -/
theorem ext_mem (h : ∀ p, p ∈ m.entries ↔ p ∈ m'.entries) : m = m' := by
  have : Std.Irrefl fun p q : Text × α => p.1 < q.1 := ⟨fun p => List.lt_irrefl p.1⟩
  have : Std.Antisymm fun p q : Text × α => p.1 < q.1 :=
    ⟨fun _ _ hpq hqp => absurd hqp (List.lt_asymm hpq)⟩
  have hentries : m.entries = m'.entries :=
    List.Pairwise.eq_of_mem_iff (List.pairwise_map.mp m.ascending)
      (List.pairwise_map.mp m'.ascending) h
  cases m
  cases m'
  cases hentries
  rfl

/-- A table is made of its own entries. -/
theorem ofPairs_entries (m : TextMap α) : ofPairs m.entries = m :=
  ext_mem fun _ => mem_ofPairs_iff m.ascending.nodup

/-- Pairs in their order are the entries of their table. -/
theorem entries_ofPairs (h : Ascending pairs) : (ofPairs pairs).entries = pairs :=
  congrArg entries (ofPairs_entries ⟨pairs, h⟩)

end TextMap

end LintFindings
